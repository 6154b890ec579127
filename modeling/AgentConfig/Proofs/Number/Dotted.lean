import AgentConfig.Proofs.Number.Shortest

namespace AgentConfig

/-- Two numbers with a point between them. -/
def dotted (a b : Nat) : List Char :=
  decimalDigits a ++ '.' :: decimalDigits b

/-- The decimal that two numbers with a point between them denote. -/
def numeral (a b : Nat) : Decimal where
  coefficient := a * 10 ^ (decimalDigits b).length + b
  exponent := -(decimalDigits b).length

def dottedParts (a b : Nat) : NumberParts where
  whole := decimalDigits a
  fraction := some (decimalDigits b)
  exponent := none

variable {a b c : Nat}

theorem text_dottedParts : (dottedParts a b).text = dotted a b := by
  simp [dottedParts, NumberParts.text, NumberParts.fractionText, NumberParts.exponentText, dotted]

theorem value_dottedParts : (dottedParts a b).value = numeral a b := by
  simp [dottedParts, NumberParts.value, NumberParts.exponentValue, numeral, natOfDigits_append,
    natOfDigits_decimalDigits]

theorem wellFormed_dottedParts : (dottedParts a b).WellFormed where
  whole_ne_nil := decimalDigits_ne_nil a
  whole_digits := all_isDigit_decimalDigits a
  whole_zero := fun leading => by
    rw [dottedParts, decimalDigits_head_zero leading, decimalDigits_zero]
    rfl
  fraction := by
    rintro _ ⟨⟩
    exact ⟨decimalDigits_ne_nil b, all_isDigit_decimalDigits b⟩
  exponent := by rintro _ ⟨⟩
  decimal := .inl (by simp [dottedParts])

theorem decimalDigits_injective : Function.Injective decimalDigits := by
  intro m n same
  rw [← natOfDigits_decimalDigits m, same, natOfDigits_decimalDigits]

/-- A text of two runs of digits with a point between them is taken apart in one way only. -/
theorem eq_of_append_point {s s' t t' : List Char} (digits : s.all isDigit) (digits' : s'.all isDigit)
    (same : s ++ '.' :: t = s' ++ '.' :: t') : s = s' ∧ t = t' := by
  have stop : ∀ rest : List Char, ('.' :: rest).head?.all fun c => !isDigit c := fun _ => rfl
  obtain ⟨taken, dropped⟩ := takeWhile_append_of_all digits (stop t)
  obtain ⟨taken', dropped'⟩ := takeWhile_append_of_all digits' (stop t')
  rw [same] at taken dropped
  exact ⟨taken.symm.trans taken', List.tail_eq_of_cons_eq (dropped.symm.trans dropped')⟩

theorem dotted_inj {a' b' : Nat} : dotted a b = dotted a' b' ↔ a = a' ∧ b = b' := by
  constructor
  · intro same
    obtain ⟨whole, fraction⟩ := eq_of_append_point (all_isDigit_decimalDigits a) (all_isDigit_decimalDigits a') same
    exact ⟨decimalDigits_injective whole, decimalDigits_injective fraction⟩
  · rintro ⟨rfl, rfl⟩
    rfl

theorem coefficient_numeral : (numeral a b).coefficient = 0 ↔ a = 0 ∧ b = 0 := by
  simp [numeral]

theorem toRat_numeral_zeros (c k : Nat) (positive : 0 < c) : (numeral a (c * 10 ^ k)).toRat = (numeral a c).toRat := by
  have length : (decimalDigits (c * 10 ^ k)).length = (decimalDigits c).length + k := by
    rw [decimalDigits_mul_pow positive, List.length_append, List.length_replicate]
  have scaled := Decimal.toRat_scale (a * 10 ^ (decimalDigits c).length + c) k (-(decimalDigits c).length)
  rw [numeral, numeral, length, ← scaled, Nat.add_mul, Nat.mul_assoc, ← pow_add]
  congr 2
  omega

namespace NumberLayout

variable {layout : NumberLayout} {d d' : Decimal}

/-- The text of a decimal depends on its number only. -/
theorem decimalText_congr (nonzero : d.coefficient ≠ 0) (same : d.toRat = d'.toRat) :
    layout.decimalText d = layout.decimalText d' := by
  have nonzero' : d'.coefficient ≠ 0 := by
    rw [Ne, ← Decimal.toRat_eq_zero] at nonzero ⊢
    rwa [← same]
  obtain ⟨c, e, sharp, value, digits, point⟩ := Decimal.exists_sharp nonzero
  obtain ⟨c', e', sharp', value', digits', point'⟩ := Decimal.exists_sharp nonzero'
  obtain ⟨rfl, rfl⟩ := Decimal.eq_of_sharp sharp sharp' (value.symm.trans (same.trans value'))
  rw [decimalText, decimalText, digits, digits', point, point']

/-- The point of a number below `10 ^ 16` is written without an exponent. -/
theorem plain_within (positive : 0 < a) (bound : a < 10 ^ 16) :
    plain.least < ((decimalDigits a).length : Int) ∧ ((decimalDigits a).length : Int) ≤ plain.greatest := by
  have some := decimalDigits_length_pos a
  have few := (length_decimalDigits_le_iff positive).mpr bound
  constructor <;> simp only [plain] <;> omega

/-- The text of an integer below `10 ^ 16` ends in a zero behind the point. -/
theorem plain_decimalText_int (positive : 0 < a) (bound : a < 10 ^ 16) : plain.decimalText ⟨a, 0⟩ = dotted a 0 := by
  obtain ⟨zeros, split⟩ := strippedDigits_append a
  have length := congrArg List.length split
  rw [List.length_append, List.length_replicate] at length
  have some := decimalDigits_length_pos a
  have behind : (decimalDigits a).length - (strippedDigits a).length = zeros := by omega
  rw [decimalText]
  simp only [Int.add_zero]
  rw [if_pos (plain_within positive bound), positional, if_neg (by omega), Int.toNat_natCast, if_pos (by omega), behind,
    ← split, dotted, decimalDigits_zero]

/-- The text of a number below `10 ^ 16` with a fraction. -/
theorem plain_decimalText_numeral (bound : a < 10 ^ 16) (sharp : ¬ 10 ∣ b) :
    plain.decimalText (numeral a b) = dotted a b := by
  have some := decimalDigits_length_pos b
  have sharp' : ¬ 10 ∣ (numeral a b).coefficient := by
    rw [numeral, Nat.dvd_add_right ((dvd_pow_self 10 some.ne').mul_left a)]
    exact sharp
  have stripped : strippedDigits (numeral a b).coefficient = decimalDigits (numeral a b).coefficient := by
    have digits := Decimal.strippedDigits_mul_pow sharp' 0
    rwa [pow_zero, Nat.mul_one] at digits
  rw [decimalText, stripped]
  rcases Nat.eq_zero_or_pos a with rfl | positive
  · have point : ((decimalDigits (numeral 0 b).coefficient).length : Int) + (numeral 0 b).exponent = 0 := by
      simp [numeral]
    simp only [point]
    rw [if_pos (by decide), positional, if_pos le_rfl, dotted, decimalDigits_zero]
    simp [numeral]
  · have digits : decimalDigits (numeral a b).coefficient = decimalDigits a ++ decimalDigits b := by
      have joined := decimalDigits_append positive (all_isDigit_decimalDigits b)
      rwa [natOfDigits_decimalDigits] at joined
    have point : ((decimalDigits (numeral a b).coefficient).length : Int) + (numeral a b).exponent =
        (decimalDigits a).length := by
      rw [digits, List.length_append]
      simp [numeral]
    have front := decimalDigits_length_pos a
    simp only [point]
    rw [if_pos (plain_within positive bound), digits, positional, if_neg (by omega), Int.toNat_natCast,
      List.length_append, if_neg (by omega), List.take_left, List.drop_left, dotted]

/-- The only number whose text is that of two numbers with a point between them is what they denote. -/
theorem toRat_of_decimalText (nonzero : d.coefficient ≠ 0) (text : plain.decimalText d = dotted a b) :
    d.toRat = (numeral a b).toRat ∧ a < 10 ^ 16 := by
  obtain ⟨parts, shape, wellFormed, -, short, value⟩ := plain.decimalText_parts nonzero
  have letter : 'e' ∉ parts.text := by
    rw [shape, text, dotted, List.mem_append, List.mem_cons, not_or, not_or]
    have digit : ∀ n, 'e' ∉ decimalDigits n := fun n member =>
      absurd (isDigit_of_mem_decimalDigits member) (by decide)
    exact ⟨digit a, by decide, digit b⟩
  obtain ⟨whole, fraction, exponent⟩ := parts
  obtain rfl : exponent = none := by
    cases exponent with
    | none => rfl
    | some e => simp [NumberParts.text, NumberParts.exponentText] at letter
  obtain ⟨behind, rfl⟩ : ∃ digits, fraction = some digits :=
    Option.ne_none_iff_exists'.mp (wellFormed.decimal.resolve_right fun pointed => pointed rfl)
  have same : whole ++ '.' :: behind = decimalDigits a ++ '.' :: decimalDigits b := by
    rw [← dotted, ← text, ← shape]
    simp [NumberParts.text, NumberParts.fractionText, NumberParts.exponentText]
  obtain ⟨rfl, rfl⟩ := eq_of_append_point wellFormed.whole_digits (all_isDigit_decimalDigits a) same
  refine ⟨?_, ?_⟩
  · rw [← value, ← value_dottedParts]
    rfl
  · rcases Nat.eq_zero_or_pos a with rfl | positive
    · positivity
    · have few : (decimalDigits a).length ≤ 16 := by
        simpa [plain] using short
      exact (length_decimalDigits_le_iff positive).mp few

/-- The text of a decimal consists of two numbers with a point between them just when they denote it, the first is not
too long, and the second has no zeros at its end. -/
theorem plain_decimalText_iff (nonzero : d.coefficient ≠ 0) : plain.decimalText d = dotted a b ↔
    d.toRat = (numeral a b).toRat ∧ a < 10 ^ 16 ∧ (b = 0 ∨ ¬ 10 ∣ b) := by
  constructor
  · intro text
    obtain ⟨same, bound⟩ := toRat_of_decimalText nonzero text
    refine ⟨same, bound, or_iff_not_imp_left.mpr fun some => ?_⟩
    obtain ⟨k, c, sharp, rfl⟩ := Nat.exists_eq_pow_mul_and_not_dvd some 10 (by decide)
    rw [Nat.mul_comm] at text same ⊢
    have positive := Decimal.pos_of_sharp sharp
    -- Without the zeros the number is the same, and so is its text.
    rw [toRat_numeral_zeros c k positive] at same
    have shorter := (decimalText_congr nonzero same).trans (plain_decimalText_numeral bound sharp)
    rwa [(dotted_inj.mp (text.symm.trans shorter)).2]
  · rintro ⟨same, bound, rfl | sharp⟩
    · have whole : (numeral a 0).toRat = (Decimal.mk a 0).toRat := by
        have scaled := Decimal.toRat_scale a 1 0
        rwa [pow_one] at scaled
      have positive : 0 < a := by
        refine Nat.pos_of_ne_zero fun zero => nonzero (Decimal.toRat_eq_zero.mp ?_)
        rw [same, whole]
        exact Decimal.toRat_eq_zero.mpr zero
      exact (decimalText_congr nonzero (same.trans whole)).trans (plain_decimalText_int positive bound)
    · exact (decimalText_congr nonzero same).trans (plain_decimalText_numeral bound sharp)

/-- A number that is read from two numbers with a point between them is written as they are just when they are its
shortest text, the first is not too long, and the second has no zeros at its end. -/
theorem plain_write_iff : plain.write ((numeral a b).toBinary64 false) = dotted a b ↔
    a < 10 ^ 16 ∧ (b = 0 ∨ ¬ 10 ∣ b) ∧ (numeral a b).IsShortest := by
  have front : ∀ c ∈ (dotted a b).head?, isDigit c = true := by
    rw [dotted, List.head?_append_of_ne_nil _ (decimalDigits_ne_nil a)]
    exact fun c member => isDigit_of_mem_decimalDigits (List.mem_of_mem_head? member)
  have other : ∀ {c : Char} {text : List Char}, isDigit c = false → c :: text ≠ dotted a b := by
    intro c text letter same
    have digit := front c (by rw [← same]; rfl)
    exact absurd digit (by rw [letter]; decide)
  -- A shortest decimal is read as a finite number without a sign, which leaves one case.
  have unread : ∀ {x : Binary64}, (numeral a b).toBinary64 false = x →
      (∀ rank, x ≠ .finite false rank) → ¬ (numeral a b).IsShortest := by
    rintro x is apart ⟨rank, isShortest⟩
    exact apart rank (is.symm.trans isShortest.reads)
  cases is : (numeral a b).toBinary64 false with
  | nan => exact iff_of_false (other (by decide)) fun kept => unread is (by simp) kept.2.2
  | infinite negative =>
    refine iff_of_false ?_ fun kept => unread is (by simp) kept.2.2
    cases negative <;> exact other (by decide)
  | finite negative rank =>
    cases negative with
    | true => exact iff_of_false (other (by decide)) fun kept => unread is (by simp) kept.2.2
    | false =>
      rw [Decimal.isShortest_iff is, write, signed, if_neg (by decide)]
      split_ifs with zero
      · have zeros : ['0', '.', '0'] = dotted 0 0 := by rw [dotted, decimalDigits_zero]; rfl
        rw [Decimal.isShortestFor_zero zero, Decimal.toRat_eq_zero, coefficient_numeral, zeros, dotted_inj]
        constructor
        · rintro ⟨rfl, rfl⟩
          exact ⟨by positivity, .inl rfl, rfl, rfl⟩
        · rintro ⟨-, -, rfl, rfl⟩
          exact ⟨rfl, rfl⟩
      · have positive := Nat.pos_of_ne_zero zero
        rw [plain_decimalText_iff (Decimal.shortest_coefficient_ne_zero rank zero), Decimal.isShortestFor_iff positive]
        tauto

end NumberLayout

open Binary64 (RoundsTo)

theorem toRat_numeral :
    (numeral a b).toRat = (a * 10 ^ (decimalDigits b).length + b : Nat) / 10 ^ (decimalDigits b).length := by
  rw [Decimal.toRat, numeral, zpow_neg, zpow_natCast]
  rfl

theorem exists_rank_numeral (bound : a < 10 ^ 16) : ∃ rank, (numeral a b).toBinary64 false = .finite false rank := by
  by_cases zero : (numeral a b).coefficient = 0
  · exact ⟨_, if_pos zero⟩
  · have digits := lt_pow_length_decimalDigits b
    have large : 10 ^ 16 ≤ 2 ^ 1000 := by decide +kernel
    have small : a * 10 ^ (decimalDigits b).length + b < 2 ^ 1000 * 10 ^ (decimalDigits b).length :=
      calc a * 10 ^ (decimalDigits b).length + b < (a + 1) * 10 ^ (decimalDigits b).length := by rw [add_one_mul]; omega
        _ ≤ 2 ^ 1000 * 10 ^ (decimalDigits b).length := Nat.mul_le_mul_right _ (bound.trans_le large)
    have ratio : (numeral a b).toBinary64 false =
        .ofRatio false (a * 10 ^ (decimalDigits b).length + b) (10 ^ (decimalDigits b).length) := by
      rw [Decimal.toBinary64_eq false zero]
      simp [numeral]
    have finite := Binary64.isFinite_ofRatio false small
    rw [ratio]
    unfold Binary64.ofRatio Binary64.ofRank at finite ⊢
    split_ifs at finite ⊢
    · exact ⟨_, rfl⟩
    · exact Bool.noConfusion finite

/-- A number with a point is at least a tenth if it is not zero. -/
theorem le_toRat_numeral (some : (numeral a b).coefficient ≠ 0) : 1 / 10 ≤ (numeral a b).toRat := by
  have ten : (0 : ℚ) < 10 ^ (decimalDigits b).length := by positivity
  have large : 10 ^ (decimalDigits b).length ≤ 10 * (a * 10 ^ (decimalDigits b).length + b) := by
    rcases Nat.eq_zero_or_pos a with rfl | whole
    · have positive : 0 < b := Nat.pos_of_ne_zero fun none => some (coefficient_numeral.mpr ⟨rfl, none⟩)
      have digits := decimalDigits_length_pos b
      have leading : 10 ^ ((decimalDigits b).length - 1) ≤ b := by
        rw [← Nat.not_lt, ← length_decimalDigits_le_iff positive]
        omega
      have power : 10 ^ (decimalDigits b).length = 10 ^ ((decimalDigits b).length - 1) * 10 := by
        rw [← pow_succ, Nat.sub_add_cancel digits]
      omega
    · have front := Nat.le_mul_of_pos_left (10 ^ (decimalDigits b).length) whole
      omega
  rw [toRat_numeral, div_le_div_iff₀ (by norm_num) ten]
  exact_mod_cast (by omega)

/-- What is at least a tenth is rounded to a normal magnitude. -/
theorem fractions_le_of_roundsTo {q : ℚ} {rank : Nat} (large : 1 / 10 ≤ q) (rounds : RoundsTo q rank) :
    Binary64.fractions ≤ rank := by
  by_contra least
  have one : (0 : ℚ) < Binary64.unitsInOne := mod_cast Binary64.unitsInOne_pos
  have tiny : (Binary64.units Binary64.fractions * 10 : ℚ) < 1 * Binary64.unitsInOne := by
    have few : Binary64.units Binary64.fractions * 10 < 1 * Binary64.unitsInOne := by decide +kernel
    exact_mod_cast few
  have small : q < 1 / 10 :=
    calc q ≤ Binary64.halfway rank := rounds.high
      _ < Binary64.magnitude (rank + 1) := Binary64.halfway_lt_magnitude rank
      _ ≤ Binary64.magnitude Binary64.fractions := Binary64.magnitude_strictMono.monotone (not_le.mp least)
      _ < 1 / 10 := (div_lt_div_iff₀ one (by norm_num)).mpr tiny
  linarith

theorem isShortest_numeral (bound : a < 10 ^ 16) (few : (numeral a b).digitCount ≤ 15) : (numeral a b).IsShortest := by
  obtain ⟨rank, reads⟩ := exists_rank_numeral (b := b) bound
  have rounds := Decimal.toBinary64_eq_finite.mp reads
  rw [Decimal.isShortest_iff reads]
  by_cases zero : (numeral a b).coefficient = 0
  · have none := Decimal.toRat_eq_zero.mpr zero
    have least : rank.val = 0 := by
      rw [none, ← Binary64.magnitude_zero] at rounds
      exact rounds.unique (.magnitude 0)
    exact (Decimal.isShortestFor_zero least).mpr none
  · exact Decimal.isShortestFor_of_digitCount_le (fractions_le_of_roundsTo (le_toRat_numeral zero) rounds) rounds few

end AgentConfig
