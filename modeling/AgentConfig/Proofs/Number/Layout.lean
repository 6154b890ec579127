import AgentConfig.Number.Layout
import AgentConfig.Proofs.Number.Decimal

namespace AgentConfig

/-- The characters that numbers are written with. -/
def numberChars : List Char :=
  "0123456789.e+-".toList

theorem mem_numberChars_of_isDigit {c : Char} (digit : isDigit c = true) : c ∈ numberChars := by
  have bounds := isDigit_iff.1 digit
  obtain ⟨n, value⟩ : ∃ n, c.toNat = n := ⟨_, rfl⟩
  rw [value] at bounds
  have same : c = Char.ofNat n := by rw [← value, Char.ofNat_toNat]
  rw [same]
  clear same digit
  obtain ⟨low, high⟩ := bounds
  interval_cases n <;> decide

/-- The parts of a number's text: digits, perhaps a point and more digits, perhaps an exponent with its
sign and digits. -/
structure NumberParts where
  whole : List Char
  fraction : Option (List Char)
  exponent : Option (Bool × List Char)

namespace NumberParts

def fractionText : Option (List Char) → List Char
  | none => []
  | some digits => '.' :: digits

def exponentText : Option (Bool × List Char) → List Char
  | none => []
  | some (negative, digits) => 'e' :: (if negative then '-' else '+') :: digits

def text (parts : NumberParts) : List Char :=
  parts.whole ++ fractionText parts.fraction ++ exponentText parts.exponent

def exponentValue (parts : NumberParts) : Int :=
  match parts.exponent with
  | none => 0
  | some (negative, digits) => if negative then -(natOfDigits digits : Int) else natOfDigits digits

/-- The decimal that the parts denote. -/
def value (parts : NumberParts) : Decimal where
  coefficient := natOfDigits (parts.whole ++ parts.fraction.getD [])
  exponent := parts.exponentValue - (parts.fraction.getD []).length

/-- Digits in all parts, none of them empty, and a zero in front only by itself. -/
structure WellFormed (parts : NumberParts) : Prop where
  whole_ne_nil : parts.whole ≠ []
  whole_digits : parts.whole.all isDigit
  whole_zero : parts.whole.head? = some '0' → parts.whole.length = 1
  fraction : ∀ digits ∈ parts.fraction, digits ≠ [] ∧ digits.all isDigit
  exponent : ∀ e ∈ parts.exponent, e.2 ≠ [] ∧ e.2.all isDigit
  decimal : parts.fraction ≠ none ∨ parts.exponent ≠ none

theorem WellFormed.mem_numberChars {parts : NumberParts} (wellFormed : parts.WellFormed) {c : Char}
    (member : c ∈ parts.text) : c ∈ numberChars := by
  have digits : ∀ {s : List Char}, s.all isDigit = true → c ∈ s → c ∈ numberChars := fun all inside =>
    mem_numberChars_of_isDigit (List.all_eq_true.mp all c inside)
  rw [text, List.mem_append, List.mem_append] at member
  rcases member with (whole | behind) | exponent
  · exact digits wellFormed.whole_digits whole
  · cases shape : parts.fraction with
    | none => simp [shape, fractionText] at behind
    | some fraction =>
      rw [shape, fractionText, List.mem_cons] at behind
      obtain rfl | inside := behind
      · decide
      · exact digits (wellFormed.fraction _ shape).2 inside
  · cases shape : parts.exponent with
    | none => simp [shape, exponentText] at exponent
    | some e =>
      obtain ⟨negative, run⟩ := e
      rw [shape, exponentText, List.mem_cons, List.mem_cons] at exponent
      obtain rfl | rfl | inside := exponent
      · decide
      · cases negative <;> decide
      · exact digits (wellFormed.exponent _ shape).2 inside

end NumberParts

namespace NumberLayout

theorem strippedDigits_append (c : Nat) :
    ∃ zeros, decimalDigits c = strippedDigits c ++ List.replicate zeros '0' := by
  have split := List.takeWhile_append_dropWhile (p := (· == '0')) (l := (decimalDigits c).reverse)
  have same : (decimalDigits c).reverse.takeWhile (· == '0') =
      List.replicate ((decimalDigits c).reverse.takeWhile (· == '0')).length '0' :=
    List.eq_replicate_iff.mpr ⟨rfl, fun x member => eq_of_beq (List.all_eq_true.mp List.all_takeWhile x member)⟩
  refine ⟨((decimalDigits c).reverse.takeWhile (· == '0')).length, ?_⟩
  have whole := congrArg List.reverse split
  rw [List.reverse_append, List.reverse_reverse, same, List.reverse_replicate] at whole
  exact whole.symm

theorem all_isDigit_strippedDigits (c : Nat) : (strippedDigits c).all isDigit := by
  obtain ⟨zeros, split⟩ := strippedDigits_append c
  have digits := all_isDigit_decimalDigits c
  rw [split, List.all_append, Bool.and_eq_true] at digits
  exact digits.1

theorem strippedDigits_ne_nil {c : Nat} (nonzero : c ≠ 0) : strippedDigits c ≠ [] := by
  intro empty
  obtain ⟨zeros, split⟩ := strippedDigits_append c
  have value := natOfDigits_decimalDigits c
  rw [split, empty, List.nil_append, natOfDigits_replicate_zero] at value
  exact nonzero value.symm

theorem strippedDigits_head {c : Nat} (nonzero : c ≠ 0) : (strippedDigits c).head? ≠ some '0' := by
  intro leading
  obtain ⟨zeros, split⟩ := strippedDigits_append c
  refine nonzero (decimalDigits_head_zero ?_)
  rw [split, List.head?_append_of_ne_nil _ (strippedDigits_ne_nil nonzero)]
  exact leading

theorem padLeft_digits (width : Nat) {digits : List Char} (nonempty : digits ≠ []) (all : digits.all isDigit) :
    padLeft width digits ≠ [] ∧ (padLeft width digits).all isDigit ∧
      natOfDigits (padLeft width digits) = natOfDigits digits := by
  refine ⟨by simp [padLeft, nonempty], ?_, natOfDigits_zeros_append _ _⟩
  simp [padLeft, List.all_append, all, isDigit]

/-- Digits whose point stands at `point`, written with `k` further zeros. -/
def shifted (digits : List Char) (point : Int) (k : Nat) : Decimal where
  coefficient := natOfDigits digits * 10 ^ k
  exponent := point - digits.length - k

variable {digits : List Char}

theorem positional_parts (nonempty : digits ≠ []) (all : digits.all isDigit) (leading : digits.head? ≠ some '0')
    (point : Int) :
    ∃ (parts : NumberParts) (k : Nat), parts.text = positional digits point ∧ parts.WellFormed ∧
      parts.fraction ≠ none ∧ (parts.whole.length : Int) ≤ max 1 point ∧ parts.value = shifted digits point k := by
  have zeroDigit : isDigit '0' = true := rfl
  unfold positional
  -- The point stands before all digits, behind all of them, or among them.
  split_ifs with small long
  · refine ⟨⟨['0'], some (List.replicate (-point).toNat '0' ++ digits), none⟩, 0,
      by simp [NumberParts.text, NumberParts.fractionText, NumberParts.exponentText], ?_, by simp, by simp, ?_⟩
    · constructor <;> simp_all
      rintro x (⟨_, rfl⟩ | member)
      · exact zeroDigit
      · exact all x member
    · have value : natOfDigits ('0' :: (List.replicate (-point).toNat '0' ++ digits)) = natOfDigits digits :=
        natOfDigits_zeros_append digits ((-point).toNat + 1)
      simp only [NumberParts.value, NumberParts.exponentValue, shifted, Option.getD_some, List.singleton_append,
        value, pow_zero, Nat.mul_one, Decimal.mk.injEq, true_and, List.length_append, List.length_replicate]
      omega
  · refine ⟨⟨digits ++ List.replicate (point.toNat - digits.length) '0', some ['0'], none⟩,
      point.toNat - digits.length + 1, by simp [NumberParts.text, NumberParts.fractionText, NumberParts.exponentText],
      ?_, by simp, ?_, ?_⟩
    · have front : (digits ++ List.replicate (point.toNat - digits.length) '0').head? ≠ some '0' := by
        rwa [List.head?_append_of_ne_nil _ nonempty]
      constructor <;> simp_all
    · simp only [List.length_append, List.length_replicate]
      omega
    · have value : natOfDigits (digits ++ List.replicate (point.toNat - digits.length) '0' ++ ['0']) =
          natOfDigits digits * 10 ^ (point.toNat - digits.length + 1) := by
        rw [← natOfDigits_append_zeros, List.append_assoc, List.replicate_succ']
      simp only [NumberParts.value, NumberParts.exponentValue, shifted, Option.getD_some, value,
        Decimal.mk.injEq, true_and, List.length_singleton]
      omega
  · refine ⟨⟨digits.take point.toNat, some (digits.drop point.toNat), none⟩, 0,
      by simp [NumberParts.text, NumberParts.fractionText, NumberParts.exponentText], ?_, by simp, ?_, ?_⟩
    · have front : (digits.take point.toNat).head? ≠ some '0' := by
        rw [List.head?_take]
        split_ifs
        · simp
        · exact leading
      have split := List.take_append_drop point.toNat digits
      have parts : (digits.take point.toNat).all isDigit ∧ (digits.drop point.toNat).all isDigit := by
        rwa [← Bool.and_eq_true, ← List.all_append, split]
      have inside : point.toNat < digits.length := Nat.lt_of_not_le long
      constructor <;> simp_all
    · simp only [List.length_take]
      omega
    · simp only [NumberParts.value, NumberParts.exponentValue, shifted, Option.getD_some, List.take_append_drop,
        pow_zero, Nat.mul_one, Decimal.mk.injEq, true_and, List.length_drop]
      omega

/-- The exponent that an exponent's text denotes. -/
theorem exponentValue_padLeft (width : Nat) (e : Int) (whole : List Char) (fraction : Option (List Char)) :
    NumberParts.exponentValue ⟨whole, fraction, some (e < 0, padLeft width (decimalDigits e.natAbs))⟩ = e := by
  obtain ⟨_, _, value⟩ := padLeft_digits width (decimalDigits_ne_nil e.natAbs)
    (all_isDigit_decimalDigits e.natAbs)
  simp only [NumberParts.exponentValue, value, natOfDigits_decimalDigits]
  by_cases negative : e < 0 <;> simp only [negative, decide_true, decide_false, if_true] <;> grind

/-- A scientific text has the parts in which the first digit stands before the point, and behind it a fraction of
the other digits and `k` zeros. -/
theorem scientific_parts_of_fraction (layout : NumberLayout) {first : Char} (firstDigit : isDigit first) (more : List Char)
    (point : Int) (fraction : Option (List Char)) (k : Nat) (written : fraction.getD [] = more ++ List.replicate k '0')
    (wellFormed : ∀ digits ∈ fraction, digits ≠ [] ∧ digits.all isDigit)
    (text : NumberParts.fractionText fraction =
      if more = [] then if layout.pointBeforeExponent then ['.', '0'] else [] else '.' :: more) :
    ∃ parts : NumberParts, parts.text = scientific layout (first :: more) (point - 1) ∧ parts.WellFormed ∧
      (layout.pointBeforeExponent = true → parts.fraction ≠ none) ∧ parts.whole.length = 1 ∧
        parts.value = shifted (first :: more) point k := by
  obtain ⟨padded, paddedDigits, _⟩ := padLeft_digits layout.exponentDigits
    (decimalDigits_ne_nil (point - 1).natAbs) (all_isDigit_decimalDigits (point - 1).natAbs)
  have pointed : layout.pointBeforeExponent = true → fraction ≠ none := by
    rintro point rfl
    by_cases last : more = [] <;> simp [last, point, NumberParts.fractionText] at text
  refine ⟨⟨[first], fraction, some (point - 1 < 0, padLeft layout.exponentDigits
    (decimalDigits (point - 1).natAbs))⟩, ?_, ?_, pointed, rfl, ?_⟩
  · simp only [NumberParts.text, text, scientific, NumberParts.exponentText, decide_eq_true_eq]
    cases more <;> rfl
  · exact {
      whole_ne_nil := by simp
      whole_digits := by simp [firstDigit]
      whole_zero := fun _ => rfl
      fraction := wellFormed
      exponent := by rintro _ ⟨⟩; exact ⟨padded, paddedDigits⟩
      decimal := .inr (by simp) }
  · have value : natOfDigits ([first] ++ (more ++ List.replicate k '0')) = natOfDigits (first :: more) * 10 ^ k :=
      natOfDigits_append_zeros (first :: more) k
    simp only [NumberParts.value, exponentValue_padLeft, written, shifted, value, Decimal.mk.injEq, true_and,
      List.length_append, List.length_replicate, List.length_cons]
    omega

theorem scientific_parts (layout : NumberLayout) (nonempty : digits ≠ []) (all : digits.all isDigit)
    (point : Int) :
    ∃ (parts : NumberParts) (k : Nat), parts.text = scientific layout digits (point - 1) ∧ parts.WellFormed ∧
      (layout.pointBeforeExponent = true → parts.fraction ≠ none) ∧ parts.whole.length = 1 ∧
        parts.value = shifted digits point k := by
  obtain ⟨first, more, rfl⟩ := List.exists_cons_of_ne_nil nonempty
  obtain ⟨firstDigit, moreDigits⟩ : isDigit first ∧ more.all isDigit := by simpa using all
  cases more with
  | nil =>
    -- A lone digit has no fraction, unless the layout wants a point: then it is a single zero.
    by_cases pointed : layout.pointBeforeExponent
    · obtain ⟨parts, found⟩ := scientific_parts_of_fraction layout firstDigit [] point (some ['0']) 1 rfl
        (by simp [isDigit]) (by simp [pointed, NumberParts.fractionText])
      exact ⟨parts, 1, found⟩
    · obtain ⟨parts, found⟩ := scientific_parts_of_fraction layout firstDigit [] point none 0 rfl (by simp)
        (by simp [pointed, NumberParts.fractionText])
      exact ⟨parts, 0, found⟩
  | cons second more =>
    obtain ⟨parts, found⟩ := scientific_parts_of_fraction layout firstDigit (second :: more) point
      (some (second :: more)) 0 (by simp) (by rintro _ ⟨⟩; exact ⟨by simp, moreDigits⟩)
      (by simp [NumberParts.fractionText])
    exact ⟨parts, 0, found⟩

/-- The text of a positive decimal has parts that denote the same number. The digits before the point are
few. -/
theorem decimalText_parts (layout : NumberLayout) {d : Decimal} (nonzero : d.coefficient ≠ 0) :
    ∃ parts : NumberParts, parts.text = layout.decimalText d ∧ parts.WellFormed ∧
      (layout.pointBeforeExponent = true → parts.fraction ≠ none) ∧ (parts.whole.length : Int) ≤ max 1 layout.greatest ∧
      parts.value.toRat = d.toRat := by
  obtain ⟨zeros, split⟩ := strippedDigits_append d.coefficient
  have nonempty := strippedDigits_ne_nil nonzero
  have all := all_isDigit_strippedDigits d.coefficient
  have length := congrArg List.length split
  rw [List.length_append, List.length_replicate] at length
  have coefficient : natOfDigits (strippedDigits d.coefficient) * 10 ^ zeros = d.coefficient := by
    rw [← natOfDigits_append_zeros, ← split, natOfDigits_decimalDigits]
  have same : ∀ k, (shifted (strippedDigits d.coefficient) ((decimalDigits d.coefficient).length + d.exponent) k).toRat =
      d.toRat := by
    intro k
    have exponent : (decimalDigits d.coefficient).length + d.exponent - (strippedDigits d.coefficient).length =
        d.exponent + zeros := by omega
    have scaled := Decimal.toRat_scale (natOfDigits (strippedDigits d.coefficient)) zeros (d.exponent + zeros)
    rw [coefficient, Int.add_sub_cancel] at scaled
    rw [shifted, Decimal.toRat_scale, exponent]
    exact scaled.symm
  unfold decimalText
  dsimp only
  split_ifs with within
  · obtain ⟨parts, k, text, wellFormed, pointed, length, value⟩ :=
      positional_parts nonempty all (strippedDigits_head nonzero) ((decimalDigits d.coefficient).length + d.exponent)
    exact ⟨parts, text, wellFormed, fun _ => pointed, by omega, by rw [value, same]⟩
  · obtain ⟨parts, k, text, wellFormed, pointed, length, value⟩ :=
      scientific_parts layout nonempty all ((decimalDigits d.coefficient).length + d.exponent)
    exact ⟨parts, text, wellFormed, pointed, by omega, by rw [value, same]⟩

/-- The text of a magnitude has parts that denote it. -/
theorem rank_parts (layout : NumberLayout) (rank : Fin Binary64.ranks) :
    ∃ parts : NumberParts,
      parts.text = (if rank.val = 0 then ['0', '.', '0'] else layout.decimalText (.shortest rank)) ∧
      parts.WellFormed ∧ (layout.pointBeforeExponent = true → parts.fraction ≠ none) ∧
      (parts.whole.length : Int) ≤ max 1 layout.greatest ∧
      ∀ negative, parts.value.toBinary64 negative = .finite negative rank := by
  split_ifs with zero
  · refine ⟨⟨['0'], some ['0'], none⟩, rfl, ?_, by simp, by simp, fun negative => ?_⟩
    · exact ⟨by simp, rfl, fun _ => rfl, by rintro _ ⟨⟩; exact ⟨by simp, rfl⟩, by simp, .inl (by simp)⟩
    · rw [show rank = ⟨0, by decide⟩ from Fin.ext zero]
      rfl
  · obtain ⟨parts, text, wellFormed, pointed, length, value⟩ :=
      layout.decimalText_parts (Decimal.shortest_coefficient_ne_zero rank zero)
    exact ⟨parts, text, wellFormed, pointed, length, fun negative =>
      (Decimal.toBinary64_congr negative value).trans (Decimal.shortest_toBinary64 rank zero negative)⟩

end NumberLayout
end AgentConfig
