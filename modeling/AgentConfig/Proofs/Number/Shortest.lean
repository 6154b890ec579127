import AgentConfig.Proofs.Number.Layout

namespace AgentConfig.Decimal

open Binary64 (magnitude halfway lowest RoundsTo)
open NumberLayout (strippedDigits)

section digits

variable {d other : Decimal} {c c' n : Nat} {e e' : Int}

theorem toRat_mk_le : (Decimal.mk c e).toRat ≤ (Decimal.mk c' e).toRat ↔ c ≤ c' := by
  have positive : (0 : ℚ) < 10 ^ e := by positivity
  rw [toRat, toRat, mul_le_mul_iff_left₀ positive, Nat.cast_le]

theorem toRat_succ (c : Nat) (e : Int) : (Decimal.mk (c + 1) e).toRat = (Decimal.mk c e).toRat + 10 ^ e := by
  rw [toRat, toRat, Nat.cast_add_one, add_one_mul]

theorem toRat_mk_inj : (Decimal.mk c e).toRat = (Decimal.mk c' e).toRat ↔ c = c' := by
  rw [le_antisymm_iff, toRat_mk_le, toRat_mk_le, ← le_antisymm_iff]

theorem toRat_mk_lt : (Decimal.mk c e).toRat < (Decimal.mk c' e).toRat ↔ c < c' := by
  rw [← not_le, toRat_mk_le, not_le]

/-- A decimal on a finer grid. -/
theorem toRat_align (c : Nat) (le : e ≤ e') :
    (Decimal.mk c e').toRat = (Decimal.mk (c * 10 ^ (e' - e).toNat) e).toRat := by
  have scaled := toRat_scale c (e' - e).toNat e'
  rwa [show e' - (e' - e).toNat = e by omega, eq_comm] at scaled

theorem toRat_mk_lt_zpow (bound : c < 10 ^ n) (e : Int) : (Decimal.mk c e).toRat < 10 ^ (n + e) := by
  rw [toRat, zpow_add₀ (by norm_num), zpow_natCast]
  have less : (c : ℚ) < 10 ^ n := mod_cast bound
  exact mul_lt_mul_of_pos_right less (by positivity)

theorem zpow_eq_toRat (n : Nat) (e : Int) : (10 : ℚ) ^ (n + e) = (Decimal.mk (10 ^ n) e).toRat := by
  rw [toRat, zpow_add₀ (by norm_num), zpow_natCast]
  push_cast
  rfl

/-- A coefficient that does not end in a zero is the least for its number. -/
theorem le_of_sharp (sharp : ¬ 10 ∣ c) (same : (Decimal.mk c e).toRat = (Decimal.mk c' e').toRat) :
    c ≤ c' ∧ e' ≤ e := by
  rcases le_or_gt e' e with le | less
  · rw [toRat_align c le, toRat_mk_inj] at same
    exact ⟨same ▸ Nat.le_mul_of_pos_right c (by positivity), le⟩
  · rw [toRat_align c' less.le, toRat_mk_inj] at same
    have zeros : (e' - e).toNat ≠ 0 := by omega
    exact absurd (same ▸ (dvd_pow_self 10 zeros).mul_left c') sharp

theorem eq_of_sharp (sharp : ¬ 10 ∣ c) (sharp' : ¬ 10 ∣ c')
    (same : (Decimal.mk c e).toRat = (Decimal.mk c' e').toRat) : c = c' ∧ e = e' := by
  obtain ⟨coefficient, exponent⟩ := le_of_sharp sharp same
  obtain ⟨coefficient', exponent'⟩ := le_of_sharp sharp' same.symm
  exact ⟨coefficient.antisymm coefficient', exponent'.antisymm exponent⟩

theorem pos_of_sharp (sharp : ¬ 10 ∣ c) : 0 < c :=
  Nat.pos_of_ne_zero fun zero => sharp (zero ▸ dvd_zero 10)

theorem strippedDigits_mul_pow (sharp : ¬ 10 ∣ c) (k : Nat) : strippedDigits (c * 10 ^ k) = decimalDigits c := by
  have positive := pos_of_sharp sharp
  obtain ⟨front, digits⟩ := exists_decimalDigits_last c
  have last : ∀ r < 10, r ≠ 0 → (Nat.digitChar r == '0') = false := by decide
  have ends : (Nat.digitChar (c % 10) == '0') = false :=
    last _ (Nat.mod_lt c (by decide)) fun zero => sharp (Nat.dvd_of_mod_eq_zero zero)
  have zeros : (List.replicate k '0').all (· == '0') := by simp
  have stop : (decimalDigits c).reverse.head?.all fun ch => !(ch == '0') := by simp [digits, ends]
  obtain ⟨-, dropped⟩ := takeWhile_append_of_all zeros stop
  rw [strippedDigits, decimalDigits_mul_pow positive, List.reverse_append, List.reverse_replicate, dropped,
    List.reverse_reverse]

/-- The digits that a number is written with, and where its point stands, come from the coefficient without the zeros
at its end. -/
theorem exists_sharp (nonzero : d.coefficient ≠ 0) : ∃ c e, ¬ 10 ∣ c ∧ d.toRat = (Decimal.mk c e).toRat ∧
    strippedDigits d.coefficient = decimalDigits c ∧
    (decimalDigits d.coefficient).length + d.exponent = (decimalDigits c).length + e := by
  obtain ⟨k, c, sharp, split⟩ := Nat.exists_eq_pow_mul_and_not_dvd nonzero 10 (by decide)
  rw [Nat.mul_comm] at split
  have positive := pos_of_sharp sharp
  refine ⟨c, d.exponent + k, sharp, ?_, split ▸ strippedDigits_mul_pow sharp k, ?_⟩
  · rw [← toRat_scale c k (d.exponent + k), Int.add_sub_cancel, ← split]
  · rw [split, decimalDigits_mul_pow positive, List.length_append, List.length_replicate]
    omega

/-- How many digits a decimal has, without zeros at its end. -/
def digitCount (d : Decimal) : Nat :=
  (strippedDigits d.coefficient).length

theorem digitCount_le_iff : d.digitCount ≤ n ↔ ∃ c e, c < 10 ^ n ∧ d.toRat = (Decimal.mk c e).toRat := by
  by_cases zero : d.coefficient = 0
  · refine iff_of_true ?_ ⟨0, 0, by positivity, (toRat_eq_zero.mpr zero).trans (toRat_eq_zero.mpr rfl).symm⟩
    rw [digitCount, zero]
    exact Nat.zero_le n
  · obtain ⟨c, e, sharp, same, digits, -⟩ := exists_sharp zero
    have positive := pos_of_sharp sharp
    rw [digitCount, digits, length_decimalDigits_le_iff positive, same]
    constructor
    · exact fun short => ⟨c, e, short, rfl⟩
    · rintro ⟨c', e', bound, equal⟩
      exact (le_of_sharp sharp equal).1.trans_lt bound

theorem digitCount_eq_zero : d.digitCount = 0 ↔ d.toRat = 0 := by
  rw [← Nat.le_zero, digitCount_le_iff]
  constructor
  · rintro ⟨c, e, bound, same⟩
    exact same.trans (toRat_eq_zero.mpr (Nat.lt_one_iff.mp bound))
  · exact fun zero => ⟨0, 0, by decide, zero.trans (toRat_eq_zero.mpr rfl).symm⟩

theorem digitCount_congr (same : d.toRat = other.toRat) : d.digitCount = other.digitCount :=
  eq_of_forall_ge_iff fun n => by rw [digitCount_le_iff, digitCount_le_iff, same]

end digits

variable {rank : Nat}

/-- The position of the point puts a magnitude between two powers of ten. -/
theorem pointPosition_spec (positive : 0 < rank) :
    (10 : ℚ) ^ (pointPosition rank - 1) ≤ magnitude rank ∧ magnitude rank < 10 ^ pointPosition rank := by
  -- The shift stays a variable, so that no step computes its power of ten.
  obtain ⟨shift, is, enough⟩ : ∃ shift, shift = 400 ∧ Binary64.unitsInOne ≤ 10 ^ shift :=
    ⟨400, rfl, by decide +kernel⟩
  obtain ⟨whole, wholeIs⟩ : ∃ n, n = Binary64.units rank * 10 ^ shift / Binary64.unitsInOne := ⟨_, rfl⟩
  have some : 0 < whole := by
    rw [wholeIs]
    exact Nat.div_pos (enough.trans (Nat.le_mul_of_pos_left _ (Binary64.units_pos positive))) Binary64.unitsInOne_pos
  have position : pointPosition rank = (decimalDigits whole).length - shift := by
    rw [wholeIs, is]
    rfl
  have floor : ⌊magnitude rank * 10 ^ shift⌋₊ = whole := by
    rw [wholeIs, ← Rat.natFloor_natCast_div_natCast, Binary64.magnitude, div_mul_eq_mul_div]
    push_cast
    rfl
  have below : (whole : ℚ) ≤ magnitude rank * 10 ^ shift := by
    rw [← floor]
    exact Nat.floor_le (mul_nonneg (Binary64.magnitude_nonneg rank) (by positivity))
  have above : magnitude rank * 10 ^ shift < whole + 1 := by
    rw [← floor]
    exact Nat.lt_floor_add_one _
  have scaled : ∀ {z : Int} {k : Nat}, z + shift = k → (10 : ℚ) ^ k = 10 ^ z * 10 ^ shift := fun same => by
    rw [← zpow_natCast, ← zpow_natCast, ← zpow_add₀ (by norm_num), same]
  have digits := decimalDigits_length_pos whole
  have low : 10 ^ ((decimalDigits whole).length - 1) ≤ whole := by
    rw [← Nat.not_lt, ← length_decimalDigits_le_iff some]
    omega
  have high : whole + 1 ≤ 10 ^ (decimalDigits whole).length := lt_pow_length_decimalDigits whole
  have ten : (0 : ℚ) < 10 ^ shift := by positivity
  constructor
  · refine le_of_mul_le_mul_right ?_ ten
    rw [← scaled (k := (decimalDigits whole).length - 1) (by omega)]
    exact le_trans (mod_cast low) below
  · refine lt_of_mul_lt_mul_right ?_ ten.le
    rw [← scaled (k := (decimalDigits whole).length) (by omega)]
    exact above.trans_le (mod_cast high)

/-- A magnitude on a grid of multiples of a power of ten. -/
theorem onGrid_spec (rank : Nat) (e : Int) :
    0 < (onGrid rank e).2 ∧ ((onGrid rank e).1 : ℚ) / (onGrid rank e).2 * 10 ^ e = magnitude rank := by
  have one := Binary64.unitsInOne_pos
  simp only [onGrid, Binary64.magnitude, Nat.pow_eq]
  generalize Binary64.unitsInOne = unit at one ⊢
  have nonzero : (unit : ℚ) ≠ 0 := mod_cast one.ne'
  split_ifs with whole
  · refine ⟨Nat.mul_pos one (by positivity), ?_⟩
    obtain ⟨n, rfl⟩ := Int.eq_ofNat_of_zero_le whole
    simp only [Int.toNat_natCast, Nat.cast_mul, Nat.cast_pow, Nat.cast_ofNat, zpow_natCast]
    field_simp
  · refine ⟨one, ?_⟩
    obtain ⟨n, rfl⟩ : ∃ n : Nat, e = -n := ⟨(-e).toNat, by omega⟩
    simp only [neg_neg, Int.toNat_natCast, Nat.cast_mul, Nat.cast_pow, Nat.cast_ofNat, zpow_neg, zpow_natCast]
    field_simp

/-- The first of two decimals is even and the other odd where they are written with equally many places. -/
def EvenBeside (d other : Decimal) : Prop :=
  ∃ c k e, d.toRat = (Decimal.mk (2 * c) e).toRat ∧ other.toRat = (Decimal.mk (2 * k + 1) e).toRat

/-- The first of two decimals is nearer to a number than the other, or as near and even. -/
def Nearer (q : ℚ) (d other : Decimal) : Prop :=
  |d.toRat - q| < |other.toRat - q| ∨ |d.toRat - q| = |other.toRat - q| ∧ d.EvenBeside other

theorem abs_sub_lt_abs_sub {p q r : ℚ} (apart : r < p ∧ r + p < 2 * q ∨ p < r ∧ 2 * q < r + p) : |p - q| < |r - q| := by
  rw [← sq_lt_sq]
  rcases apart with ⟨order, sum⟩ | ⟨order, sum⟩ <;> nlinarith

/-- Of two points on a grid the one is nearer on whose side of their middle the number lies. -/
theorem nearer_of_sum {c k : Nat} {e : Int} {q : ℚ}
    (side : c < k ∧ (Decimal.mk c e).toRat + (Decimal.mk k e).toRat < 2 * q ∨
      k < c ∧ 2 * q < (Decimal.mk c e).toRat + (Decimal.mk k e).toRat ∨
      2 * q = (Decimal.mk c e).toRat + (Decimal.mk k e).toRat ∧ k % 2 = 0 ∧ c % 2 = 1) :
    (Decimal.mk k e).Nearer q (Decimal.mk c e) := by
  rcases side with ⟨order, sum⟩ | ⟨order, sum⟩ | ⟨sum, even, odd⟩
  · exact .inl (abs_sub_lt_abs_sub (.inl ⟨toRat_mk_lt.mpr order, sum⟩))
  · exact .inl (abs_sub_lt_abs_sub (.inr ⟨toRat_mk_lt.mpr order, sum⟩))
  · refine .inr ⟨?_, k / 2, c / 2, e, ?_, ?_⟩
    · rw [← abs_neg]
      exact congrArg _ (by linarith)
    · rw [show 2 * (k / 2) = k by omega]
    · rw [show 2 * (c / 2) + 1 = c by omega]

theorem readsAs_iff {rank : Fin Binary64.ranks} {d : Decimal} : readsAs rank d = true ↔ RoundsTo d.toRat rank := by
  rw [readsAs, beq_iff_eq, toBinary64_eq_finite]

variable {e : Int} {num den : Nat}

/-- A magnitude lies between two points of the grid. -/
theorem between_of_onGrid (grid : onGrid rank e = (num, den)) :
    (Decimal.mk (num / den) e).toRat ≤ magnitude rank ∧ magnitude rank < (Decimal.mk (num / den + 1) e).toRat := by
  have power : (0 : ℚ) < 10 ^ e := by positivity
  obtain ⟨-, scaled⟩ := onGrid_spec rank e
  have floor := Rat.natFloor_natCast_div_natCast num den
  rw [grid] at scaled
  rw [toRat, toRat, ← scaled]
  constructor
  · refine mul_le_mul_of_nonneg_right ?_ power.le
    rw [← floor]
    exact Nat.floor_le (by positivity)
  · refine mul_lt_mul_of_pos_right ?_ power
    rw [← floor, Nat.cast_add, Nat.cast_one]
    exact Nat.lt_floor_add_one _

theorem middle_of_onGrid (grid : onGrid rank e = (num, den)) {c : Nat} :
    (2 * num < (2 * c + 1) * den ↔ 2 * magnitude rank < (Decimal.mk c e).toRat + (Decimal.mk (c + 1) e).toRat) ∧
    (2 * num = (2 * c + 1) * den ↔ 2 * magnitude rank = (Decimal.mk c e).toRat + (Decimal.mk (c + 1) e).toRat) := by
  have power : (0 : ℚ) < 10 ^ e := by positivity
  obtain ⟨positive, scaled⟩ := onGrid_spec rank e
  rw [grid] at scaled positive
  have denominator : (0 : ℚ) < den := mod_cast positive
  have left : 2 * magnitude rank = (2 * num : Nat) / den * 10 ^ e := by
    rw [← scaled]
    push_cast
    ring
  have right : (Decimal.mk c e).toRat + (Decimal.mk (c + 1) e).toRat = ((2 * c + 1) * den : Nat) / den * 10 ^ e := by
    rw [toRat, toRat]
    push_cast
    field_simp
    ring
  rw [left, right, mul_lt_mul_iff_left₀ power, div_lt_div_iff_of_pos_right denominator, Nat.cast_lt,
    mul_left_inj' power.ne', div_left_inj' denominator.ne', Nat.cast_inj]
  exact ⟨Iff.rfl, Iff.rfl⟩

section nearest

variable {rank : Fin Binary64.ranks} {d : Decimal}

/-- What is found on a grid is one of the two points around the magnitude, or nothing if neither reads as it. -/
theorem nearestReading?_cases (rank : Fin Binary64.ranks) (e : Int) : ∃ c,
    (Decimal.mk c e).toRat ≤ magnitude rank ∧ magnitude rank < (Decimal.mk (c + 1) e).toRat ∧
    (nearestReading? rank e = none ∧ ¬ RoundsTo (Decimal.mk c e).toRat rank ∧
        ¬ RoundsTo (Decimal.mk (c + 1) e).toRat rank ∨
      nearestReading? rank e = some ⟨c, e⟩ ∧ RoundsTo (Decimal.mk c e).toRat rank ∧
        (RoundsTo (Decimal.mk (c + 1) e).toRat rank →
          2 * magnitude rank < (Decimal.mk c e).toRat + (Decimal.mk (c + 1) e).toRat ∨
          2 * magnitude rank = (Decimal.mk c e).toRat + (Decimal.mk (c + 1) e).toRat ∧ c % 2 = 0) ∨
      nearestReading? rank e = some ⟨c + 1, e⟩ ∧ RoundsTo (Decimal.mk (c + 1) e).toRat rank ∧
        (RoundsTo (Decimal.mk c e).toRat rank →
          (Decimal.mk c e).toRat + (Decimal.mk (c + 1) e).toRat < 2 * magnitude rank ∨
          2 * magnitude rank = (Decimal.mk c e).toRat + (Decimal.mk (c + 1) e).toRat ∧ c % 2 = 1)) := by
  obtain ⟨num, den, grid⟩ : ∃ num den, onGrid rank e = (num, den) := ⟨_, _, rfl⟩
  obtain ⟨low, high⟩ := between_of_onGrid grid
  obtain ⟨nearer, tie⟩ := middle_of_onGrid grid (c := num / den)
  refine ⟨num / den, low, high, ?_⟩
  unfold nearestReading?
  rw [grid, ← readsAs_iff, ← readsAs_iff]
  dsimp only
  cases readsAs rank ⟨num / den, e⟩ <;> cases readsAs rank ⟨num / den + 1, e⟩
  case false.false => exact .inl ⟨rfl, by simp, by simp⟩
  case true.false => exact .inr (.inl ⟨rfl, rfl, fun reads => absurd reads (by simp)⟩)
  case false.true => exact .inr (.inr ⟨rfl, rfl, fun reads => absurd reads (by simp)⟩)
  case true.true =>
    dsimp only
    split_ifs with down
    · exact .inr (.inl ⟨rfl, rfl, fun _ => down.imp nearer.mp (And.imp_left tie.mp)⟩)
    · obtain ⟨notNearer, odd⟩ := not_or.mp down
      refine .inr (.inr ⟨rfl, rfl, fun _ => ?_⟩)
      rcases lt_or_eq_of_le (not_lt.mp (mt nearer.mpr notNearer)) with less | same
      · exact .inl less
      · have uneven : num / den % 2 ≠ 0 := fun even => odd ⟨tie.mpr same.symm, even⟩
        exact .inr ⟨same.symm, by omega⟩

/-- If no decimal of the grid is found, none reads as the magnitude. -/
theorem not_roundsTo_of_nearestReading? (none : nearestReading? rank e = none) (c : Nat) :
    ¬ RoundsTo (Decimal.mk c e).toRat rank := by
  obtain ⟨f, low, high, ⟨-, left, right⟩ | ⟨found, -⟩ | ⟨found, -⟩⟩ := nearestReading?_cases rank e
  · intro reads
    rcases Nat.lt_or_ge f c with above | below
    · exact right ((RoundsTo.magnitude rank).between reads high.le (toRat_mk_le.mpr above))
    · exact left (reads.between (RoundsTo.magnitude rank) (toRat_mk_le.mpr below) low)
  · simp [none] at found
  · simp [none] at found

/-- The decimal that is found on a grid reads as the magnitude, and is nearer to it than all others that do. -/
theorem nearestReading?_eq_some (found : nearestReading? rank e = some d) :
    d.exponent = e ∧ RoundsTo d.toRat rank ∧ d.toRat ≤ magnitude rank + 10 ^ e ∧
      ∀ c ≠ d.coefficient, RoundsTo (Decimal.mk c e).toRat rank → d.Nearer (magnitude rank) (Decimal.mk c e) := by
  obtain ⟨f, low, high, ⟨none, -⟩ | ⟨left, reads, nearer⟩ | ⟨right, reads, nearer⟩⟩ := nearestReading?_cases rank e
  · simp [none] at found
  · -- The lower point is found. At a tie its coefficient is even, and that of the upper one is not.
    obtain rfl := Option.some.inj (left.symm.trans found)
    refine ⟨rfl, reads, low.trans (le_add_of_nonneg_right (by positivity)), fun c other reads' => nearer_of_sum ?_⟩
    rcases Nat.lt_or_gt_of_ne other with less | more
    · have before := toRat_mk_lt (e := e).mpr less
      exact .inl ⟨less, by linarith⟩
    · have beyond := toRat_mk_le (e := e).mpr more
      rcases nearer ((RoundsTo.magnitude rank).between reads' high.le beyond) with side | ⟨tie, even⟩
      · exact .inr (.inl ⟨more, by linarith⟩)
      · rcases Nat.eq_or_lt_of_le more with rfl | farther
        · have odd : (f + 1) % 2 = 1 := by omega
          exact .inr (.inr ⟨by linarith, even, odd⟩)
        · have beyond := toRat_mk_lt (e := e).mpr farther
          exact .inr (.inl ⟨more, by linarith⟩)
  · -- The upper point is found, and the two sides change places.
    obtain rfl := Option.some.inj (right.symm.trans found)
    have step := toRat_succ f e
    refine ⟨rfl, reads, step.trans_le (by linarith), fun c other reads' => nearer_of_sum ?_⟩
    rcases Nat.lt_or_gt_of_ne other with less | more
    · have before := toRat_mk_le (e := e).mpr (Nat.lt_succ_iff.mp less)
      rcases nearer (reads'.between (RoundsTo.magnitude rank) before low) with side | ⟨tie, odd⟩
      · exact .inl ⟨less, by linarith⟩
      · rcases Nat.eq_or_lt_of_le (Nat.lt_succ_iff.mp less) with rfl | farther
        · exact .inr (.inr ⟨tie, by omega, odd⟩)
        · have before := toRat_mk_lt (e := e).mpr farther
          exact .inl ⟨less, by linarith⟩
    · have beyond := toRat_mk_lt (e := e).mpr more
      exact .inr (.inl ⟨more, by linarith⟩)

/-- Seventeen digits are enough to read as any magnitude. -/
theorem nearestReading?_seventeen (positive : 0 < rank.val) :
    nearestReading? rank (pointPosition rank - 17) ≠ none := by
  intro none
  obtain ⟨c, low, high, -⟩ := nearestReading?_cases rank (pointPosition rank - 17)
  obtain ⟨large, -⟩ := pointPosition_spec positive
  have wide := Binary64.magnitude_lt_width positive
  have inside := Binary64.magnitude_lt_halfway rank
  have outside := Binary64.lowest_lt_magnitude positive
  -- The two points around the magnitude do not read as it, so they are farther apart than what is rounded to it.
  have left : (Decimal.mk c (pointPosition rank - 17)).toRat ≤ lowest rank := by
    by_contra above
    exact not_roundsTo_of_nearestReading? none c (.of_lt (not_le.mp above) (low.trans_lt inside))
  have right : halfway rank ≤ (Decimal.mk (c + 1) (pointPosition rank - 17)).toRat := by
    by_contra below
    exact not_roundsTo_of_nearestReading? none (c + 1) (.of_lt (outside.trans high) (not_le.mp below))
  have power : (10 : ℚ) ^ (pointPosition rank - 1) = 10 ^ 16 * 10 ^ (pointPosition rank - 17) := by
    rw [← zpow_natCast, ← zpow_add₀ (by norm_num)]
    congr 1
    omega
  have grid : (0 : ℚ) < 10 ^ (pointPosition rank - 17) := by positivity
  rw [power] at large
  rw [toRat] at left right
  push_cast at right
  linarith

/-- A decimal that is found on the grid of so many digits has no more digits. -/
theorem digitCount_le_of_nearestReading? (positive : 0 < rank.val) {m : Nat} (one : 1 ≤ m)
    (found : nearestReading? rank (pointPosition rank - m) = some d) : d.digitCount ≤ m := by
  obtain ⟨exponent, -, close, -⟩ := nearestReading?_eq_some found
  obtain ⟨-, small⟩ := pointPosition_spec positive
  obtain ⟨c, e⟩ := d
  obtain rfl : e = pointPosition rank - m := exponent
  have top : (10 : ℚ) ^ pointPosition rank = (Decimal.mk (10 ^ m) (pointPosition rank - m)).toRat := by
    rw [← zpow_eq_toRat]
    congr 1
    omega
  have bound : c < 10 ^ m + 1 := by
    rw [← toRat_mk_lt (e := pointPosition rank - m)]
    have step := toRat_succ (10 ^ m) (pointPosition rank - m)
    linarith
  rw [digitCount_le_iff]
  rcases Nat.lt_or_eq_of_le (Nat.lt_succ_iff.mp bound) with less | rfl
  · exact ⟨c, _, less, rfl⟩
  · refine ⟨1, pointPosition rank, Nat.one_lt_pow (by omega) (by decide), ?_⟩
    rw [← top, toRat, Nat.cast_one, one_mul]

theorem findSome?_range {α : Type} {f : Nat → Option α} {a : α} {n : Nat}
    (found : (List.range n).findSome? f = some a) : ∃ k < n, f k = some a ∧ ∀ j < k, f j = none := by
  induction n with
  | zero => contradiction
  | succ n ih =>
    rw [List.range_succ, List.findSome?_append, Option.or_eq_some_iff] at found
    rcases found with earlier | ⟨none, last⟩
    · obtain ⟨k, less, here, before⟩ := ih earlier
      exact ⟨k, less.trans (Nat.lt_succ_self n), here, before⟩
    · rw [List.findSome?_eq_none_iff] at none
      exact ⟨n, Nat.lt_succ_self n, by simpa using last, fun j less => none j (List.mem_range.mpr less)⟩

/-- The shortest decimal is found on the first grid on which one is found, with at most seventeen digits. -/
theorem shortest_spec (positive : 0 < rank.val) : ∃ m : Nat, 1 ≤ m ∧ m ≤ 17 ∧
    nearestReading? rank (pointPosition rank - m) = some (shortest rank) ∧
    ∀ k : Nat, 1 ≤ k → k < m → nearestReading? rank (pointPosition rank - k) = none := by
  unfold shortest
  dsimp only
  cases found : (List.range 17).findSome? fun (n : Nat) => nearestReading? rank (pointPosition rank - (n + 1)) with
  | none =>
    rw [List.findSome?_eq_none_iff] at found
    exact absurd (found 16 (by decide)) (nearestReading?_seventeen positive)
  | some d =>
    obtain ⟨n, bound, here, before⟩ := findSome?_range found
    refine ⟨n + 1, by omega, by omega, mod_cast here, fun k one less => ?_⟩
    obtain ⟨k, rfl⟩ : ∃ j, k = j + 1 := ⟨k - 1, by omega⟩
    exact_mod_cast before k (by omega)

end nearest

/-- The first of two decimals has fewer digits than the other, or as many and is nearer to a number. -/
def Precedes (q : ℚ) (d other : Decimal) : Prop :=
  d.digitCount < other.digitCount ∨ d.digitCount = other.digitCount ∧ d.Nearer q other

/-- A decimal that is read as a magnitude and goes before all others that are. -/
structure IsShortestFor (d : Decimal) (rank : Fin Binary64.ranks) : Prop where
  reads : d.toBinary64 false = .finite false rank
  first : ∀ other : Decimal, other.toBinary64 false = .finite false rank → other.toRat ≠ d.toRat →
    d.Precedes (magnitude rank) other

/-- A decimal that goes before all others that are read as the same number. -/
def IsShortest (d : Decimal) : Prop :=
  ∃ rank, d.IsShortestFor rank

section shortest

variable {rank : Fin Binary64.ranks} {d other : Decimal} {q : ℚ}

theorem isShortest_iff (reads : d.toBinary64 false = .finite false rank) : d.IsShortest ↔ d.IsShortestFor rank := by
  refine ⟨fun ⟨other, isShortest⟩ => ?_, fun isShortest => ⟨rank, isShortest⟩⟩
  obtain ⟨-, rfl⟩ := Binary64.finite.inj (reads.symm.trans isShortest.reads)
  exact isShortest

theorem EvenBeside.asymm (even : d.EvenBeside other) : ¬ other.EvenBeside d := by
  rintro ⟨c', k', e', same', odd'⟩
  obtain ⟨c, k, e, same, odd⟩ := even
  have first : (Decimal.mk (2 * c) e).toRat = (Decimal.mk (2 * k' + 1) e').toRat := same.symm.trans odd'
  have second : (Decimal.mk (2 * c') e').toRat = (Decimal.mk (2 * k + 1) e).toRat := same'.symm.trans odd
  rcases le_total e e' with le | le
  · rw [toRat_align (2 * c') le, toRat_mk_inj, Nat.mul_assoc] at second
    omega
  · rw [toRat_align (2 * c) le, toRat_mk_inj, Nat.mul_assoc] at first
    omega

theorem Precedes.asymm (precedes : Precedes q d other) : ¬ Precedes q other d := by
  rintro (fewer' | ⟨count', near' | ⟨far', even'⟩⟩) <;> rcases precedes with fewer | ⟨count, near | ⟨far, even⟩⟩
  · omega
  · omega
  · omega
  · omega
  · exact near.asymm near'
  · exact near'.ne far.symm
  · omega
  · exact near.ne far'.symm
  · exact even.asymm even'

theorem IsShortestFor.congr (shortest : d.IsShortestFor rank) (same : d.toRat = other.toRat) :
    other.IsShortestFor rank where
  reads := (toBinary64_congr false same.symm).trans shortest.reads
  first := by
    intro third reads apart
    have precedes := shortest.first third reads (same ▸ apart)
    rwa [Precedes, Nearer, EvenBeside, digitCount_congr same, same] at precedes

/-- A decimal of few digits that is read as a magnitude stands on the grid of so many digits, or below a point of it
that is read as the magnitude too. -/
theorem exists_onGrid (positive : 0 < rank.val) {n : Nat} (one : 1 ≤ n) (few : d.digitCount ≤ n)
    (reads : RoundsTo d.toRat rank) : ∃ c, RoundsTo (Decimal.mk c (pointPosition rank - n)).toRat rank ∧
      (d.toRat = (Decimal.mk c (pointPosition rank - n)).toRat ∨
        d.toRat < (Decimal.mk c (pointPosition rank - n)).toRat ∧
          (Decimal.mk c (pointPosition rank - n)).toRat ≤ magnitude rank) := by
  obtain ⟨large, -⟩ := pointPosition_spec positive
  obtain ⟨c, e, bound, same⟩ := digitCount_le_iff.mp few
  rcases le_or_gt (pointPosition rank - n) e with coarse | fine
  · rw [toRat_align c coarse] at same
    exact ⟨_, same ▸ reads, .inl same⟩
  · have least : (Decimal.mk (10 ^ (n - 1)) (pointPosition rank - n)).toRat = 10 ^ (pointPosition rank - 1) := by
      rw [← zpow_eq_toRat]
      congr 1
      omega
    have below : d.toRat < 10 ^ (pointPosition rank - 1) :=
      calc d.toRat < 10 ^ (n + e) := same ▸ toRat_mk_lt_zpow bound e
        _ ≤ 10 ^ (pointPosition rank - 1) := zpow_le_zpow_right₀ (by norm_num) (by omega)
    refine ⟨10 ^ (n - 1), ?_, .inr ⟨below.trans_eq least.symm, least.trans_le large⟩⟩
    rw [least]
    exact reads.between (.magnitude rank) below.le large

theorem toRat_ne_zero (positive : 0 < rank.val) (reads : RoundsTo d.toRat rank) : d.toRat ≠ 0 := by
  intro zero
  rw [← Binary64.magnitude_zero] at zero
  exact positive.ne' (reads.unique (zero ▸ .magnitude 0))

/-- Where no coarser grid has a decimal that reads as the magnitude, fewer digits are not enough. -/
theorem le_digitCount {m : Nat} (positive : 0 < rank.val)
    (coarser : ∀ k : Nat, 1 ≤ k → k < m → nearestReading? rank (pointPosition rank - k) = none)
    (reads : RoundsTo d.toRat rank) : m ≤ d.digitCount := by
  by_contra fewer
  have one := Nat.one_le_iff_ne_zero.mpr (mt digitCount_eq_zero.mp (toRat_ne_zero positive reads))
  obtain ⟨c, found, -⟩ := exists_onGrid positive one le_rfl reads
  exact not_roundsTo_of_nearestReading? (coarser _ one (not_le.mp fewer)) c found

/-- What is found on the grid of so many digits is nearer than all other decimals with as many digits. -/
theorem nearer_of_nearestReading? {m : Nat} (positive : 0 < rank.val) (one : 1 ≤ m)
    (found : nearestReading? rank (pointPosition rank - m) = some d) (few : other.digitCount ≤ m)
    (reads : RoundsTo other.toRat rank) (apart : other.toRat ≠ d.toRat) : d.Nearer (magnitude rank) other := by
  obtain ⟨exponent, -, -, nearer⟩ := nearestReading?_eq_some found
  obtain ⟨c, e⟩ := d
  obtain rfl : e = pointPosition rank - m := exponent
  obtain ⟨c', readsGrid, same | ⟨below, beneath⟩⟩ := exists_onGrid positive one few reads
  · have different : c' ≠ c := by
      rintro rfl
      exact apart same
    have near := nearer c' different readsGrid
    rwa [Nearer, EvenBeside, ← same] at near
  · -- The point of the grid lies between the other decimal and the magnitude, and the one that is found is as near.
    have farther : |(Decimal.mk c' (pointPosition rank - m)).toRat - magnitude rank| < |other.toRat - magnitude rank| :=
      abs_sub_lt_abs_sub (.inl ⟨below, by linarith⟩)
    have close : |(Decimal.mk c (pointPosition rank - m)).toRat - magnitude rank| ≤
        |(Decimal.mk c' (pointPosition rank - m)).toRat - magnitude rank| := by
      rcases eq_or_ne c' c with rfl | different
      · exact le_rfl
      · rcases nearer c' different readsGrid with near | ⟨far, -⟩
        · exact near.le
        · exact far.le
    exact .inl (close.trans_lt farther)

theorem shortest_isShortestFor (positive : 0 < rank.val) : (shortest rank).IsShortestFor rank := by
  obtain ⟨m, one, -, found, coarser⟩ := shortest_spec positive
  generalize shortest rank = d at found ⊢
  obtain ⟨-, reads, -⟩ := nearestReading?_eq_some found
  have most := digitCount_le_of_nearestReading? positive one found
  refine ⟨toBinary64_eq_finite.mpr reads, fun other readsToo apart => ?_⟩
  rw [toBinary64_eq_finite] at readsToo
  have least := le_digitCount positive coarser readsToo
  rcases Nat.lt_or_eq_of_le (most.trans least) with fewer | count
  · exact .inl fewer
  · exact .inr ⟨count, nearer_of_nearestReading? positive one found (by omega) readsToo apart⟩

/-- The shortest decimal is the only one that goes before all others. -/
theorem isShortestFor_iff (positive : 0 < rank.val) : d.IsShortestFor rank ↔ d.toRat = (shortest rank).toRat := by
  have shortest := shortest_isShortestFor positive
  constructor
  · intro isShortest
    by_contra apart
    have before := isShortest.first _ shortest.reads (Ne.symm apart)
    exact before.asymm (shortest.first d isShortest.reads apart)
  · exact fun same => shortest.congr same.symm

/-- Of the decimals that are read as zero only zero itself has no digits. -/
theorem isShortestFor_zero (zero : rank.val = 0) : d.IsShortestFor rank ↔ d.toRat = 0 := by
  have least : ∀ {d : Decimal}, d.toRat = 0 → d.toBinary64 false = .finite false rank := by
    intro d none
    rw [toBinary64_eq_finite, none, zero, ← Binary64.magnitude_zero]
    exact .magnitude 0
  constructor
  · intro isShortest
    by_contra apart
    have none : (Decimal.mk 0 0).toRat = 0 := toRat_eq_zero.mpr rfl
    have digits : (Decimal.mk 0 0).digitCount = 0 := digitCount_eq_zero.mpr none
    have some := mt digitCount_eq_zero.mp apart
    rcases isShortest.first _ (least none) (none ▸ Ne.symm apart) with fewer | ⟨same, -⟩ <;> omega
  · intro none
    have digits := digitCount_eq_zero.mpr none
    refine ⟨least none, fun other _ apart => .inl ?_⟩
    have some := mt digitCount_eq_zero.mp (none ▸ apart)
    omega

/-- Seventeen digits are as many as the shortest decimal ever has. -/
theorem IsShortest.digitCount_le (isShortest : d.IsShortest) : d.digitCount ≤ 17 := by
  obtain ⟨rank, isShortest⟩ := isShortest
  rcases Nat.eq_zero_or_pos rank.val with zero | positive
  · rw [digitCount_eq_zero.mpr ((isShortestFor_zero zero).mp isShortest)]
    exact Nat.zero_le 17
  · obtain ⟨m, one, few, found, -⟩ := shortest_spec positive
    rw [digitCount_congr ((isShortestFor_iff positive).mp isShortest)]
    exact (digitCount_le_of_nearestReading? positive one found).trans few

/-- Different decimals of few digits are not close to each other. -/
theorem lt_mul_sub {n : Nat} (less : d.toRat < other.toRat) (few : d.digitCount ≤ n) (few' : other.digitCount ≤ n) :
    d.toRat < 10 ^ n * (other.toRat - d.toRat) := by
  obtain ⟨c, e, bound, same⟩ := digitCount_le_iff.mp few
  obtain ⟨c', e', bound', same'⟩ := digitCount_le_iff.mp few'
  have small := toRat_mk_lt_zpow bound e
  have small' := toRat_mk_lt_zpow bound' e'
  rw [zpow_add₀ (by norm_num), zpow_natCast] at small small'
  have apart : ∀ {a b : Nat} {z : Int}, (Decimal.mk a z).toRat < (Decimal.mk b z).toRat →
      (10 : ℚ) ^ n * 10 ^ z ≤ 10 ^ n * ((Decimal.mk b z).toRat - (Decimal.mk a z).toRat) := by
    intro a b z order
    have step := toRat_succ a z
    have next := toRat_mk_le (e := z).mpr (toRat_mk_lt.mp order)
    exact mul_le_mul_of_nonneg_left (by linarith) (by positivity)
  -- On the finer of the two grids the decimals are at least one step apart, and the one that stands on it with few
  -- digits is less than `10 ^ n` steps.
  rcases le_or_gt e e' with le | less'
  · rw [same, same', toRat_align c' le] at less ⊢
    exact small.trans_le (apart less)
  · rw [same, same', toRat_align c less'.le] at less ⊢
    exact less.trans (small'.trans_le (apart less))

/-- Decimals of at most fifteen digits that are read as the same normal magnitude are the same number. -/
theorem eq_of_digitCount_le (normal : Binary64.fractions ≤ rank) (reads : RoundsTo d.toRat rank)
    (reads' : RoundsTo other.toRat rank) (few : d.digitCount ≤ 15) (few' : other.digitCount ≤ 15) :
    d.toRat = other.toRat := by
  by_contra different
  wlog less : d.toRat < other.toRat generalizing d other
  · exact this reads' reads few' few (Ne.symm different) (lt_of_le_of_ne (not_lt.mp less) (Ne.symm different))
  have apart := lt_mul_sub less few few'
  have narrow := Binary64.width_le_magnitude normal
  have low := reads.low
  have high := reads'.high
  have above := Binary64.magnitude_lt_halfway rank
  have below := Binary64.lowest_lt_magnitude (Binary64.fractions_pos.trans_le normal)
  linarith

/-- A decimal of at most fifteen digits that is read as a normal magnitude is the shortest one. -/
theorem isShortestFor_of_digitCount_le (normal : Binary64.fractions ≤ rank) (reads : RoundsTo d.toRat rank)
    (few : d.digitCount ≤ 15) : d.IsShortestFor rank where
  reads := toBinary64_eq_finite.mpr reads
  first := by
    intro other readsToo apart
    refine .inl (few.trans_lt (not_le.mp fun few' => apart ?_))
    exact (eq_of_digitCount_le normal reads (toBinary64_eq_finite.mp readsToo) few few').symm

end shortest

end AgentConfig.Decimal
