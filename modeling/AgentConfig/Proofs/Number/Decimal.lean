import AgentConfig.Proofs.Number.Digits
import AgentConfig.Proofs.Number.Rounding

namespace AgentConfig.Decimal

/-- The magnitude as a quotient, whatever the sign of the exponent. -/
theorem toBinary64_eq (negative : Bool) {d : Decimal} (nonzero : d.coefficient ≠ 0) :
    d.toBinary64 negative =
      .ofRatio negative (d.coefficient * 10 ^ d.exponent.toNat) (10 ^ (-d.exponent).toNat) := by
  obtain ⟨c, e⟩ := d
  simp only at nonzero ⊢
  unfold toBinary64
  simp only [Nat.pow_eq]
  rw [if_neg nonzero]
  split_ifs with large small whole
  · have exponent : 401 ≤ e.toNat := by omega
    obtain ⟨n, bound, least⟩ : ∃ n, Binary64.units Binary64.ranks ≤ 10 ^ n * Binary64.unitsInOne ∧ n ≤ 401 :=
      ⟨401, by decide +kernel, le_rfl⟩
    refine (Binary64.ofRatio_infinite negative ?_).symm
    rw [show (-e).toNat = 0 by omega, pow_zero, Nat.mul_one]
    refine bound.trans (Nat.mul_le_mul_right _ ?_)
    calc 10 ^ n ≤ 10 ^ e.toNat := Nat.pow_le_pow_right (by decide) (least.trans exponent)
      _ ≤ c * 10 ^ e.toNat := Nat.le_mul_of_pos_left _ (by omega)
  · have exponent : 1100 + (decimalDigits c).length < (-e).toNat := by omega
    have digits := lt_pow_length_decimalDigits c
    have bound : 2 * Binary64.unitsInOne ≤ 10 ^ 1100 := by decide +kernel
    refine (Binary64.ofRatio_zero negative ?_).symm
    rw [show e.toNat = 0 by omega, pow_zero, Nat.mul_one]
    calc 2 * (c * Binary64.unitsInOne) = 2 * Binary64.unitsInOne * c := by ring
      _ ≤ 10 ^ 1100 * c := Nat.mul_le_mul_right c bound
      _ < 10 ^ 1100 * 10 ^ (decimalDigits c).length := Nat.mul_lt_mul_of_pos_left digits (by positivity)
      _ = 10 ^ (1100 + (decimalDigits c).length) := (pow_add ..).symm
      _ ≤ 10 ^ (-e).toNat := Nat.pow_le_pow_right (by decide) exponent.le
  · rw [show (-e).toNat = 0 by omega, pow_zero]
  · rw [show e.toNat = 0 by omega, pow_zero, Nat.mul_one]

/-- The number that a decimal denotes. -/
def toRat (d : Decimal) : ℚ :=
  d.coefficient * 10 ^ d.exponent

theorem toRat_eq_zero {d : Decimal} : d.toRat = 0 ↔ d.coefficient = 0 := by
  have positive : (10 : ℚ) ^ d.exponent ≠ 0 := by positivity
  rw [toRat, mul_eq_zero, or_iff_left positive, Nat.cast_eq_zero]

theorem toRat_eq_div (d : Decimal) :
    d.toRat = (d.coefficient * 10 ^ d.exponent.toNat : Nat) / (10 ^ (-d.exponent).toNat : Nat) := by
  have power : (10 : ℚ) ^ d.exponent = 10 ^ d.exponent.toNat / 10 ^ (-d.exponent).toNat := by
    rw [← zpow_natCast, ← zpow_natCast, ← zpow_sub₀ (by norm_num), Int.toNat_sub_toNat_neg]
  rw [toRat, power]
  push_cast
  rw [mul_div_assoc]

/-- Zeros at the end of the coefficient may be counted in the exponent. -/
theorem toRat_scale (c k : Nat) (e : Int) : (Decimal.mk (c * 10 ^ k) (e - k)).toRat = (Decimal.mk c e).toRat := by
  simp only [toRat]
  rw [zpow_sub₀ (by norm_num), zpow_natCast]
  push_cast
  field_simp

/-- Only the number counts that a decimal denotes. -/
theorem toBinary64_congr (negative : Bool) {d d' : Decimal} (same : d.toRat = d'.toRat) :
    d.toBinary64 negative = d'.toBinary64 negative := by
  by_cases zero : d.coefficient = 0
  · have zero' : d'.coefficient = 0 := toRat_eq_zero.mp (same ▸ toRat_eq_zero.mpr zero)
    rw [toBinary64, if_pos zero, toBinary64, if_pos zero']
  · have nonzero' : d'.coefficient ≠ 0 := fun zero' => zero (toRat_eq_zero.mp (same ▸ toRat_eq_zero.mpr zero'))
    rw [toRat_eq_div, toRat_eq_div, div_eq_div_iff (by positivity) (by positivity)] at same
    rw [toBinary64_eq negative zero, toBinary64_eq negative nonzero']
    exact Binary64.ofRatio_congr negative (by positivity) (by positivity) (mod_cast same)

/-- A decimal is read as the magnitude that its number is rounded to. -/
theorem toBinary64_eq_finite {d : Decimal} {rank : Fin Binary64.ranks} :
    d.toBinary64 false = .finite false rank ↔ Binary64.RoundsTo d.toRat rank := by
  by_cases zero : d.coefficient = 0
  · have least : Binary64.RoundsTo d.toRat 0 := by
      rw [toRat_eq_zero.mpr zero, ← Binary64.magnitude_zero]
      exact .magnitude 0
    rw [toBinary64, if_pos zero, Binary64.zero, Binary64.finite.injEq]
    constructor
    · rintro ⟨-, rfl⟩
      exact least
    · exact fun rounds => ⟨rfl, Fin.ext (least.unique rounds)⟩
  · rw [toBinary64_eq false zero, toRat_eq_div, ← Binary64.nearestRank_eq_iff (by positivity) rank.isLt,
      Binary64.ofRatio, Binary64.ofRank]
    split_ifs with within
    · rw [Binary64.finite.injEq, Fin.ext_iff]
      exact and_iff_right rfl
    · refine iff_of_false (by simp) fun same => within (same ▸ rank.isLt)

theorem toBinary64_signed {d : Decimal} {rank : Fin Binary64.ranks}
    (reads : d.toBinary64 false = .finite false rank) (negative : Bool) :
    d.toBinary64 negative = .finite negative rank := by
  have zero : Binary64.zero false = .finite false rank → Binary64.zero negative = .finite negative rank := by
    intro same
    injection same with _ same
    rw [Binary64.zero, same]
  have ratio : ∀ num den, Binary64.ofRatio false num den = .finite false rank →
      Binary64.ofRatio negative num den = .finite negative rank := by
    intro num den same
    unfold Binary64.ofRatio Binary64.ofRank at same ⊢
    split_ifs at same ⊢
    injection same with _ same
    rw [same]
  unfold toBinary64 at reads ⊢
  split_ifs at reads ⊢
  · exact zero reads
  · exact zero reads
  · exact ratio _ _ reads
  · exact ratio _ _ reads

theorem exact_toBinary64 (rank : Fin Binary64.ranks) (positive : rank.val ≠ 0) :
    (exact rank).toBinary64 false = .finite false rank := by
  have units := Binary64.units_pos (Nat.pos_of_ne_zero positive)
  have power : Nat.pow 5 1074 * Binary64.unitsInOne = Nat.pow 10 1074 := by decide +kernel
  have five : Nat.pow 5 1074 ≠ 0 := by decide +kernel
  have nonzero : (exact rank).coefficient ≠ 0 := Nat.mul_ne_zero units.ne' five
  have ten : 0 < Nat.pow 10 1074 := by decide +kernel
  have nearest := Binary64.nearestRank_units (rank.isLt.trans Binary64.ranks_lt) ten
  rw [toBinary64_eq false nonzero]
  show Binary64.ofRatio false (Binary64.units rank * Nat.pow 5 1074 * 10 ^ 0) (Nat.pow 10 1074) = _
  rw [pow_zero, Nat.mul_one, Binary64.ofRatio, Nat.mul_assoc, power, nearest, Binary64.ofRank, dif_pos rank.isLt]

/-- The decimal of fewest digits reads back as its magnitude. -/
theorem shortest_toBinary64 (rank : Fin Binary64.ranks) (positive : rank.val ≠ 0) (negative : Bool) :
    (shortest rank).toBinary64 negative = .finite negative rank := by
  refine toBinary64_signed ?_ negative
  have reading : ∀ exponent d, nearestReading? rank exponent = some d → readsAs rank d := by
    intro exponent d found
    unfold nearestReading? at found
    dsimp only at found
    split at found
    · contradiction
    · simp_all
    · simp_all
    · split_ifs at found <;> simp_all
  unfold shortest
  dsimp only
  cases found : (List.range 17).findSome? fun (n : Nat) => nearestReading? rank (pointPosition rank - (n + 1)) with
  | none => exact exact_toBinary64 rank positive
  | some d =>
    obtain ⟨n, _, reads⟩ := List.exists_of_findSome?_eq_some found
    exact eq_of_beq (reading _ d reads)

theorem shortest_coefficient_ne_zero (rank : Fin Binary64.ranks) (positive : rank.val ≠ 0) :
    (shortest rank).coefficient ≠ 0 := by
  intro zero
  have reads := shortest_toBinary64 rank positive false
  rw [toBinary64, if_pos zero, Binary64.zero] at reads
  injection reads with _ same
  exact positive (congrArg Fin.val same).symm

end AgentConfig.Decimal
