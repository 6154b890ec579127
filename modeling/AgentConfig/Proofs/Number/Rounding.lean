import AgentConfig.Proofs.Number.Binary64
import Mathlib.Tactic

namespace AgentConfig.Binary64

theorem gap_mono {rank later : Nat} (le : rank ≤ later) : gap rank ≤ gap later :=
  Nat.pow_le_pow_right (by decide) (Nat.sub_le_sub_right (Nat.div_le_div_right le) 1)

/-- A normal magnitude is at least `2 ^ 52` times as great as the distance to the next one. -/
theorem fractions_mul_gap_le {rank : Nat} (normal : fractions ≤ rank) : fractions * gap rank ≤ units rank := by
  have exponent : 0 < rank / fractions := Nat.div_pos normal fractions_pos
  rw [units, if_neg exponent.ne', gap, Nat.pow_eq]
  exact Nat.mul_le_mul_right _ (Nat.le_add_right _ _)

theorem units_lt_gap (rank : Nat) : units rank < 2 * fractions * gap rank := by
  have within := Nat.mod_lt rank fractions_pos
  have positive := gap_pos rank
  rw [units, gap, Nat.pow_eq]
  rw [gap] at positive
  split_ifs with least
  · rw [least]
    omega
  · exact Nat.mul_lt_mul_of_pos_right (by omega) positive

/-- A magnitude is less than `2 ^ 53` times the mean distance to the two beside it. -/
theorem units_succ_lt (rank : Nat) : units (rank + 1) < fractions * (gap rank + gap (rank + 1)) := by
  have scaled : fractions * (gap rank + gap (rank + 1)) = fractions * gap rank + fractions * gap (rank + 1) :=
    Nat.mul_add ..
  by_cases border : fractions ∣ rank + 1
  · -- At a power of two the distance doubles, but the magnitude is the least of its exponent.
    obtain ⟨exponent, whole⟩ := border
    obtain ⟨exponent, rfl⟩ : ∃ n, exponent = n + 1 := Nat.exists_eq_succ_of_ne_zero (by rintro rfl; omega)
    have magnitude : units (rank + 1) = fractions * gap (rank + 1) := by
      have last : rank + 1 = (exponent + 1) * fractions + 0 := by
        rw [whole, Nat.mul_comm]
        omega
      rw [last, units_add fractions_pos, gap, Nat.add_zero, Nat.add_zero, Nat.mul_div_cancel _ fractions_pos,
        Nat.add_sub_cancel]
    have positive := Nat.mul_pos fractions_pos (gap_pos rank)
    omega
  · have same : gap (rank + 1) = gap rank := by
      rw [gap, gap, Nat.succ_div, if_neg border, Nat.add_zero]
    have bound := units_lt_gap (rank + 1)
    rw [same] at bound scaled ⊢
    linarith

theorem unitsInOne_pos : 0 < unitsInOne := by
  decide +kernel

/-- The magnitude of a rank. -/
def magnitude (rank : Nat) : ℚ :=
  units rank / unitsInOne

theorem magnitude_strictMono : StrictMono magnitude := by
  intro rank later less
  have positive : (0 : ℚ) < unitsInOne := mod_cast unitsInOne_pos
  have unit : (units rank : ℚ) < units later := mod_cast units_strictMono less
  exact div_lt_div_of_pos_right unit positive

@[simp] theorem magnitude_zero : magnitude 0 = 0 := by
  rw [magnitude, units_of_lt fractions_pos, Nat.cast_zero, zero_div]

theorem magnitude_nonneg (rank : Nat) : 0 ≤ magnitude rank := by
  rw [magnitude]
  positivity

/-- Halfway between the magnitudes of a rank and the next. -/
def halfway (rank : Nat) : ℚ :=
  (magnitude rank + magnitude (rank + 1)) / 2

theorem magnitude_lt_halfway (rank : Nat) : magnitude rank < halfway rank := by
  have step := magnitude_strictMono (Nat.lt_succ_self rank)
  rw [halfway]
  linarith

theorem halfway_lt_magnitude (rank : Nat) : halfway rank < magnitude (rank + 1) := by
  have step := magnitude_strictMono (Nat.lt_succ_self rank)
  rw [halfway]
  linarith

theorem halfway_strictMono : StrictMono halfway := by
  refine strictMono_nat_of_lt_succ fun rank => ?_
  exact (halfway_lt_magnitude rank).trans (magnitude_lt_halfway (rank + 1))

/-- The least number that may be rounded to a rank. -/
def lowest : Nat → ℚ
  | 0 => 0
  | rank + 1 => halfway rank

theorem lowest_le_magnitude (rank : Nat) : lowest rank ≤ magnitude rank := by
  cases rank with
  | zero => rw [lowest, magnitude_zero]
  | succ rank => exact (halfway_lt_magnitude rank).le

theorem lowest_lt_magnitude {rank : Nat} (positive : 0 < rank) : lowest rank < magnitude rank := by
  obtain ⟨rank, rfl⟩ := Nat.exists_eq_add_one.mpr positive
  exact halfway_lt_magnitude rank

/-- Twice as far as the numbers that may be rounded to a rank reach from one end to the other. -/
theorem two_mul_width (rank : Nat) :
    2 * (halfway (rank + 1) - lowest (rank + 1)) = (gap rank + gap (rank + 1) : Nat) / unitsInOne := by
  have first : (units (rank + 1) : ℚ) = units rank + gap rank := mod_cast units_succ rank
  have second : (units (rank + 2) : ℚ) = units (rank + 1) + gap (rank + 1) := mod_cast units_succ (rank + 1)
  rw [lowest, halfway, halfway, magnitude, magnitude, magnitude, second, first, Nat.cast_add]
  ring

/-- What is rounded to a positive rank reaches over more than a part in `2 ^ 53` of the magnitude. -/
theorem magnitude_lt_width {rank : Nat} (positive : 0 < rank) :
    magnitude rank < 2 ^ 53 * (halfway rank - lowest rank) := by
  obtain ⟨rank, rfl⟩ := Nat.exists_eq_add_one.mpr positive
  have one : (0 : ℚ) < unitsInOne := mod_cast unitsInOne_pos
  have bound : (units (rank + 1) : ℚ) < 2 ^ 52 * (gap rank + gap (rank + 1) : Nat) := by
    have less := units_succ_lt rank
    rw [fractions_eq] at less
    exact_mod_cast less
  calc magnitude (rank + 1) = units (rank + 1) / unitsInOne := rfl
    _ < 2 ^ 52 * (gap rank + gap (rank + 1) : Nat) / unitsInOne := div_lt_div_of_pos_right bound one
    _ = 2 ^ 52 * (2 * (halfway (rank + 1) - lowest (rank + 1))) := by rw [two_mul_width, mul_div_assoc]
    _ = 2 ^ 53 * (halfway (rank + 1) - lowest (rank + 1)) := by ring

/-- For a normal magnitude it reaches over at most a part in `2 ^ 52`. -/
theorem width_le_magnitude {rank : Nat} (normal : fractions ≤ rank) :
    2 ^ 52 * (halfway rank - lowest rank) ≤ magnitude rank := by
  obtain ⟨rank, rfl⟩ := Nat.exists_eq_add_one.mpr (fractions_pos.trans_le normal)
  have bound : (2 ^ 52 * (gap rank + gap (rank + 1) : Nat) : ℚ) ≤ 2 * units (rank + 1) := by
    have wide := fractions_mul_gap_le normal
    have narrower := Nat.mul_le_mul_left fractions (gap_mono (Nat.le_add_right rank 1))
    have sum : fractions * (gap rank + gap (rank + 1)) ≤ 2 * units (rank + 1) := by
      rw [Nat.mul_add]
      omega
    rw [fractions_eq] at sum
    exact_mod_cast sum
  have scaled : 2 * (2 ^ 52 * (halfway (rank + 1) - lowest (rank + 1))) ≤ 2 * magnitude (rank + 1) :=
    calc 2 * (2 ^ 52 * (halfway (rank + 1) - lowest (rank + 1)))
      _ = 2 ^ 52 * (gap rank + gap (rank + 1) : Nat) / unitsInOne := by rw [mul_div_assoc, ← two_mul_width]; ring
      _ ≤ 2 * units (rank + 1) / unitsInOne := div_le_div_of_nonneg_right bound (Nat.cast_nonneg _)
      _ = 2 * magnitude (rank + 1) := mul_div_assoc ..
  exact le_of_mul_le_mul_left scaled two_pos

/-- The numbers that are rounded to a rank: those between the two points halfway to its neighbours, and these points
if the rank is even. -/
structure RoundsTo (q : ℚ) (rank : Nat) : Prop where
  low : lowest rank ≤ q
  high : q ≤ halfway rank
  tie : q = lowest rank ∨ q = halfway rank → rank % 2 = 0

namespace RoundsTo

variable {p q r : ℚ} {rank other : Nat}

theorem of_lt (above : lowest rank < q) (below : q < halfway rank) : RoundsTo q rank where
  low := above.le
  high := below.le
  tie := by
    rintro (rfl | rfl)
    · exact absurd above (lt_irrefl _)
    · exact absurd below (lt_irrefl _)

theorem magnitude (rank : Nat) : RoundsTo (magnitude rank) rank where
  low := lowest_le_magnitude rank
  high := (magnitude_lt_halfway rank).le
  tie := by
    rintro (same | same)
    · cases rank with
      | zero => rfl
      | succ rank => exact absurd same (halfway_lt_magnitude rank).ne'
    · exact absurd same (magnitude_lt_halfway rank).ne

/-- What lies between two numbers that are rounded to a rank is rounded to it too. -/
theorem between (left : RoundsTo p rank) (right : RoundsTo r rank) (le : p ≤ q) (le' : q ≤ r) : RoundsTo q rank where
  low := left.low.trans le
  high := le'.trans right.high
  tie := by
    rintro (rfl | rfl)
    · exact left.tie (.inl (le_antisymm le left.low))
    · exact right.tie (.inr (le_antisymm right.high le'))

theorem not_lt (first : RoundsTo q rank) (second : RoundsTo q other) : ¬ rank < other := by
  intro less
  obtain ⟨before, rfl⟩ := Nat.exists_eq_succ_of_ne_zero (Nat.ne_zero_of_lt less)
  have apart : halfway rank ≤ halfway before := halfway_strictMono.monotone (Nat.lt_succ_iff.mp less)
  have low : halfway before ≤ q := second.low
  -- The number is the point halfway between two neighbours, and only one of them is even.
  have upper : q = halfway rank := le_antisymm first.high (apart.trans low)
  have lower : q = halfway before := le_antisymm (first.high.trans apart) low
  have neighbours : rank = before := halfway_strictMono.injective (upper.symm.trans lower)
  have even := first.tie (.inr upper)
  have even' := second.tie (.inl lower)
  omega

/-- A number is rounded to one rank only. -/
theorem unique (first : RoundsTo q rank) (second : RoundsTo q other) : rank = other :=
  Nat.le_antisymm (Nat.le_of_not_lt (second.not_lt first)) (Nat.le_of_not_lt (first.not_lt second))

end RoundsTo

variable {num den rank : Nat}

theorem magnitude_le_div (positive : 0 < den) :
    magnitude rank ≤ (num : ℚ) / den ↔ units rank * den ≤ num * unitsInOne := by
  have one : (0 : ℚ) < unitsInOne := mod_cast unitsInOne_pos
  have denominator : (0 : ℚ) < den := mod_cast positive
  rw [magnitude, div_le_div_iff₀ one denominator]
  exact_mod_cast Iff.rfl

theorem div_lt_magnitude (positive : 0 < den) :
    (num : ℚ) / den < magnitude rank ↔ num * unitsInOne < units rank * den := by
  rw [← not_le, magnitude_le_div positive, not_le]

theorem halfway_eq (rank : Nat) : halfway rank = (units rank + units (rank + 1) : Nat) / (2 * unitsInOne : Nat) := by
  rw [halfway, magnitude, magnitude, ← add_div, div_div, Nat.cast_add, Nat.cast_mul, mul_comm, Nat.cast_two]

theorem div_lt_halfway (positive : 0 < den) : (num : ℚ) / den < halfway rank ↔
    2 * (num * unitsInOne) < (units rank + units (rank + 1)) * den := by
  have two : (0 : ℚ) < (2 * unitsInOne : Nat) := mod_cast Nat.mul_pos two_pos unitsInOne_pos
  have denominator : (0 : ℚ) < den := mod_cast positive
  rw [halfway_eq, div_lt_div_iff₀ denominator two, Nat.mul_left_comm]
  exact_mod_cast Iff.rfl

theorem div_eq_halfway (positive : 0 < den) : (num : ℚ) / den = halfway rank ↔
    2 * (num * unitsInOne) = (units rank + units (rank + 1)) * den := by
  have two : (0 : ℚ) < (2 * unitsInOne : Nat) := mod_cast Nat.mul_pos two_pos unitsInOne_pos
  have denominator : (0 : ℚ) < den := mod_cast positive
  rw [halfway_eq, div_eq_div_iff denominator.ne' two.ne', Nat.mul_left_comm]
  exact_mod_cast Iff.rfl

theorem roundsTo_nearestRank (positive : 0 < den) (bound : rankBelow (num * unitsInOne) den + 1 < 2 ^ 63) :
    RoundsTo ((num : ℚ) / den) (nearestRank (num * unitsInOne) den) := by
  -- The number lies between the magnitudes of two neighbours, and the halfway point decides for one of them.
  obtain ⟨below, is⟩ : ∃ below, rankBelow (num * unitsInOne) den = below := ⟨_, rfl⟩
  have left : magnitude below ≤ (num : ℚ) / den := (magnitude_le_div positive).mpr (is ▸ rankBelow_le _ den)
  have right : (num : ℚ) / den < magnitude (below + 1) := by
    rw [div_lt_magnitude positive, ← is]
    by_contra above
    exact absurd (le_rankBelow bound (not_lt.mp above)) (by omega)
  simp only [nearestRank_eq, is, ← div_lt_halfway positive, ← div_eq_halfway positive]
  generalize (num : ℚ) / den = q at left right
  split_ifs with down
  · refine ⟨(lowest_le_magnitude below).trans left, ?_, ?_⟩
    · rcases down with less | ⟨tie, -⟩
      · exact less.le
      · exact tie.le
    · rintro (low | high)
      · -- The lowest point of a positive rank lies below its magnitude.
        by_contra odd
        have positive : 0 < below := by omega
        have apart := lowest_lt_magnitude positive
        linarith
      · rcases down with less | ⟨-, even⟩
        · exact absurd high less.ne
        · exact even
  · obtain ⟨above, odd⟩ := not_or.mp down
    refine ⟨not_lt.mp above, (right.trans (magnitude_lt_halfway _)).le, ?_⟩
    rintro (tie | high)
    · have even : below % 2 ≠ 0 := fun even => odd ⟨tie, even⟩
      omega
    · exact absurd high (right.trans (magnitude_lt_halfway _)).ne

/-- The nearest rank of a ratio is the one that it is rounded to. -/
theorem nearestRank_eq_iff (positive : 0 < den) (bound : rank < ranks) :
    nearestRank (num * unitsInOne) den = rank ↔ RoundsTo ((num : ℚ) / den) rank := by
  have few : ranks + 1 < 2 ^ 63 := by decide
  constructor
  · rintro rfl
    have le := rankBelow_le_nearestRank (num * unitsInOne) den
    exact roundsTo_nearestRank positive (by omega)
  · intro rounds
    have below : rankBelow (num * unitsInOne) den < rank + 1 := by
      have left := (magnitude_le_div positive).mpr (rankBelow_le (num * unitsInOne) den)
      exact magnitude_strictMono.lt_iff_lt.mp ((left.trans rounds.high).trans_lt (halfway_lt_magnitude rank))
    exact (roundsTo_nearestRank positive (by omega)).unique rounds

end AgentConfig.Binary64
