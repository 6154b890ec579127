import AgentConfig.Number.Binary64
import Mathlib.Tactic

namespace AgentConfig.Binary64

theorem fractions_eq : fractions = 2 ^ 52 := rfl

theorem fractions_pos : 0 < fractions := by
  rw [fractions_eq]; positivity

theorem units_of_lt {rank : Nat} (least : rank < fractions) : units rank = rank := by
  simp [units, Nat.div_eq_of_lt least, Nat.mod_eq_of_lt least]

/-- The magnitude by exponent and fraction. -/
theorem units_add {fraction : Nat} (within : fraction < fractions) (exponent : Nat) :
    units ((exponent + 1) * fractions + fraction) = (fractions + fraction) * 2 ^ exponent := by
  have quotient : ((exponent + 1) * fractions + fraction) / fractions = exponent + 1 := by
    rw [Nat.add_div_of_dvd_right (Dvd.intro_left _ rfl), Nat.mul_div_cancel _ fractions_pos,
      Nat.div_eq_of_lt within, Nat.add_zero]
  have remainder : ((exponent + 1) * fractions + fraction) % fractions = fraction := by
    rw [Nat.add_comm, Nat.add_mul_mod_self_right, Nat.mod_eq_of_lt within]
  simp only [units, quotient, remainder, Nat.add_one_ne_zero, if_false, Nat.add_sub_cancel, Nat.pow_eq]

/-- The distance from the magnitude of a rank to the next one, in units. -/
def gap (rank : Nat) : Nat :=
  2 ^ (rank / fractions - 1)

theorem gap_pos (rank : Nat) : 0 < gap rank :=
  Nat.two_pow_pos _

theorem units_succ (rank : Nat) : units (rank + 1) = units rank + gap rank := by
  rw [gap]
  have position := Nat.div_add_mod rank fractions
  have within := Nat.mod_lt rank fractions_pos
  generalize rank / fractions = exponent at position ⊢
  generalize rank % fractions = fraction at position within
  subst position
  rw [Nat.mul_comm]
  rcases exponent with _ | exponent
  · rw [Nat.zero_mul, Nat.zero_add, units_of_lt within, Nat.zero_sub, pow_zero]
    by_cases next : fraction + 1 < fractions
    · rw [units_of_lt next]
    · have last : fraction + 1 = (0 + 1) * fractions + 0 := by omega
      rw [last, units_add fractions_pos]
      omega
  · rw [units_add within, Nat.add_sub_cancel]
    by_cases next : fraction + 1 < fractions
    · rw [Nat.add_assoc, units_add next]
      ring
    · have last : (exponent + 1) * fractions + fraction + 1 = (exponent + 1 + 1) * fractions + 0 := by
        have step : (exponent + 1 + 1) * fractions = (exponent + 1) * fractions + fractions := by ring
        omega
      have full : fractions = fraction + 1 := by omega
      rw [last, units_add fractions_pos, full, pow_succ]
      ring

theorem units_lt_succ (rank : Nat) : units rank < units (rank + 1) := by
  have positive := gap_pos rank
  rw [units_succ]
  omega

theorem units_strictMono : StrictMono units :=
  strictMono_nat_of_lt_succ units_lt_succ

theorem units_pos {rank : Nat} (positive : 0 < rank) : 0 < units rank :=
  (Nat.zero_le _).trans_lt (units_strictMono positive)

/-- The search finds the last number below its bound that satisfies a downward closed predicate. -/
theorem greatest_spec {p : Nat → Bool} (closed : ∀ x y, x ≤ y → p y → p x) (bits base : Nat) (holds : p base) :
    p (greatest p bits base) ∧ ∀ x < base + 2 ^ bits, p x → x ≤ greatest p bits base := by
  induction bits generalizing base with
  | zero =>
    refine ⟨holds, fun x below _ => ?_⟩
    simp only [pow_zero] at below
    simpa [greatest] using Nat.lt_succ_iff.mp below
  | succ bits ih =>
    simp only [greatest, Nat.pow_eq]
    split_ifs with upper
    · obtain ⟨found, last⟩ := ih (base + 2 ^ bits) upper
      refine ⟨found, fun x below => last x ?_⟩
      rw [pow_succ] at below
      omega
    · obtain ⟨found, last⟩ := ih base holds
      refine ⟨found, fun x _ satisfies => last x ?_ satisfies⟩
      by_contra above
      exact upper (closed _ x (by omega) satisfies)

variable {num den : Nat}

/-- The last rank whose magnitude is at most `num / den` units. -/
def rankBelow (num den : Nat) : Nat :=
  greatest (fun rank => units rank * den ≤ num) 63 0

theorem rankBelow_le (num den : Nat) : units (rankBelow num den) * den ≤ num := by
  have closed : ∀ x y, x ≤ y → decide (units y * den ≤ num) → decide (units x * den ≤ num) := by
    intro x y le holds
    simp only [decide_eq_true_eq] at holds ⊢
    exact (Nat.mul_le_mul_right den (units_strictMono.monotone le)).trans holds
  simpa [rankBelow] using (greatest_spec closed 63 0 (by simp [units])).1

theorem le_rankBelow {rank : Nat} (bound : rank < 2 ^ 63) (le : units rank * den ≤ num) :
    rank ≤ rankBelow num den := by
  have closed : ∀ x y, x ≤ y → decide (units y * den ≤ num) → decide (units x * den ≤ num) := by
    intro x y le holds
    simp only [decide_eq_true_eq] at holds ⊢
    exact (Nat.mul_le_mul_right den (units_strictMono.monotone le)).trans holds
  exact (greatest_spec closed 63 0 (by simp [units])).2 rank (by simpa using bound) (by simpa using le)

theorem nearestRank_eq (num den : Nat) : nearestRank num den =
    let middle := (units (rankBelow num den) + units (rankBelow num den + 1)) * den
    if 2 * num < middle ∨ 2 * num = middle ∧ rankBelow num den % 2 = 0 then rankBelow num den
    else rankBelow num den + 1 := rfl

/-- Only the ratio counts. -/
theorem nearestRank_scale {k : Nat} (positive : 0 < k) (num den : Nat) :
    nearestRank (k * num) (k * den) = nearestRank num den := by
  have below : rankBelow (k * num) (k * den) = rankBelow num den := by
    unfold rankBelow
    congr 1
    funext rank
    refine decide_eq_decide.mpr ?_
    rw [Nat.mul_left_comm, Nat.mul_le_mul_left_iff positive]
  simp only [nearestRank_eq, below, Nat.mul_left_comm _ k, Nat.mul_lt_mul_left positive,
    Nat.mul_left_cancel_iff positive]

/-- A magnitude is nearest to itself. -/
theorem nearestRank_units {rank k : Nat} (bound : rank < 2 ^ 63) (positive : 0 < k) :
    nearestRank (units rank * k) k = rank := by
  have lower := le_rankBelow bound (le_refl (units rank * k))
  have upper : rankBelow (units rank * k) k ≤ rank :=
    units_strictMono.le_iff_le.mp (Nat.le_of_mul_le_mul_right (rankBelow_le _ k) positive)
  have same := Nat.le_antisymm upper lower
  have nearer : 2 * (units rank * k) < (units rank + units (rank + 1)) * k := by
    rw [← Nat.mul_assoc]
    exact Nat.mul_lt_mul_of_pos_right (by have := units_lt_succ rank; omega) positive
  rw [nearestRank_eq, same]
  exact if_pos (Or.inl nearer)

theorem rankBelow_le_nearestRank (num den : Nat) : rankBelow num den ≤ nearestRank num den := by
  rw [nearestRank_eq]
  dsimp only
  split_ifs <;> omega

theorem ranks_lt : ranks < 2 ^ 63 := by
  decide

theorem ofRatio_congr (negative : Bool) {num' den' : Nat} (positive : 0 < den) (positive' : 0 < den')
    (same : num * den' = num' * den) : ofRatio negative num den = ofRatio negative num' den' := by
  have nearest : nearestRank (num * unitsInOne) den = nearestRank (num' * unitsInOne) den' :=
    calc nearestRank (num * unitsInOne) den
        = nearestRank (den' * (num * unitsInOne)) (den' * den) := (nearestRank_scale positive' _ _).symm
      _ = nearestRank (den * (num' * unitsInOne)) (den * den') := by
        rw [← Nat.mul_assoc, Nat.mul_comm den' num, same, Nat.mul_comm den' den, ← Nat.mul_assoc den,
          Nat.mul_comm den num']
      _ = nearestRank (num' * unitsInOne) den' := nearestRank_scale positive _ _
  rw [ofRatio, ofRatio, nearest]

/-- A ratio at least the first magnitude past the finite ones gives infinity. -/
theorem ofRatio_infinite (negative : Bool) (large : units ranks * den ≤ num * unitsInOne) :
    ofRatio negative num den = .infinite negative := by
  have rank := (le_rankBelow ranks_lt large).trans (rankBelow_le_nearestRank _ den)
  rw [ofRatio, ofRank, dif_neg (by omega)]

/-- A ratio below half of the least positive magnitude gives zero. -/
theorem ofRatio_zero (negative : Bool) (small : 2 * (num * unitsInOne) < den) :
    ofRatio negative num den = .zero negative := by
  have one : units 1 = 1 := units_of_lt (by rw [fractions_eq]; norm_num)
  have below : rankBelow (num * unitsInOne) den = 0 := by
    by_contra positive
    have magnitude := units_strictMono.monotone (Nat.one_le_iff_ne_zero.mpr positive)
    have le := rankBelow_le (num * unitsInOne) den
    have := Nat.mul_le_mul_right den (one ▸ magnitude)
    omega
  have zero : units 0 = 0 := units_of_lt fractions_pos
  have nearest : nearestRank (num * unitsInOne) den = 0 := by
    rw [nearestRank_eq, below]
    simp only [zero_add, zero, one]
    exact if_pos (Or.inl (by omega))
  rw [ofRatio, nearest]
  rfl

theorem isFinite_one : one.isFinite := by
  decide +kernel

theorem nearestRank_le (num den : Nat) : nearestRank num den ≤ rankBelow num den + 1 := by
  rw [nearestRank_eq]
  dsimp only
  split_ifs <;> omega

/-- Ratios well below the greatest finite number are finite numbers. -/
theorem isFinite_ofRatio (negative : Bool) (small : num < 2 ^ 1000 * den) : (ofRatio negative num den).isFinite := by
  have positive : 0 < unitsInOne := by decide +kernel
  have room : 2 ^ 1000 * unitsInOne ≤ units (ranks - 1) := by decide +kernel
  have below : rankBelow (num * unitsInOne) den < ranks - 1 := by
    refine units_strictMono.lt_iff_lt.mp (Nat.lt_of_mul_lt_mul_right (a := den) ?_)
    calc units (rankBelow (num * unitsInOne) den) * den
      _ ≤ num * unitsInOne := rankBelow_le _ den
      _ < 2 ^ 1000 * den * unitsInOne := Nat.mul_lt_mul_of_pos_right small positive
      _ = 2 ^ 1000 * unitsInOne * den := Nat.mul_right_comm ..
      _ ≤ units (ranks - 1) * den := Nat.mul_le_mul_right den room
  have finite : nearestRank (num * unitsInOne) den < ranks :=
    (nearestRank_le _ den).trans_lt (by omega)
  rw [ofRatio, ofRank, dif_pos finite]
  rfl

theorem isFinite_ofInt {n : Int} (small : n.natAbs < 2 ^ 1000) : (ofInt n).isFinite :=
  isFinite_ofRatio _ (by rwa [Nat.mul_one])

end AgentConfig.Binary64
