import AgentConfig.Number.Decimal
import Mathlib.Tactic

namespace AgentConfig

theorem isDigit_iff {c : Char} : isDigit c = true ↔ 48 ≤ c.toNat ∧ c.toNat ≤ 57 := by
  simp only [isDigit, Bool.and_eq_true, decide_eq_true_eq, Char.le_def, UInt32.le_iff_toNat_le]
  exact Iff.rfl

theorem isDigit_eq (c : Char) : isDigit c = c.isDigit := by
  rw [Bool.eq_iff_iff, isDigit_iff]
  simp only [Char.isDigit, Bool.and_eq_true, decide_eq_true_eq, ge_iff_le, UInt32.le_iff_toNat_le]
  exact Iff.rfl

theorem natOfDigits_decimalDigits (n : Nat) : natOfDigits (decimalDigits n) = n := by
  have digits := Nat.ofDigitChars_ten_toDigits (n := n)
  rwa [Nat.ofDigitChars_eq_foldl] at digits

theorem natOfDigits_append (s t : List Char) :
    natOfDigits (s ++ t) = natOfDigits s * 10 ^ t.length + natOfDigits t := by
  have fold : ∀ digits, natOfDigits digits = Nat.ofDigitChars 10 digits 0 :=
    fun digits => (Nat.ofDigitChars_eq_foldl ..).symm
  rw [fold, fold, fold, Nat.ofDigitChars_append, Nat.ofDigitChars_eq_ofDigitChars_zero, Nat.mul_comm]

theorem natOfDigits_replicate_zero (n : Nat) : natOfDigits (List.replicate n '0') = 0 := by
  have zeros : Nat.ofDigitChars 10 (List.replicate n '0') 0 = 10 ^ n * 0 := Nat.ofDigitChars_replicate_zero
  rwa [Nat.ofDigitChars_eq_foldl, Nat.mul_zero] at zeros

theorem natOfDigits_append_zeros (s : List Char) (n : Nat) :
    natOfDigits (s ++ List.replicate n '0') = natOfDigits s * 10 ^ n := by
  rw [natOfDigits_append, natOfDigits_replicate_zero, List.length_replicate, Nat.add_zero]

theorem natOfDigits_zeros_append (s : List Char) (n : Nat) :
    natOfDigits (List.replicate n '0' ++ s) = natOfDigits s := by
  rw [natOfDigits_append, natOfDigits_replicate_zero, Nat.zero_mul, Nat.zero_add]

theorem isDigit_of_mem_decimalDigits {n : Nat} {c : Char} (member : c ∈ decimalDigits n) : isDigit c := by
  rw [isDigit_eq]
  exact Nat.isDigit_of_mem_toDigits (by decide) (by decide) member

theorem all_isDigit_decimalDigits (n : Nat) : (decimalDigits n).all isDigit :=
  List.all_eq_true.mpr fun _ member => isDigit_of_mem_decimalDigits member

theorem decimalDigits_ne_nil (n : Nat) : decimalDigits n ≠ [] :=
  Nat.toDigits_ne_nil

/-- Only zero itself is written with a zero in front. -/
theorem decimalDigits_head_zero {n : Nat} (leading : (decimalDigits n).head? = some '0') : n = 0 := by
  induction n using Nat.strong_induction_on with
  | _ n ih =>
    by_cases small : n < 10
    · rw [decimalDigits, Nat.toDigits_of_lt_base small] at leading
      simpa using leading
    · have split := Nat.toDigits_of_base_le (b := 10) (n := n) (by decide) (by omega)
      rw [decimalDigits, split, List.head?_append_of_ne_nil _ Nat.toDigits_ne_nil] at leading
      have quotient := ih (n / 10) (by omega) leading
      omega

theorem decimalDigits_zero : decimalDigits 0 = ['0'] :=
  Nat.toDigits_zero 10

theorem decimalDigits_length_pos (n : Nat) : 0 < (decimalDigits n).length :=
  List.length_pos_iff.mpr (decimalDigits_ne_nil n)

theorem lt_pow_length_decimalDigits (n : Nat) : n < 10 ^ (decimalDigits n).length :=
  (Nat.length_toDigits_le_iff (by decide) (decimalDigits_length_pos n)).mp le_rfl

theorem length_decimalDigits_le_iff {n k : Nat} (positive : 0 < n) : (decimalDigits n).length ≤ k ↔ n < 10 ^ k := by
  rcases Nat.eq_zero_or_pos k with rfl | digits
  · have some := decimalDigits_length_pos n
    rw [pow_zero]
    omega
  · exact Nat.length_toDigits_le_iff (by decide) digits

theorem length_decimalDigits_pow (k : Nat) : (decimalDigits (10 ^ k)).length = k + 1 := by
  have bounds := fun n => length_decimalDigits_le_iff (n := 10 ^ k) (k := n) (by positivity)
  refine le_antisymm ((bounds _).mpr (Nat.pow_lt_pow_right (by decide) (Nat.lt_succ_self k))) ?_
  exact Nat.lt_of_not_le fun short => lt_irrefl _ ((bounds k).mp short)

theorem digitChar_of_isDigit {c : Char} (digit : isDigit c = true) : Nat.digitChar (c.toNat - '0'.toNat) = c := by
  have bounds := isDigit_iff.1 digit
  have zero : '0'.toNat = 48 := rfl
  apply Char.toNat_inj.mp
  rw [Nat.toNat_digitChar_of_lt_ten (by omega)]
  omega

/-- Digits without a zero in front are those of their value. -/
theorem decimalDigits_natOfDigits {digits : List Char} (nonempty : digits ≠ []) (all : digits.all isDigit)
    (leading : digits.head? ≠ some '0') : decimalDigits (natOfDigits digits) = digits := by
  induction digits using List.reverseRecOn with
  | nil => contradiction
  | append_singleton digits d ih =>
    simp only [List.all_append, List.all_cons, List.all_nil, Bool.and_true, Bool.and_eq_true] at all
    have bound := isDigit_iff.mp all.2
    have zero : '0'.toNat = 48 := rfl
    have value : natOfDigits [d] = d.toNat - '0'.toNat := by simp [natOfDigits]
    have last : decimalDigits (d.toNat - '0'.toNat) = [d] := by
      rw [decimalDigits, Nat.toDigits_of_lt_base (by omega), digitChar_of_isDigit all.2]
    rw [natOfDigits_append, value, List.length_singleton, pow_one, Nat.mul_comm]
    rcases eq_or_ne digits [] with rfl | front
    · rw [natOfDigits, List.foldl_nil, Nat.mul_zero, Nat.zero_add, last, List.nil_append]
    · have start := ih front all.1 (by rwa [List.head?_append_of_ne_nil _ front] at leading)
      have positive : 0 < natOfDigits digits := by
        refine Nat.pos_of_ne_zero fun none => ?_
        rw [none, decimalDigits_zero] at start
        exact leading (by rw [← start]; rfl)
      have split := Nat.toDigits_append_toDigits (b := 10) (n := natOfDigits digits) (d := d.toNat - '0'.toNat)
        (by decide) positive (by omega)
      exact split.symm.trans (congrArg₂ _ start last)

/-- Digits behind those of a positive number. -/
theorem decimalDigits_append {m : Nat} (positive : 0 < m) {more : List Char} (all : more.all isDigit) :
    decimalDigits (m * 10 ^ more.length + natOfDigits more) = decimalDigits m ++ more := by
  have leading : (decimalDigits m ++ more).head? ≠ some '0' := by
    rw [List.head?_append_of_ne_nil _ (decimalDigits_ne_nil m)]
    exact fun zero => positive.ne' (decimalDigits_head_zero zero)
  have digits := decimalDigits_natOfDigits (by simp [decimalDigits_ne_nil])
    (by rw [List.all_append, all_isDigit_decimalDigits, all, Bool.and_self]) leading
  rwa [natOfDigits_append, natOfDigits_decimalDigits] at digits

theorem decimalDigits_mul_pow {m : Nat} (positive : 0 < m) (k : Nat) :
    decimalDigits (m * 10 ^ k) = decimalDigits m ++ List.replicate k '0' := by
  have zeros : (List.replicate k '0').all isDigit := by simp [isDigit]
  have digits := decimalDigits_append positive zeros
  rwa [natOfDigits_replicate_zero, List.length_replicate, Nat.add_zero] at digits

theorem exists_decimalDigits_last (n : Nat) : ∃ front, decimalDigits n = front ++ [Nat.digitChar (n % 10)] := by
  by_cases small : n < 10
  · exact ⟨[], by rw [decimalDigits, Nat.toDigits_of_lt_base small, Nat.mod_eq_of_lt small, List.nil_append]⟩
  · exact ⟨_, Nat.toDigits_of_base_le (by decide) (Nat.not_lt.mp small)⟩

/-- A run of digits ends where no digit follows. -/
theorem takeWhile_append_of_all {p : Char → Bool} {run rest : List Char} (digits : run.all p)
    (stop : rest.head?.all fun c => !p c) :
    (run ++ rest).takeWhile p = run ∧ (run ++ rest).dropWhile p = rest := by
  induction run with
  | nil =>
    cases rest with
    | nil => simp
    | cons c rest =>
      have outside : p c = false := by simpa using stop
      simp [outside]
  | cons d run ih =>
    simp only [List.all_cons, Bool.and_eq_true] at digits
    obtain ⟨taken, dropped⟩ := ih digits.2
    simp [digits.1, taken, dropped]

end AgentConfig
