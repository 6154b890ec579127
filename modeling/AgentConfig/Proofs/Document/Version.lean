import AgentConfig.Document.File
import AgentConfig.Proofs.Json.Reader
import AgentConfig.Proofs.Schema.Read
import AgentConfig.Proofs.Schema.Tree

namespace AgentConfig

/-- An integer whose text can be read: it does not have too many digits. -/
def IsShort (n : Int) : Prop :=
  (decimalDigits n.natAbs).length ≤ digitLimit

instance (n : Int) : Decidable (IsShort n) :=
  inferInstanceAs (Decidable (_ ≤ _))

theorem isShort_of_natAbs_lt {n : Int} {k : Nat} (bound : n.natAbs < 10 ^ k) (positive : 0 < k) (fits : k < digitLimit) :
    IsShort n := by
  have digits := (Nat.length_toDigits_le_iff (by decide) positive).mpr bound
  exact digits.trans fits.le

theorem isShort_natCast {n : Nat} (bound : n < 10 ^ digitLimit) : IsShort n := by
  exact (Nat.length_toDigits_le_iff (b := 10) (by decide) (by decide)).mpr bound

theorem isShort_zero : IsShort 0 :=
  isShort_of_natAbs_lt (k := 1) (by decide) (by decide) (by decide)

namespace NumberText

theorem wholeNumber?_digits {s : List Char} (nonempty : s ≠ []) (digits : s.all isDigit)
    (leading : s.head? = some '0' → s.length = 1) (negative : Bool) :
    wholeNumber? (if negative then '-' :: s else s) =
      some (if negative then -(natOfDigits s : Int) else natOfDigits s) := by
  have plain : (s.isEmpty || !s.all isDigit || (s.head? == some '0' && s.length ≠ 1)) = false := by
    simpa [digits, nonempty] using leading
  cases negative with
  | true => simp only [wholeNumber?, if_true, plain, Bool.false_eq_true, if_false]
  | false =>
    obtain ⟨c, rest, rfl⟩ := List.exists_cons_of_ne_nil nonempty
    have unsigned : c ≠ '-' := by
      rintro rfl
      simp [isDigit] at digits
    unfold wholeNumber?
    simp only [Bool.false_eq_true, if_false]
    split
    · next found => exact absurd (List.cons.inj found).1 unsigned
    · simp only [plain, Bool.false_eq_true, if_false]

/-- The digits of an integer are its text without the sign. -/
theorem filter_writeInt (n : Int) : (Json.writeInt n).filter (· ≠ '-') = decimalDigits n.natAbs := by
  have digits : (decimalDigits n.natAbs).filter (· ≠ '-') = decimalDigits n.natAbs := by
    refine List.filter_eq_self.mpr fun c member => decide_eq_true ?_
    rintro rfl
    exact absurd (List.all_eq_true.mp (all_isDigit_decimalDigits n.natAbs) '-' member) (by decide)
  rw [Json.writeInt_eq]
  split_ifs
  · rw [List.filter_cons_of_neg (by decide), digits]
  · exact digits

/-- An integer is read back from its decimal text, if that is short. -/
theorem readInt_writeInt (n : Int) :
    readInt (Json.writeInt n) = if (decimalDigits n.natAbs).length ≤ digitLimit then .ok n else .fail .intSize := by
  have leading : (decimalDigits n.natAbs).head? = some '0' → (decimalDigits n.natAbs).length = 1 := by
    intro zero
    rw [decimalDigits_head_zero zero, decimalDigits_zero]
    rfl
  have whole : wholeNumber? (Json.writeInt n) = some n := by
    rw [Json.writeInt_eq, wholeNumber?_digits (decimalDigits_ne_nil _) (all_isDigit_decimalDigits _) leading,
      natOfDigits_decimalDigits]
    by_cases negative : n < 0
    · simp only [negative, decide_true, if_true, Int.ofNat_natAbs_of_nonpos negative.le, neg_neg]
    · simp only [negative, decide_false, Bool.false_eq_true, if_false, Int.natAbs_of_nonneg (not_lt.mp negative)]
  rw [readInt, readPlainInt, whole, filter_writeInt]
  simp only [Option.map_some]
  split_ifs <;> first | rfl | omega

end NumberText

end AgentConfig
