import AgentConfig.Proofs.Number.Digits
import AgentConfig.Text.Quoted

namespace AgentConfig.Text

/-- The characters at which a text is cut into lines. -/
def lineEnds : List Char :=
  ['\n', '\x0b', '\x0c', '\r', '\x1c', '\x1d', '\x1e', '\u0085', '\u2028', '\u2029']

theorem isPrintable_ascii {c : Char} (low : 0x20 ≤ c.toNat) (high : c.toNat < 0x7f) : isPrintable c = true := by
  have beside : ∀ range ∈ unprintableRanges, range.2 < 0x20 ∨ 0x7f ≤ range.1 := by decide +kernel
  rw [isPrintable, Bool.not_eq_true', List.any_eq_false]
  intro range member inside
  simp only [Bool.and_eq_true, decide_eq_true_eq] at inside
  have apart := beside range member
  omega

/-- A text all of whose characters have a visible form. -/
def Printable (s : String) : Prop :=
  ∀ c ∈ s.toList, isPrintable c = true

namespace Printable

variable {s t : String}

theorem ascii (visible : ∀ c ∈ s.toList, 0x20 ≤ c.toNat ∧ c.toNat < 0x7f) : Printable s :=
  fun c member => isPrintable_ascii (visible c member).1 (visible c member).2

@[simp] theorem append_iff : Printable (s ++ t) ↔ Printable s ∧ Printable t := by
  simp [Printable, or_imp, forall_and]

/-- A printable text is on one line. -/
theorem notMem_lineEnds (printable : Printable s) : ∀ c ∈ s.toList, c ∉ lineEnds := by
  have hidden : ∀ c ∈ lineEnds, isPrintable c = false := by decide +kernel
  intro c member ending
  have shown := printable c member
  rw [hidden c ending] at shown
  exact Bool.false_ne_true shown

theorem intercalate {between : String} {items : List String} (shown : Printable between)
    (each : ∀ s ∈ items, Printable s) : Printable (between.intercalate items) := by
  induction items with
  | nil => exact ascii (by simp)
  | cons s rest ih =>
    obtain ⟨first, others⟩ := List.forall_mem_cons.mp each
    cases rest with
    | nil => rwa [String.intercalate_singleton]
    | cons t rest =>
      rw [String.intercalate_cons_cons, append_iff, append_iff]
      exact ⟨⟨first, shown⟩, ih others⟩

end Printable

theorem isPrintable_of_mem_hexDigits {c : Char} {width n : Nat} (member : c ∈ hexDigits width n) :
    isPrintable c = true := by
  have digits : ∀ n < 16, 0x20 ≤ (Nat.digitChar n).toNat ∧ (Nat.digitChar n).toNat < 0x7f := by decide
  induction width generalizing n with
  | zero => simp [hexDigits] at member
  | succ width ih =>
    rcases List.mem_append.mp member with before | last
    · exact ih before
    · obtain ⟨low, high⟩ := digits (n % 16) (Nat.mod_lt _ (by decide))
      rw [List.mem_singleton.mp last]
      exact isPrintable_ascii low high

/-- A character in quotes is written by printable characters only: those that are not are written by number. -/
theorem isPrintable_of_mem_quotedChar {quote c d : Char} (shown : isPrintable quote = true)
    (member : d ∈ quotedChar quote c) : isPrintable d = true := by
  have backslash : isPrintable '\\' = true := isPrintable_ascii (by decide) (by decide)
  have escape {c : Char} {rest : List Char} (low : 0x20 ≤ c.toNat) (high : c.toNat < 0x7f)
      (after : ∀ d ∈ rest, isPrintable d = true) (member : d ∈ '\\' :: c :: rest) : isPrintable d = true := by
    rcases List.mem_cons.mp member with rfl | member
    · exact backslash
    · rcases List.mem_cons.mp member with rfl | member
      · exact isPrintable_ascii low high
      · exact after d member
  have digits : ∀ {width n : Nat}, ∀ d ∈ hexDigits width n, isPrintable d = true :=
    fun _ => isPrintable_of_mem_hexDigits
  unfold quotedChar at member
  split_ifs at member with special tab carriage feed printable two four
  · obtain rfl | rfl : d = '\\' ∨ d = c := by simpa using member
    · exact backslash
    · obtain rfl | rfl := special
      · exact shown
      · exact backslash
  · exact escape (by decide) (by decide) (by simp) member
  · exact escape (by decide) (by decide) (by simp) member
  · exact escape (by decide) (by decide) (by simp) member
  · rw [List.mem_singleton.mp member]
    exact printable
  · exact escape (by decide) (by decide) digits member
  · exact escape (by decide) (by decide) digits member
  · exact escape (by decide) (by decide) digits member

/-- Whatever a text holds, it is printable in quotes. -/
@[simp] theorem printable_quoted (s : String) : Printable (quoted s) := by
  have shown : isPrintable (quoteFor s.toList) = true := by
    unfold quoteFor
    split_ifs <;> exact isPrintable_ascii (by decide) (by decide)
  intro c member
  obtain rfl | ⟨d, -, inside⟩ | rfl : c = quoteFor s.toList ∨ (∃ d ∈ s.toList, c ∈ quotedChar (quoteFor s.toList) d) ∨
      c = quoteFor s.toList := by
    simpa [quoted] using member
  · exact shown
  · exact isPrintable_of_mem_quotedChar shown inside
  · exact shown

@[simp] theorem printable_quotedList (items : List String) : Printable (quotedList items) := by
  have each : ∀ s ∈ items.map quoted, Printable s := by simp
  rw [quotedList, Printable.append_iff, Printable.append_iff]
  exact ⟨⟨.ascii (by decide), .intercalate (.ascii (by decide)) each⟩, .ascii (by decide)⟩

@[simp] theorem printable_toString_nat (n : Nat) : Printable (toString n) := by
  refine .ascii fun c member => ?_
  have digit : isDigit c = true := isDigit_of_mem_decimalDigits (n := n) (by simpa [decimalDigits] using member)
  have range := isDigit_iff.mp digit
  omega

@[simp] theorem printable_toString_int (n : Int) : Printable (toString n) := by
  cases n with
  | ofNat n => exact printable_toString_nat n
  | negSucc n =>
    change Printable ("-" ++ toString (n + 1))
    exact Printable.append_iff.mpr ⟨.ascii (by decide), printable_toString_nat _⟩

end AgentConfig.Text
