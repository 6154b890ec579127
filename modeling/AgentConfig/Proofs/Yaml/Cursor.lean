import AgentConfig.Yaml.Writer
import Mathlib.Tactic

namespace AgentConfig.Yaml

/-- Spaces and the visible part of ASCII: the characters of a single line. -/
def isPrinted (c : Char) : Bool :=
  ' ' ≤ c && c ≤ '~'

theorem ne_of_isPrinted {c : Char} (printed : isPrinted c = true) (d : Char) (far : isPrinted d = false) : c ≠ d := by
  rintro rfl
  rw [printed] at far
  exact absurd far (by decide)

theorem isBreak_of_isPrinted {c : Char} (printed : isPrinted c = true) : isBreak c = false := by
  have apart := ne_of_isPrinted printed
  simp [isBreak, apart '\r' (by decide), apart '\n' (by decide), apart '\x85' (by decide),
    apart '\u2028' (by decide), apart '\u2029' (by decide)]

theorem isBreakOrEnd_of_isPrinted {c : Char} (printed : isPrinted c = true) : isBreakOrEnd c = false := by
  simp [isBreakOrEnd, isBreak_of_isPrinted printed, ne_of_isPrinted printed endMark (by decide)]

theorem isBlankOrEnd_of_isPrinted {c : Char} (printed : isPrinted c = true) : isBlankOrEnd c = (c == ' ') := by
  simp [isBlankOrEnd, isSpaceOrEnd, isBreakOrEnd_of_isPrinted printed, ne_of_isPrinted printed '\t' (by decide)]

@[simp] theorem length_newLine (indent : Nat) : (newLine indent).length = indent + 1 := by
  simp [newLine]

namespace Cursor

variable {c : Cursor} {w rest : List Char}

/-- The place after some text that is ahead. -/
def past (c : Cursor) (w : List Char) : Cursor :=
  c.skip w.length

@[simp] theorem past_nil (c : Cursor) : c.past [] = c := by
  simp [past, skip]

theorem past_cons (c : Cursor) (ch : Char) (w : List Char) : c.past (ch :: w) = c.next.past w := by
  simp [past, skip]

theorem past_append (c : Cursor) (v w : List Char) : c.past (v ++ w) = (c.past v).past w := by
  induction v generalizing c with
  | nil => simp
  | cons ch v ih => simp only [List.cons_append, past_cons, ih]

theorem next_of_rest {ch : Char} (ahead : c.rest = ch :: rest) :
    c.next.rest = rest ∧ c.next.index = c.index + 1 ∧
      c.next.line = (if endsLine ch rest then c.line + 1 else c.line) ∧
      c.next.column = if endsLine ch rest then 0 else if ch = '\ufeff' then c.column else c.column + 1 := by
  obtain ⟨size, text, index, line, column, bound⟩ := c
  subst ahead
  simp [next]

theorem rest_past (ahead : c.rest = w ++ rest) : (c.past w).rest = rest := by
  induction w generalizing c with
  | nil => simpa using ahead
  | cons ch w ih => rw [past_cons, ih (next_of_rest ahead).1]

theorem length_rest_past (ahead : c.rest = w ++ rest) (nonempty : w ≠ []) : rest.length < c.rest.length := by
  have positive := List.length_pos_of_ne_nil nonempty
  rw [ahead, List.length_append]
  omega

theorem index_past (ahead : c.rest = w ++ rest) : (c.past w).index = c.index + w.length := by
  induction w generalizing c with
  | nil => simp
  | cons ch w ih =>
    have ⟨more, index, _⟩ := next_of_rest ahead
    rw [past_cons, ih more, index, List.length_cons]
    omega

theorem line_past_le (ahead : c.rest = w ++ rest) : c.line ≤ (c.past w).line := by
  induction w generalizing c with
  | nil => simp
  | cons ch w ih =>
    have ⟨more, _, line, _⟩ := next_of_rest ahead
    have later := ih more
    rw [past_cons]
    split at line <;> omega

/-- A line feed ends a line. -/
theorem line_past_lt (ahead : c.rest = w ++ rest) (feed : '\n' ∈ w) : c.line < (c.past w).line := by
  obtain ⟨before, after, rfl⟩ := List.append_of_mem feed
  rw [List.append_assoc] at ahead
  have start := line_past_le ahead
  have here := rest_past ahead
  have ⟨more, _, line, _⟩ := next_of_rest here
  have onward := line_past_le more
  rw [past_append, past_cons]
  rw [if_pos (by simp [endsLine, isBreak])] at line
  omega

/-- Characters of one line move the column on. -/
theorem column_past (ahead : c.rest = w ++ rest) (printed : ∀ ch ∈ w, isPrinted ch = true) :
    (c.past w).column = c.column + w.length ∧ (c.past w).line = c.line := by
  induction w generalizing c with
  | nil => simp
  | cons ch w ih =>
    have ⟨more, _, line, column⟩ := next_of_rest ahead
    have here := printed ch (by simp)
    have stays (after : List Char) : endsLine ch after = false := by simp [endsLine, isBreak_of_isPrinted here]
    rw [stays, if_neg (by simp)] at line
    rw [stays, if_neg (by simp), if_neg (ne_of_isPrinted here '\ufeff' (by decide))] at column
    have ⟨columnPast, linePast⟩ := ih more fun other mem => printed other (List.mem_cons_of_mem _ mem)
    rw [past_cons, columnPast, linePast, column, line, List.length_cons]
    exact ⟨by omega, rfl⟩

theorem column_past_newLine {k : Nat} (ahead : c.rest = newLine k ++ rest) : (c.past (newLine k)).column = k := by
  have feed : c.rest = '\n' :: (List.replicate k ' ' ++ rest) := ahead
  have ⟨more, _, _, column⟩ := next_of_rest feed
  rw [if_pos (by simp [endsLine, isBreak])] at column
  have onward := column_past (c := c.next) more fun ch mem => by
    obtain rfl := List.eq_of_mem_replicate mem
    decide
  rw [newLine, past_cons, onward.1, column, List.length_replicate]
  omega

theorem head_of_rest {ch : Char} (ahead : c.rest = ch :: rest) : c.head = ch := by
  rw [head, ahead, List.headD_cons]

/-- What comes first in a text, or the mark of its end. -/
theorem head_eq (ahead : c.rest = rest) : c.head = rest.headD endMark := by
  rw [head, ahead]

theorem head_ne_of_rest {ch : Char} (ahead : c.rest = w ++ rest) (nonempty : w ≠ []) (apart : w.head? ≠ some ch) :
    (c.head == ch) = false := by
  obtain ⟨first, w, rfl⟩ := List.exists_cons_of_ne_nil nonempty
  rw [head_of_rest ahead]
  simpa using apart

theorem peek_one_of_rest {ch : Char} (ahead : c.rest = ch :: rest) : c.peek 1 = rest.headD endMark := by
  rw [peek, ahead]
  cases rest <;> rfl

theorem span_of_rest {p : Char → Bool} (ahead : c.rest = w ++ rest) (inside : ∀ ch ∈ w, p ch = true)
    (outside : ∀ ch ∈ rest.head?, p ch = false) : c.span p = (w, c.past w) := by
  have run : c.rest.takeWhile p = w := by
    rw [ahead, List.takeWhile_append_of_pos inside]
    cases rest with
    | nil => simp
    | cons ch rest => simp [outside ch rfl]
  rw [span, run, past]

theorem skipWhile_of_rest {p : Char → Bool} (ahead : c.rest = w ++ rest) (inside : ∀ ch ∈ w, p ch = true)
    (outside : ∀ ch ∈ rest.head?, p ch = false) : c.skipWhile p = c.past w := by
  rw [skipWhile, span_of_rest ahead inside outside]

theorem skipSpaces_of_rest {k : Nat} (ahead : c.rest = spaces k ++ rest) (stops : rest.head? ≠ some ' ') :
    c.skipSpaces = c.past (spaces k) := by
  refine skipWhile_of_rest ahead (fun ch mem => ?_) fun ch first => ?_
  · simpa [spaces] using List.eq_of_mem_replicate mem
  · have other : ch ≠ ' ' := by
      rintro rfl
      exact stops first
    simpa using other

theorem lineBreak_of_rest (ahead : c.rest = '\n' :: rest) : c.lineBreak = (['\n'], c.next) := by
  rw [lineBreak, ahead]
  simp [isBreak]

theorem peek_zero (c : Cursor) : c.peek 0 = c.head := by
  rw [peek, head]
  cases c.rest <;> rfl

theorem not_atMarks {c : Cursor} {mark : Char} (first : c.head ≠ mark) : c.atMarks mark = false := by
  simp [atMarks, peek_zero, first]

theorem not_atSeparator (c : Cursor) (first : c.head ≠ '-' ∧ c.head ≠ '.') : c.atSeparator = false := by
  simp [atSeparator, not_atMarks first.1, not_atMarks first.2]

end Cursor
end AgentConfig.Yaml
