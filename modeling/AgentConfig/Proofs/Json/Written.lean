import AgentConfig.Proofs.Json.Reader

namespace AgentConfig.Json

/-- A text without carriage returns that has room for a character of each leaf. -/
structure Carries (text : List Char) (leaves : List Tree) : Prop where
  clean : ∀ c ∈ text, c ≠ '\r'
  room : leaves.length ≤ text.length

namespace Carries

variable {a b : List Char} {ls ms : List Tree}

theorem append (first : Carries a ls) (second : Carries b ms) : Carries (a ++ b) (ls ++ ms) where
  clean c member := (List.mem_append.mp member).elim (first.clean c) (second.clean c)
  room := by
    have lengths := Nat.add_le_add first.room second.room
    simpa using lengths

theorem mark (clean : ∀ c ∈ a, c ≠ '\r') : Carries a [] :=
  ⟨clean, Nat.zero_le _⟩

/-- Text in front of the leaves. -/
theorem behind (carries : Carries b ls) (clean : ∀ c ∈ a, c ≠ '\r') : Carries (a ++ b) ls :=
  (mark clean).append carries

theorem leaf (clean : ∀ c ∈ a, c ≠ '\r') (nonempty : a ≠ []) (t : Tree) : Carries a [t] :=
  ⟨clean, List.length_pos_iff.mpr nonempty⟩

end Carries

theorem textChar_ne_return (c d : Char) (member : d ∈ textChar c) : d ≠ '\r' := by
  have hex : ∀ n < 32, ∀ d ∈ Text.hexDigits 4 n, d ≠ '\r' := by decide
  unfold textChar at member
  split_ifs at member with quote backslash backspace tab feed form carriage control
  iterate 7
    revert d
    decide
  · obtain rfl | rfl | digit := by simpa only [List.mem_cons] using member
    · decide
    · decide
    · exact hex _ control d digit
  · rw [List.mem_singleton.mp member]
    exact carriage

theorem writeText_ne_return (s : String) : ∀ c ∈ writeText s, c ≠ '\r' := by
  intro c member
  obtain rfl | ⟨d, -, inside⟩ | rfl : c = '"' ∨ (∃ d ∈ s.toList, c ∈ textChar d) ∨ c = '"' := by
    simpa [writeText] using member
  · decide
  · exact textChar_ne_return d c inside
  · decide

theorem numberChars_ne_return : ∀ c ∈ numberChars, c ≠ '\r' := by
  decide

theorem writeInt_ne_return (n : Int) : ∀ c ∈ writeInt n, c ≠ '\r' := by
  have digits : ∀ c ∈ decimalDigits n.natAbs, c ≠ '\r' := fun c member =>
    numberChars_ne_return c (mem_numberChars_of_isDigit (isDigit_of_mem_decimalDigits member))
  unfold writeInt
  split
  · intro c member
    obtain rfl | member := List.mem_cons.mp member
    · decide
    · exact digits c member
  · exact digits

theorem write_ne_return (x : Binary64) : ∀ c ∈ numberLayout.write x, c ≠ '\r' := by
  cases x with
  | nan => decide
  | infinite negative => cases negative <;> decide
  | finite negative rank =>
    obtain ⟨parts, text, wellFormed, -⟩ := numberLayout.rank_parts rank
    rw [NumberLayout.write, ← text]
    intro c member
    have number : c = '-' ∨ c ∈ parts.text := by
      cases negative with
      | true => simpa [NumberLayout.signed] using member
      | false => exact .inr (by simpa [NumberLayout.signed] using member)
    obtain rfl | inside := number
    · decide
    · exact numberChars_ne_return c (wellFormed.mem_numberChars inside)

theorem writeInt_ne_nil (n : Int) : writeInt n ≠ [] := by
  unfold writeInt
  split
  · simp
  · exact decimalDigits_ne_nil _

theorem write_ne_nil (x : Binary64) : numberLayout.write x ≠ [] := by
  cases x with
  | nan => decide
  | infinite negative => cases negative <;> decide
  | finite negative rank =>
    obtain ⟨parts, text, wellFormed, -⟩ := numberLayout.rank_parts rank
    rw [NumberLayout.write, ← text]
    cases negative <;> simp [NumberLayout.signed, NumberParts.text, wellFormed.whole_ne_nil]

theorem lineBreak_ne_return (indent : Indent) (level : Nat) : ∀ c ∈ lineBreak indent level, c ≠ '\r' := by
  cases indent with
  | none => simp [lineBreak]
  | some width =>
    intro c member
    obtain rfl | member := List.mem_cons.mp member
    · decide
    · rw [List.eq_of_mem_replicate member]
      decide

theorem writeKey_ne_return (indent : Indent) (key : String) : ∀ c ∈ writeKey indent key, c ≠ '\r' := by
  intro c member
  rw [writeKey, List.mem_append, List.mem_cons] at member
  rcases member with text | rfl | space
  · exact writeText_ne_return key c text
  · decide
  · split at space
    · rw [List.mem_singleton.mp space]
      decide
    · simp at space

theorem mark_ne_return {c : Char} (mark : c ∈ ['[', ']', '{', '}', ',']) : ∀ d ∈ [c], d ≠ '\r' := by
  have clean : ∀ d ∈ ['[', ']', '{', '}', ','], d ≠ '\r' := by decide
  intro d member
  rw [List.mem_singleton.mp member]
  exact clean c mark

mutual
theorem carries_writeAt (indent : Indent) (level : Nat) : ∀ t : Tree, Carries (writeAt indent level t) t.leaves
  | .null => .leaf (by rw [writeAt]; decide) (by rw [writeAt]; decide) _
  | .bool b => .leaf (by cases b <;> rw [writeAt] <;> decide) (by cases b <;> rw [writeAt] <;> decide) _
  | .int n => .leaf (writeInt_ne_return n) (writeInt_ne_nil n) _
  | .float x => .leaf (write_ne_return x) (write_ne_nil x) _
  | .text s => .leaf (writeText_ne_return s) (by simp [writeText]) _
  | .list [] => .mark (by rw [writeAt]; decide)
  | .record [] => .mark (by rw [writeAt]; decide)
  | .list (t :: rest) => by
    have first := (carries_writeAt indent (level + 1) t).behind (lineBreak_ne_return indent (level + 1))
    have others := carries_writeItems indent level rest
    have whole := (first.behind (mark_ne_return (c := '[') (by decide))).append others
    simpa [writeAt, Tree.leaves, Tree.itemLeaves] using whole
  | .record ((key, t) :: rest) => by
    have first := (carries_writeAt indent (level + 1) t).behind (writeKey_ne_return indent key)
    have others := carries_writeEntries indent level rest
    have line := first.behind (lineBreak_ne_return indent (level + 1))
    have whole := (line.behind (mark_ne_return (c := '{') (by decide))).append others
    simpa [writeAt, Tree.leaves, Tree.entryLeaves] using whole

theorem carries_writeItems (indent : Indent) (level : Nat) : ∀ items : List Tree,
    Carries (writeItems indent level items) (Tree.itemLeaves items)
  | [] => (Carries.mark (mark_ne_return (by decide))).behind (lineBreak_ne_return indent level)
  | t :: rest => by
    have first := (carries_writeAt indent (level + 1) t).behind (lineBreak_ne_return indent (level + 1))
    have others := carries_writeItems indent level rest
    have whole := (first.behind (mark_ne_return (c := ',') (by decide))).append others
    simpa [writeItems, Tree.itemLeaves] using whole

theorem carries_writeEntries (indent : Indent) (level : Nat) : ∀ entries : List (String × Tree),
    Carries (writeEntries indent level entries) (Tree.entryLeaves entries)
  | [] => (Carries.mark (mark_ne_return (by decide))).behind (lineBreak_ne_return indent level)
  | (key, t) :: rest => by
    have first := (carries_writeAt indent (level + 1) t).behind (writeKey_ne_return indent key)
    have others := carries_writeEntries indent level rest
    have line := first.behind (lineBreak_ne_return indent (level + 1))
    have whole := (line.behind (mark_ne_return (c := ',') (by decide))).append others
    simpa [writeEntries, Tree.entryLeaves] using whole
end

end AgentConfig.Json
