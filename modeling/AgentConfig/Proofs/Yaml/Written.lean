import AgentConfig.Proofs.Yaml.Number
import AgentConfig.Proofs.Yaml.Quoted
import AgentConfig.Proofs.Yaml.Tokens

namespace AgentConfig.Yaml

/-- A text of line feeds and the visible part of ASCII. -/
def Visible (w : List Char) : Prop :=
  ∀ c ∈ w, isVisible c = true

namespace Visible

variable {c : Char} {v w : List Char}

@[simp] theorem nil : Visible [] := by
  simp [Visible]

@[simp] theorem cons_iff : Visible (c :: w) ↔ isVisible c = true ∧ Visible w := by
  simp [Visible]

@[simp] theorem append_iff : Visible (v ++ w) ↔ Visible v ∧ Visible w := by
  simp [Visible, or_imp, forall_and]

theorem of_isPrinted (printed : ∀ c ∈ w, isPrinted c = true) : Visible w := by
  intro c mem
  have shown := printed c mem
  simp only [isPrinted, isVisible, Bool.or_eq_true] at shown ⊢
  exact .inr shown

theorem isAcceptable (visible : isVisible c = true) : Yaml.isAcceptable c = true := by
  simp only [isVisible, Bool.or_eq_true, Bool.and_eq_true, decide_eq_true_eq, beq_iff_eq] at visible
  rcases visible with rfl | ⟨low, high⟩
  · decide
  · have least : 32 ≤ c.toNat := low
    have most : c.toNat ≤ 126 := high
    simp [Yaml.isAcceptable, least, most]

end Visible

theorem visible_spaces (k : Nat) : Visible (spaces k) := by
  intro c mem
  rw [List.eq_of_mem_replicate mem]
  decide

@[simp] theorem visible_newLine (indent : Nat) : Visible (newLine indent) :=
  Visible.cons_iff.2 ⟨by decide, visible_spaces indent⟩

section scalar

variable {s : List Char}

theorem visible_writePlain (visible : Visible s) (indent : Nat) (afterSpace : Bool) (column : Nat) :
    Visible (writePlain indent afterSpace column s) := by
  induction s generalizing afterSpace column with
  | nil => exact .nil
  | cons c s ih =>
    obtain ⟨here, rest⟩ := Visible.cons_iff.1 visible
    rw [writePlain]
    split
    · simp [ih rest]
    · simp [here, ih rest]

theorem visible_writeSingle (visible : Visible s) (indent : Nat) (before : Char) (column : Nat) :
    Visible (writeSingle indent before column s) := by
  have feed : isVisible '\n' = true := by decide
  have quote : isVisible '\'' = true := by decide
  induction s generalizing before column with
  | nil => exact .nil
  | cons c s ih =>
    obtain ⟨here, rest⟩ := Visible.cons_iff.1 visible
    rw [writeSingle]
    split
    · have mark : Visible (if before = '\n' then [] else ['\n']) := by
        split <;> simp [feed]
      have line : Visible (if s.head? = some '\n' then '\n' :: writeSingle indent c 0 s
          else newLine indent ++ writeSingle indent c indent s) := by
        split <;> simp [feed, ih rest]
      exact Visible.append_iff.2 ⟨mark, line⟩
    · split
      · simp [quote, ih rest]
      · split
        · simp [ih rest]
        · simp [here, ih rest]

theorem visible_hexDigits (width n : Nat) : Visible (upperHex width n) := by
  have digits : ∀ n < 16, isVisible (Nat.digitChar n).toUpper = true := by decide
  rw [upperHex]
  induction width generalizing n with
  | zero => simp [Text.hexDigits]
  | succ width ih =>
    rw [Text.hexDigits, List.map_append]
    exact Visible.append_iff.2 ⟨ih _, by simpa using digits _ (Nat.mod_lt n (by decide))⟩

theorem visible_escape {c : Char} {form : List Char} (written : escape? c = some form) : Visible form := by
  have short : ∀ pair ∈ shortEscapes, isVisible pair.2 = true := by decide
  have slash : isVisible '\\' = true := by decide
  have letters : isVisible 'x' = true ∧ isVisible 'u' = true ∧ isVisible 'U' = true := by decide
  rw [escape?] at written
  split at written
  · next letter found =>
    obtain rfl := Option.some.inj written
    obtain ⟨before, after, table, -⟩ := List.lookup_eq_some_iff.1 found
    simp [slash, short (c, letter) (by simp [table])]
  · split_ifs at written <;> obtain rfl := Option.some.inj written <;>
      simp [slash, letters, visible_hexDigits]

theorem visible_writeDouble (indent : Nat) (first afterEscape : Bool) (column : Nat) (s : List Char) :
    Visible (writeDouble indent first afterEscape column s) := by
  have slash : isVisible '\\' = true := by decide
  have mark (p : Prop) [Decidable p] : Visible (if p then ['\\'] else []) := by
    split <;> simp [slash]
  induction s generalizing first afterEscape column with
  | nil => exact .nil
  | cons c s ih =>
    rw [writeDouble]
    cases escaped : escape? c with
    | some form =>
      have shown := visible_escape escaped
      simp only
      generalize (!first && !s.isEmpty && decide (lineWidth + 1 < column + form.length)) = folds
      cases folds <;> simp [slash, shown, mark, ih]
    | none =>
      have shown : Visible [c] := .of_isPrinted (by simpa using (isPrinted_of_escape? escaped).1)
      rw [Visible.cons_iff] at shown
      simp only
      generalize (!first && !s.isEmpty && (c == ' ' || afterEscape) && decide (lineWidth < column)) = folds
      cases folds <;> simp [slash, shown, mark, ih]

theorem visible_writeText (indent column : Nat) (s : List Char) : Visible (writeText indent column s) := by
  have quotes : isVisible '\'' = true ∧ isVisible '"' = true := by decide
  rw [writeText]
  cases style : styleOf s with
  | plain =>
    obtain ⟨-, allowed⟩ := styleOf_eq_plain style
    simp only [allowsPlain, Bool.and_eq_true] at allowed
    refine visible_writePlain (fun c mem => ?_) _ _ _
    have shown := List.all_eq_true.1 allowed.1.1.1 c mem
    simp only [Bool.and_eq_true] at shown
    exact shown.1
  | single =>
    have allowed : allowsSingle s = true := by
      rw [styleOf] at style
      split_ifs at style with plain single
      exact single
    simp only [allowsSingle, Bool.and_eq_true] at allowed
    simp [quotes, visible_writeSingle (List.all_eq_true.1 allowed.1.1)]
  | double => simp [quotes, visible_writeDouble]

theorem Bare.visible (bare : Bare s) : Visible s :=
  .of_isPrinted fun c mem => (bare.word.printed c mem).1

end scalar

theorem IsKey.visible {key : List Char} (isKey : IsKey key) : Visible key :=
  .of_isPrinted fun c mem => (isKey.printed c mem).1

theorem visible_words : isVisible '-' = true ∧ isVisible ' ' = true ∧ isVisible ':' = true := by
  decide

mutual
theorem visible_writeAfter (indent column : Nat) (dash : Bool) : ∀ t : Tree, (∀ key ∈ t.keys, IsKey key.toList) →
    Visible (writeAfter indent column dash t)
  | .null, _ => .of_isPrinted (by rw [writeAfter]; decide)
  | .bool b, _ => .of_isPrinted (by cases b <;> rw [writeAfter] <;> decide)
  | .int n, _ => by simp [writeAfter, visible_words, (bare_writeInt n).visible]
  | .float x, _ => by simp [writeAfter, visible_words, (bare_write x).visible]
  | .text s, _ => by simp [writeAfter, visible_words, visible_writeText]
  | .list [], _ => .of_isPrinted (by rw [writeAfter]; decide)
  | .record [], _ => .of_isPrinted (by rw [writeAfter]; decide)
  | .list (t :: rest), keys => by
    rw [Tree.keys, Tree.itemKeys] at keys
    have first (indent column : Nat) := visible_writeAfter indent column true t fun key mem =>
      keys key (List.mem_append_left _ mem)
    have others (indent : Nat) := visible_writeItems indent rest fun key mem => keys key (List.mem_append_right _ mem)
    cases dash <;> simp [writeAfter, visible_words, first, others]
  | .record ((key, t) :: rest), keys => by
    rw [Tree.keys, Tree.entryKeys] at keys
    have isKey := keys key List.mem_cons_self
    have first (column : Nat) := visible_writeAfter (indent + 2) column false t fun k mem =>
      keys k (List.mem_cons_of_mem _ (List.mem_append_left _ mem))
    have others := visible_writeEntries (indent + 2) rest fun k mem =>
      keys k (List.mem_cons_of_mem _ (List.mem_append_right _ mem))
    cases dash <;> simp [writeAfter, visible_words, isKey.visible, first, others]

theorem visible_writeItems (indent : Nat) : ∀ items : List Tree, (∀ key ∈ Tree.itemKeys items, IsKey key.toList) →
    Visible (writeItems indent items)
  | [], _ => .nil
  | t :: rest, keys => by
    rw [Tree.itemKeys] at keys
    have first := visible_writeAfter indent (indent + 1) true t fun key mem => keys key (List.mem_append_left _ mem)
    have others := visible_writeItems indent rest fun key mem => keys key (List.mem_append_right _ mem)
    simp [writeItems, visible_words, first, others]

theorem visible_writeEntries (indent : Nat) : ∀ entries : List (String × Tree),
    (∀ key ∈ Tree.entryKeys entries, IsKey key.toList) → Visible (writeEntries indent entries)
  | [], _ => .nil
  | (key, t) :: rest, keys => by
    rw [Tree.entryKeys] at keys
    have isKey := keys key List.mem_cons_self
    have first := visible_writeAfter indent (indent + key.toList.length + 1) false t fun k mem =>
      keys k (List.mem_cons_of_mem _ (List.mem_append_left _ mem))
    have others := visible_writeEntries indent rest fun k mem =>
      keys k (List.mem_cons_of_mem _ (List.mem_append_right _ mem))
    simp [writeEntries, visible_words, isKey.visible, first, others]
end

/-- The lines of a record are visible, so they are a text that may be read. -/
theorem visible_writeRecord {entries : List (String × Tree)} (keys : ∀ key ∈ Tree.entryKeys entries, IsKey key.toList) :
    Visible (writeRecord entries) := by
  have feed : isVisible '\n' = true := by decide
  cases entries with
  | nil =>
    intro c mem
    rw [writeRecord] at mem
    revert c
    decide
  | cons entry rest =>
    obtain ⟨key, t⟩ := entry
    rw [Tree.entryKeys] at keys
    have isKey := keys key List.mem_cons_self
    have first (column : Nat) := visible_writeAfter 0 column false t fun k mem =>
      keys k (List.mem_cons_of_mem _ (List.mem_append_left _ mem))
    have others := visible_writeEntries 0 rest fun k mem => keys k (List.mem_cons_of_mem _ (List.mem_append_right _ mem))
    simp [writeRecord, feed, visible_words, isKey.visible, first, others]

namespace Lexer

/-- At the end of a text the block that is still open is closed. -/
theorem token_end {c : Cursor} {allowKey : Bool} {tokens : List Token} (ends : c.rest = []) :
    (place c [0] [none] allowKey tokens).token = .ok (place c [] [none] allowKey (.textEnd :: .blockEnd :: tokens)) := by
  have head : c.head = '\x00' := Cursor.head_eq ends
  rw [token]
  simp only [cursor_place, head]
  rfl

end Lexer

/-- The lines of a record are read as its tokens. -/
theorem tokensOf_writeRecord {entries : List (String × Tree)} (keys : ∀ key ∈ Tree.entryKeys entries, IsKey key.toList)
    (narrow : 2 * Tree.entryDepth entries + 2 < lineWidth) :
    tokensOf (writeRecord entries) = tokensFor false (.record entries) ++ [.textEnd] := by
  have accepted : (writeRecord entries).find? (!isAcceptable ·) = none := by
    rw [List.find?_eq_none]
    intro c mem
    simp [Visible.isAcceptable (visible_writeRecord keys c mem)]
  rw [tokensOf, accepted]
  cases entries with
  | nil => rfl
  | cons entry rest =>
    obtain ⟨key, t⟩ := entry
    have text : (Cursor.start (writeRecord ((key, t) :: rest))).rest = key.toList ++ ':' ::
        (writeAfter 0 (key.toList.length + 1) false t ++ (writeEntries 0 rest ++ (newLine 0 ++ []))) := by
      simp [Cursor.start, writeRecord, newLine]
    have onset : Onset (writeRecord ((key, t) :: rest)) := by
      have first := (keys key (by simp [Tree.entryKeys])).onset
      rw [writeRecord, List.append_assoc, List.append_assoc]
      exact first _
    -- The text is not computed any further, which keeps the states of the scanner small.
    generalize whole : writeRecord ((key, t) :: rest) = w at text onset
    have start : (Lexer.start w).arrive = .ok (Lexer.place (.start w) [] [none] true []) := by
      refine (Lexer.arrive_here rfl (.of_onset onset)).trans ?_
      rw [Lexer.land_stay (by simp)]
    have lands : Lexer.Lands (Lexer.place (.start w) [] [none] true []) 0 [] [0]
        ((entryTokens ((key, t) :: rest)).reverse ++ ([.mappingStart] ++ [])) :=
      Lexer.lands_entries (Lexer.readsTree t) (Lexer.readsEntries rest) keys (by omega) text (.deeper (by simp)) rfl le_rfl
        (.inl rfl)
    obtain ⟨c, ends, column, reaches⟩ := lands
    rw [Lexer.land_stay (by simp [column])] at reaches
    have enough : (Lexer.place (.start w) [] [none] true []).cursor.rest.length < w.length + 2 := by
      simp [Cursor.start]
    refine (Lexer.run_of_reaches start reaches (Lexer.token_end ends) rfl enough).trans ?_
    simp [Lexer.place, tokensFor, entryTokens]

end AgentConfig.Yaml
