import AgentConfig.Proofs.Yaml.Lexing
import AgentConfig.Proofs.Yaml.Readers

namespace AgentConfig.Yaml

/-- What holds of the tokens of a text: tags come from exclamation marks, plain scalars do not end in a line feed, and
faults are early ones. -/
def Token.StandsIn (text : List Char) : Token → Prop
  | .tag _ _ => '!' ∈ text
  | .scalar s true => ∃ w, s = some w ∧ Trimmed w
  | .fault e => e.isEarly
  | _ => True

theorem mem_of_head {c : Cursor} {ch : Char} (head : c.head = ch) (inside : ch ≠ endMark) : ch ∈ c.rest := by
  unfold Cursor.head at head
  cases ahead : c.rest with
  | nil =>
    rw [ahead] at head
    exact absurd head.symm inside
  | cons first rest =>
    rw [ahead] at head
    exact head ▸ List.mem_cons_self

namespace Lexer

theorem run_zero (s : Lexer) : run 0 s = s.tokens.reverse := by
  rfl

/-- A state of reading the tokens of a text. -/
structure Reads (text : List Char) (s : Lexer) : Prop where
  cursor : s.cursor.rest <:+ text
  tokens : ∀ t ∈ s.tokens, t.StandsIn text

variable {text : List Char} {s : Lexer} {t : Token} {c : Cursor}

/-- A step of reading goes on, or ends with an early error. -/
def Goes (text : List Char) : Except Error Lexer → Prop :=
  Settles (Reads text) fun e => e.isEarly

namespace Reads

theorem at_cursor (reads : Reads text s) (later : c.rest <:+ s.cursor.rest) : Reads text { s with cursor := c } :=
  ⟨later.trans reads.cursor, reads.tokens⟩

theorem push (reads : Reads text s) (stands : t.StandsIn text) : Reads text (s.push t) :=
  ⟨reads.cursor, List.forall_mem_cons.mpr ⟨stands, reads.tokens⟩⟩

theorem insert (reads : Reads text s) (number : Nat) (stands : t.StandsIn text) : Reads text (s.insert number t) := by
  refine ⟨reads.cursor, fun t' member => ?_⟩
  rcases List.mem_append.mp member with newer | older
  · exact reads.tokens t' (List.mem_of_mem_take newer)
  · rcases List.mem_cons.mp older with rfl | older
    · exact stands
    · exact reads.tokens t' (List.mem_of_mem_drop older)

theorem take (reads : Reads text s) (n : Nat) (stands : t.StandsIn text) : Reads text (s.take n t) :=
  (reads.push stands).at_cursor (s.cursor.suffix_skip n)

theorem unwind (column : Int) (indents : List Nat) (reads : Reads text s) : Reads text (unwind column indents s) := by
  induction indents generalizing s with
  | nil => exact ⟨reads.cursor, reads.tokens⟩
  | cons open_ rest ih =>
    rw [Lexer.unwind]
    split_ifs
    · exact ih (reads.push trivial)
    · exact ⟨reads.cursor, reads.tokens⟩

theorem unwindTo (reads : Reads text s) (column : Int) : Reads text (s.unwindTo column) := by
  unfold Lexer.unwindTo
  split_ifs
  · exact reads
  · exact reads.unwind column s.indents

theorem skipToToken (fuel : Nat) (reads : Reads text s) : Reads text (skipToToken fuel s) := by
  have comment (s : Lexer) : s.cursor.skipSpaces.skipComment.rest <:+ s.cursor.rest :=
    (Cursor.suffix_skipComment _).trans s.cursor.suffix_skipSpaces
  induction fuel generalizing s with
  | zero => exact reads
  | succ fuel ih =>
    rw [Lexer.skipToToken]
    split_ifs
    · exact ih ⟨((Cursor.suffix_lineBreak _).trans (comment s)).trans reads.cursor, reads.tokens⟩
    · exact reads.at_cursor (comment s)

theorem skipMark (reads : Reads text s) : Reads text s.skipMark := by
  unfold Lexer.skipMark
  split_ifs
  · exact reads.at_cursor s.cursor.suffix_next
  · exact reads

theorem dropStale (reads : Reads text s) : Goes text s.dropStale := by
  unfold Lexer.dropStale
  dsimp only
  split_ifs
  · rfl
  · exact ⟨reads.cursor, reads.tokens⟩

theorem removeKey (reads : Reads text s) : Goes text s.removeKey := by
  unfold Lexer.removeKey
  split
  · split_ifs
    · rfl
    · exact ⟨reads.cursor, reads.tokens⟩
  · exact reads

theorem saveKey (reads : Reads text s) : Goes text s.saveKey := by
  unfold Lexer.saveKey
  split_ifs
  · exact reads
  · exact reads.removeKey.bind fun s reads => ⟨reads.cursor, reads.tokens⟩

theorem openBlock (reads : Reads text s) (column : Nat) : ∀ s' ∈ s.openBlock column, Reads text s' := by
  unfold Lexer.openBlock
  split_ifs
  · rintro _ ⟨⟩
    exact ⟨reads.cursor, reads.tokens⟩
  · simp

theorem openFor (reads : Reads text s) (stands : t.StandsIn text) (fault : LexicalFault) : Goes text (s.openFor t fault) := by
  unfold Lexer.openFor
  split_ifs
  · exact reads
  · rfl
  · cases opened : s.openBlock s.cursor.column with
    | none => exact reads
    | some s' => exact (reads.openBlock _ s' opened).push stands

theorem endText (reads : Reads text s) : Goes text s.endText :=
  (reads.unwindTo (-1)).removeKey.bind fun _ reads => reads.push trivial

/-- A reader of characters leaves the tokens as they are. -/
theorem reading {α : Type} {x : Except Error (α × Cursor)} {f : α × Cursor → Except Error Lexer} (reads : Reads text s)
    (leads : Leads s.cursor x) (next : ∀ a c, Reads text { s with cursor := c } → Goes text (f (a, c))) :
    Goes text (x >>= f) :=
  leads.settles.bind fun (a, c) later => next a c (reads.at_cursor later)

theorem directive (reads : Reads text s) : Goes text s.directive := by
  refine (reads.unwindTo (-1)).removeKey.bind fun s reads => ?_
  exact reads.reading (leads_readDirective s.cursor) fun d c reads =>
    ⟨reads.cursor, (reads.push (t := .directive d) trivial).tokens⟩

theorem documentMarks (reads : Reads text s) (stands : t.StandsIn text) : Goes text (s.documentMarks t) := by
  refine (reads.unwindTo (-1)).removeKey.bind fun _ reads => ?_
  have read := reads.take 3 stands
  exact ⟨read.cursor, read.tokens⟩

theorem flowStart (reads : Reads text s) (stands : t.StandsIn text) : Goes text (s.flowStart t) := by
  refine reads.saveKey.bind fun _ reads => ?_
  have read := reads.take 1 stands
  exact ⟨read.cursor, read.tokens⟩

theorem flowEnd (reads : Reads text s) (stands : t.StandsIn text) : Goes text (s.flowEnd t) := by
  refine reads.removeKey.bind fun _ reads => ?_
  have read := reads.take 1 stands
  exact ⟨read.cursor, read.tokens⟩

theorem flowComma (reads : Reads text s) : Goes text s.flowComma := by
  refine reads.removeKey.bind fun _ reads => ?_
  have read := reads.take (t := .comma) 1 trivial
  exact ⟨read.cursor, read.tokens⟩

theorem blockEntry (reads : Reads text s) : Goes text s.blockEntry := by
  refine (reads.openFor (t := .sequenceStart) trivial .sequenceEntry).bind fun _ reads => ?_
  refine reads.removeKey.bind fun _ reads => ?_
  have read := reads.take (t := .entry) 1 trivial
  exact ⟨read.cursor, read.tokens⟩

theorem explicitKey (reads : Reads text s) : Goes text s.explicitKey := by
  refine (reads.openFor (t := .mappingStart) trivial .mappingKey).bind fun _ reads => ?_
  refine reads.removeKey.bind fun _ reads => ?_
  have read := reads.take (t := .key) 1 trivial
  exact ⟨read.cursor, read.tokens⟩

theorem colon (reads : Reads text s) : Goes text s.colon := by
  unfold Lexer.colon
  split
  · next key rest _ =>
    have unkeyed : Reads text { s with keys := none :: rest, allowKey := false } := ⟨reads.cursor, reads.tokens⟩
    have marked := unkeyed.insert (t := .key) key.number trivial
    dsimp only
    split_ifs
    · exact marked.take (t := .value) 1 trivial
    · cases opened : Lexer.openBlock _ key.column with
      | none => exact marked.take (t := .value) 1 trivial
      | some s' => exact ((marked.openBlock _ s' opened).insert (t := .mappingStart) _ trivial).take (t := .value) 1 trivial
  · refine (reads.openFor (t := .mappingStart) trivial .mappingValue).bind fun _ reads => ?_
    refine reads.removeKey.bind fun _ reads => ?_
    have read := reads.take (t := .value) 1 trivial
    exact ⟨read.cursor, read.tokens⟩

theorem keyToken {read : Cursor → Except Error (Token × Cursor)} (reads : Reads text s)
    (stands : ∀ c, Settles (fun r => r.1.StandsIn text ∧ r.2.rest <:+ c.rest) (·.isEarly) (read c)) :
    Goes text (s.keyToken read) := by
  refine reads.saveKey.bind fun s reads => ?_
  refine Settles.bind (stands s.cursor) fun r found => ?_
  obtain ⟨stands, later⟩ := found
  exact ⟨later.trans reads.cursor, (reads.push stands).tokens⟩

theorem blockScalar (reads : Reads text s) : Goes text s.blockScalar := by
  refine reads.removeKey.bind fun s reads => ?_
  exact reads.reading (leads_readBlock s.indent s.cursor) fun w c reads =>
    ⟨reads.cursor, (reads.push (t := .scalar (some w) false) trivial).tokens⟩

theorem plainScalar (reads : Reads text s) : Goes text s.plainScalar := by
  refine reads.saveKey.bind fun s reads => ?_
  have stands : Token.StandsIn text (.scalar (some (readPlain s.inFlow (s.indent + 1).toNat s.cursor).text) true) :=
    ⟨_, rfl, trimmed_readPlain _ _ _⟩
  exact ⟨(suffix_readPlain ..).trans reads.cursor, (reads.push stands).tokens⟩

theorem token (reads : Reads text s) : Goes text s.token := by
  unfold Lexer.token
  dsimp only
  split
  · exact reads.endText
  · exact reads.flowStart (t := .flowSequenceStart) trivial
  · exact reads.flowStart (t := .flowMappingStart) trivial
  · exact reads.flowEnd (t := .flowSequenceEnd) trivial
  · exact reads.flowEnd (t := .flowMappingEnd) trivial
  · exact reads.flowComma
  · exact reads.keyToken fun c => (leads_readName _ c.next).settles.bind fun _ later => ⟨trivial, later.trans c.suffix_next⟩
  · exact reads.keyToken fun c => (leads_readName _ c.next).settles.bind fun _ later => ⟨trivial, later.trans c.suffix_next⟩
  · next head =>
    have marked : '!' ∈ text := reads.cursor.subset (mem_of_head head (by decide))
    refine reads.keyToken fun c => ((leads_readTag c).settles.and (exists_tag_of_readTag c)).mono ?_
    rintro ⟨_, c'⟩ ⟨later, handle, suffix, rfl⟩
    exact ⟨marked, later⟩
  · exact reads.keyToken fun c => (leads_readQuoted c).settles.bind fun _ later => ⟨trivial, later⟩
  · exact reads.keyToken fun c => (leads_readQuoted c).settles.bind fun _ later => ⟨trivial, later⟩
  · split_ifs
    · exact reads.directive
    · exact reads.documentMarks (t := .documentStart) trivial
    · exact reads.documentMarks (t := .documentEnd) trivial
    · exact reads.blockEntry
    · exact reads.explicitKey
    · exact reads.colon
    · exact reads.blockScalar
    · exact reads.plainScalar
    · rfl

theorem step (reads : Reads text s) : Goes text s.step :=
  (reads.skipMark.skipToToken _).dropStale.bind fun s reads => (reads.unwindTo s.cursor.column).token

theorem certain (reads : Reads text s) : ∀ t ∈ s.certain, t.StandsIn text := fun t member =>
  reads.tokens t (List.mem_reverse.mp (List.mem_of_mem_take member))

theorem run (fuel : Nat) (reads : Reads text s) : ∀ t ∈ Lexer.run fuel s, t.StandsIn text := by
  -- An error leaves the tokens that are certain, whichever of the two steps it comes from.
  have stopped {s : Lexer} (reads : Reads text s) {e : Error} (early : e.isEarly) :
      ∀ t ∈ s.certain ++ [.fault e], t.StandsIn text := by
    intro t member
    rcases List.mem_append.mp member with earlier | last
    · exact reads.certain t earlier
    · rwa [List.mem_singleton.mp last]
  induction fuel generalizing s with
  | zero =>
    intro t member
    rw [run_zero, List.mem_reverse] at member
    exact reads.tokens t member
  | succ fuel ih =>
    rw [run_succ]
    have stepped := reads.step
    cases taken : s.step with
    | error e =>
      rw [taken] at stepped
      exact stopped reads stepped
    | ok s' =>
      rw [taken] at stepped
      dsimp only
      split
      · exact fun t member => stepped.tokens t (List.mem_reverse.mp member)
      · have fresh := stepped.dropStale
        cases dropped : s'.dropStale with
        | error e =>
          rw [dropped] at fresh
          exact stopped reads fresh
        | ok next =>
          rw [dropped] at fresh
          exact ih fresh

end Reads

end Lexer

/-- What holds of the tokens of a text holds of all of them. -/
theorem standsIn_tokensOf (text : List Char) : ∀ t ∈ tokensOf text, t.StandsIn text := by
  unfold tokensOf
  split
  · simp [Token.StandsIn, Error.isEarly]
  · exact Lexer.Reads.run _ ⟨List.suffix_rfl, by simp [Lexer.start]⟩

end AgentConfig.Yaml
