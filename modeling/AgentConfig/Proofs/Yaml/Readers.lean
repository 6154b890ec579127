import AgentConfig.Proofs.Except
import AgentConfig.Yaml.Lexer

namespace AgentConfig.Yaml

/-- Faults of single characters and of numbers that are no scalars. -/
def ScalarFault.isLexical : ScalarFault → Bool
  | .tooManyDigits _ | .codePoint | .codePointSize => true
  | _ => false

/-- Errors that a text may have before any scalar is made a value. -/
def Error.isEarly : Error → Bool
  | .scalar fault => fault.isLexical
  | _ => true

namespace Cursor

theorem suffix_next (c : Cursor) : c.next.rest <:+ c.rest := by
  obtain ⟨size, _ | ⟨ch, rest⟩, index, line, column, bound⟩ := c
  · exact List.suffix_rfl
  · exact List.suffix_cons ch rest

theorem suffix_skip (n : Nat) (c : Cursor) : (c.skip n).rest <:+ c.rest := by
  induction n generalizing c with
  | zero => exact List.suffix_rfl
  | succ n ih => exact (ih c.next).trans c.suffix_next

theorem suffix_span (p : Char → Bool) (c : Cursor) : (c.span p).2.rest <:+ c.rest :=
  c.suffix_skip _

theorem suffix_skipWhile (p : Char → Bool) (c : Cursor) : (c.skipWhile p).rest <:+ c.rest :=
  c.suffix_span p

theorem suffix_skipSpaces (c : Cursor) : c.skipSpaces.rest <:+ c.rest :=
  c.suffix_skipWhile _

theorem suffix_skipComment (c : Cursor) : c.skipComment.rest <:+ c.rest := by
  unfold skipComment
  split_ifs
  · exact c.suffix_skipWhile _
  · exact List.suffix_rfl

theorem suffix_lineBreak (c : Cursor) : c.lineBreak.2.rest <:+ c.rest := by
  unfold lineBreak
  split
  · exact c.suffix_skip 2
  · split_ifs
    · exact c.suffix_next
    · exact c.suffix_next
    · exact List.suffix_rfl
  · exact List.suffix_rfl

end Cursor

/-- A reader ends at a later place of the text, or with an early error. -/
structure Leads {α : Type} (c : Cursor) (x : Except Error (α × Cursor)) : Prop where
  settles : Settles (fun r => r.2.rest <:+ c.rest) (·.isEarly) x

namespace Leads

variable {α β : Type} {c c' : Cursor} {x : Except Error (α × Cursor)}

theorem ok {a : α} (later : c'.rest <:+ c.rest) : Leads c (.ok (a, c')) :=
  ⟨later⟩

theorem error {e : Error} (early : e.isEarly) : Leads c (.error e : Except Error (α × Cursor)) :=
  ⟨early⟩

theorem trans (leads : Leads c' x) (later : c'.rest <:+ c.rest) : Leads c x :=
  ⟨leads.settles.mono fun _ further => further.trans later⟩

theorem bind {f : α × Cursor → Except Error (β × Cursor)} (first : Leads c x) (next : ∀ a c', Leads c' (f (a, c'))) :
    Leads c (x >>= f) :=
  ⟨first.settles.bind fun (a, c') later => ((next a c').trans later).settles⟩

theorem after {y : Except Error β} {f : β → Except Error (α × Cursor)} (first : Settles (fun _ => True) (·.isEarly) y)
    (next : ∀ b, Leads c (f b)) : Leads c (y >>= f) :=
  ⟨first.bind fun b _ => (next b).settles⟩

end Leads

section quoted

theorem leads_quotedBreaks (fuel : Nat) (c : Cursor) : Leads c (quotedBreaks fuel c) := by
  induction fuel generalizing c with
  | zero => exact .ok List.suffix_rfl
  | succ fuel ih =>
    rw [quotedBreaks]
    split_ifs
    · exact .error rfl
    · dsimp only
      split_ifs
      · refine Leads.trans (Leads.bind (ih _) fun breaks c' => .ok List.suffix_rfl) ?_
        exact (Cursor.suffix_lineBreak _).trans (c.suffix_skipWhile _)
      · exact .ok (c.suffix_skipWhile _)

theorem settles_codePointPiece (code : Nat) : Settles (fun _ => True) (·.isEarly) (codePointPiece code) := by
  unfold codePointPiece
  split_ifs <;> trivial

theorem leads_readEscape (c : Cursor) : Leads c (readEscape c) := by
  unfold readEscape
  dsimp only
  split
  · exact .ok c.suffix_next
  · split
    · split
      · exact .error rfl
      · exact .after (settles_codePointPiece _) fun piece => .ok (c.suffix_skip _)
    · split_ifs
      · exact Leads.trans (Leads.bind (leads_quotedBreaks _ _) fun breaks c' => .ok List.suffix_rfl) c.suffix_lineBreak
      · exact .error rfl

theorem leads_quotedGap (c : Cursor) : Leads c (quotedGap c) := by
  unfold quotedGap
  dsimp only
  split_ifs
  · exact .error rfl
  · refine Leads.trans (Leads.bind (leads_quotedBreaks _ _) fun breaks c' => .ok List.suffix_rfl) ?_
    exact (Cursor.suffix_lineBreak _).trans (c.suffix_skipWhile _)
  · exact .ok (c.suffix_skipWhile _)

theorem leads_quotedRest (double : Bool) (fuel : Nat) (c : Cursor) : Leads c (quotedRest double fuel c) := by
  induction fuel generalizing c with
  | zero => exact .error rfl
  | succ fuel ih =>
    have continued (piece : Piece) (c' : Cursor) :
        Leads c' (quotedRest double fuel c' >>= fun r => .ok (piece.append r.1, r.2)) :=
      (ih c').bind fun more c' => .ok List.suffix_rfl
    rw [quotedRest]
    dsimp only
    split
    · exact .error rfl
    · split_ifs
      · exact (leads_quotedGap c).bind fun gap c' => continued _ _
      · exact .ok c.suffix_next
      · exact ((leads_readEscape _).bind fun piece c' => continued _ _).trans c.suffix_next
      · exact (continued _ _).trans c.suffix_next
      · exact (continued _ _).trans (c.suffix_skip 2)
      · exact .ok c.suffix_next
      · exact (continued _ _).trans c.suffix_next

theorem leads_readQuoted (c : Cursor) : Leads c (readQuoted c) :=
  (leads_quotedRest _ _ _).trans c.suffix_next

end quoted

section plain

theorem suffix_plainBreaks (fuel : Nat) (c : Cursor) : (plainBreaks fuel c).2.rest <:+ c.rest := by
  induction fuel generalizing c with
  | zero => exact List.suffix_rfl
  | succ fuel ih =>
    rw [plainBreaks]
    dsimp only
    split_ifs
    · exact (ih _).trans c.suffix_next
    · exact c.suffix_lineBreak
    · exact (ih _).trans c.suffix_lineBreak
    · exact List.suffix_rfl

theorem suffix_plainGap (c : Cursor) : (plainGap c).2.2.rest <:+ c.rest := by
  have spaces : (c.span (· == ' ')).2.lineBreak.2.rest <:+ c.rest :=
    (Cursor.suffix_lineBreak _).trans (c.suffix_span _)
  unfold plainGap
  dsimp only
  split_ifs
  · exact spaces
  · have breaks := (suffix_plainBreaks (c.span (· == ' ')).2.lineBreak.2.fuel _).trans spaces
    split
    · next found => rwa [found] at breaks
    · next found => rwa [found] at breaks
  · exact c.suffix_span _

theorem suffix_plainWords (flow : Bool) (indent fuel : Nat) (gap : List Char) (brokeLine : Bool) (c : Cursor) :
    (plainWords flow indent fuel gap brokeLine c).after.rest <:+ c.rest := by
  induction fuel generalizing gap brokeLine c with
  | zero => exact List.suffix_rfl
  | succ fuel ih =>
    rw [plainWords]
    dsimp only
    have word := (suffix_plainGap (c.skip (plainWord flow c.rest).length)).trans (c.suffix_skip _)
    split_ifs
    · exact List.suffix_rfl
    · exact word
    · exact (ih _ _ _).trans word

theorem suffix_readPlain (flow : Bool) (indent : Nat) (c : Cursor) : (readPlain flow indent c).after.rest <:+ c.rest :=
  suffix_plainWords ..

/-- No word has a line break in it. -/
theorem not_isBreak_of_mem_plainWord {flow : Bool} {s : List Char} {ch : Char} (member : ch ∈ plainWord flow s) :
    isBreak ch = false := by
  induction s with
  | nil => simp [plainWord] at member
  | cons c rest ih =>
    rw [plainWord] at member
    split_ifs at member with ends
    · simp at member
    · rcases List.mem_cons.mp member with rfl | later
      · by_contra breaks
        simp [endsPlain, isBlankOrEnd, isSpaceOrEnd, isBreakOrEnd, breaks] at ends
      · exact ih later

/-- A plain scalar does not end in a line feed. -/
def Trimmed (s : List Char) : Prop :=
  s.getLast? ≠ some '\n'

theorem Trimmed.append {s t : List Char} (first : Trimmed s) (second : Trimmed t) : Trimmed (s ++ t) := by
  rw [Trimmed, List.getLast?_append]
  cases ends : t.getLast? with
  | none => simpa [Trimmed] using first
  | some ch => simpa [Trimmed, ends] using second

theorem trimmed_append_word {s word : List Char} {flow : Bool} {rest : List Char} (found : plainWord flow rest = word)
    (nonempty : word.isEmpty = false) : Trimmed (s ++ word) := by
  intro last
  have member : '\n' ∈ word := by
    rw [List.getLast?_append_of_ne_nil _ (by simpa using nonempty)] at last
    exact List.mem_of_getLast? last
  rw [← found] at member
  exact absurd (not_isBreak_of_mem_plainWord member) (by decide)

theorem trimmed_plainWords (flow : Bool) (indent fuel : Nat) (gap : List Char) (brokeLine : Bool) (c : Cursor) :
    Trimmed (plainWords flow indent fuel gap brokeLine c).text := by
  induction fuel generalizing gap brokeLine c with
  | zero => simp [plainWords, Trimmed]
  | succ fuel ih =>
    rw [plainWords]
    dsimp only
    split_ifs with none ends
    · simp [Trimmed]
    · exact trimmed_append_word rfl (by simp_all)
    · exact (trimmed_append_word rfl (by simp_all)).append (ih _ _ _)

theorem trimmed_readPlain (flow : Bool) (indent : Nat) (c : Cursor) : Trimmed (readPlain flow indent c).text :=
  trimmed_plainWords _ _ _ _ _ _

end plain

section block

theorem leads_blockIndent (c : Cursor) : Leads c (blockIndent c) := by
  unfold blockIndent
  split_ifs
  · exact .error rfl
  · exact .ok c.suffix_next
  · exact .ok List.suffix_rfl

theorem leads_blockHeader (c : Cursor) : Leads c (blockHeader c) := by
  have line {header : BlockHeader} (c : Cursor) : Leads c (if !isSpaceOrEnd c.head then .error (.lexical .blockScalar)
      else if isBreakOrEnd c.skipSpaces.skipComment.head then .ok (header, c.skipSpaces.skipComment.lineBreak.2)
      else .error (.lexical .blockScalar)) := by
    split_ifs
    · exact .error rfl
    · exact .ok ((Cursor.suffix_lineBreak _).trans ((Cursor.suffix_skipComment _).trans c.suffix_skipSpaces))
    · exact .error rfl
  unfold blockHeader
  split
  · exact ((leads_blockIndent _).trans c.suffix_next).bind fun indent c' => line c'
  · refine (leads_blockIndent _).bind fun indent c' => ?_
    dsimp only
    split
    · exact (line c'.next).trans c'.suffix_next
    · exact line c'

theorem suffix_leadingBreaks (fuel widest : Nat) (c : Cursor) : (leadingBreaks fuel widest c).2.2.rest <:+ c.rest := by
  induction fuel generalizing widest c with
  | zero => exact List.suffix_rfl
  | succ fuel ih =>
    rw [leadingBreaks]
    dsimp only
    split_ifs
    · exact (ih _ _).trans c.suffix_next
    · exact (ih _ _).trans c.suffix_lineBreak
    · exact List.suffix_rfl

theorem suffix_skipToColumn (column fuel : Nat) (c : Cursor) : (skipToColumn column fuel c).rest <:+ c.rest := by
  induction fuel generalizing c with
  | zero => exact List.suffix_rfl
  | succ fuel ih =>
    rw [skipToColumn]
    split_ifs
    · exact (ih _).trans c.suffix_next
    · exact List.suffix_rfl

theorem suffix_blockBreaks (indent fuel : Nat) (c : Cursor) : (blockBreaks indent fuel c).2.rest <:+ c.rest := by
  induction fuel generalizing c with
  | zero => exact List.suffix_rfl
  | succ fuel ih =>
    rw [blockBreaks]
    dsimp only
    split_ifs
    · exact (ih _).trans ((Cursor.suffix_lineBreak _).trans (suffix_skipToColumn ..))
    · exact suffix_skipToColumn ..

theorem suffix_blockLines (folded : Bool) (chomping : Chomping) (indent fuel : Nat) (c : Cursor) :
    (blockLines folded chomping indent fuel c).2.rest <:+ c.rest := by
  induction fuel generalizing c with
  | zero => exact List.suffix_rfl
  | succ fuel ih =>
    rw [blockLines]
    dsimp only
    have line := (suffix_blockBreaks indent (c.span (!isBreakOrEnd ·)).2.lineBreak.2.fuel _).trans
      ((Cursor.suffix_lineBreak _).trans (c.suffix_span (!isBreakOrEnd ·)))
    split
    · exact (ih _).trans line
    · exact line

theorem leads_readBlock (parent : Int) (c : Cursor) : Leads c (readBlock parent c) := by
  unfold readBlock
  refine ((leads_blockHeader _).trans c.suffix_next).bind fun header c' => ?_
  obtain ⟨chomping, _ | n⟩ := header
  · have blank := suffix_leadingBreaks c'.fuel 0 c'
    dsimp only
    split
    · exact .ok ((suffix_blockLines ..).trans blank)
    · exact .ok blank
  · have blank := suffix_blockBreaks ((max (parent + 1) 1).toNat + n - 1) c'.fuel c'
    dsimp only
    split
    · exact .ok ((suffix_blockLines ..).trans blank)
    · exact .ok blank

end block

section token

theorem leads_readName (fault : LexicalFault) (c : Cursor) : Leads c (readName fault c) := by
  unfold readName
  dsimp only
  split_ifs
  · exact .error rfl
  · exact .ok (c.suffix_span _)

theorem leads_readEscapedBytes (fault : LexicalFault) (fuel : Nat) (c : Cursor) :
    Leads c (readEscapedBytes fault fuel c) := by
  induction fuel generalizing c with
  | zero => exact .ok List.suffix_rfl
  | succ fuel ih =>
    rw [readEscapedBytes]
    split_ifs
    · exact .ok List.suffix_rfl
    · split
      · exact .error rfl
      · exact ((ih _).trans (c.suffix_skip 3)).bind fun bytes c' => .ok List.suffix_rfl

theorem leads_addressFrom (fault : LexicalFault) (fuel : Nat) (c : Cursor) : Leads c (addressFrom fault fuel c) := by
  induction fuel generalizing c with
  | zero => exact .ok List.suffix_rfl
  | succ fuel ih =>
    rw [addressFrom]
    split_ifs
    · refine (leads_readEscapedBytes _ _ _).bind fun bytes c' => ?_
      dsimp only
      split
      · exact .error rfl
      · exact (ih _).bind fun more c' => .ok List.suffix_rfl
    · exact ((ih _).trans c.suffix_next).bind fun more c' => .ok List.suffix_rfl
    · exact .ok List.suffix_rfl

theorem leads_readAddress (emptyFault escapeFault : LexicalFault) (c : Cursor) :
    Leads c (readAddress emptyFault escapeFault c) := by
  unfold readAddress
  refine (leads_addressFrom _ _ _).bind fun text c' => ?_
  dsimp only
  split_ifs
  · exact .ok List.suffix_rfl
  · exact .error rfl

theorem leads_readHandle (fault : LexicalFault) (c : Cursor) : Leads c (readHandle fault c) := by
  unfold readHandle
  dsimp only
  split_ifs
  · exact .error rfl
  · exact .ok c.suffix_next
  · exact .ok ((Cursor.suffix_next _).trans ((Cursor.suffix_span _ _).trans c.suffix_next))
  · exact .error rfl

theorem leads_readTag (c : Cursor) : Leads c (readTag c) := by
  have tagged (handle : Option String) (suffix : String) (c : Cursor) :
      Leads c (if isSpaceOrEnd c.head then .ok (Token.tag handle suffix, c) else .error (.lexical .tag)) := by
    split_ifs
    · exact .ok List.suffix_rfl
    · exact .error rfl
  have addressed (handle : String) (c : Cursor) : Leads c (readAddress .tagAddress .tag c >>= fun r =>
      if isSpaceOrEnd r.2.head then .ok (Token.tag (some handle) r.1, r.2) else .error (.lexical .tag)) :=
    (leads_readAddress _ _ c).bind fun suffix c' => tagged _ _ c'
  unfold readTag
  dsimp only
  split_ifs
  · refine Leads.trans (Leads.bind (leads_readAddress _ _ _) fun suffix c' => ?_) (c.suffix_skip 2)
    dsimp only
    split_ifs
    · exact (tagged _ _ _).trans c'.suffix_next
    · exact .error rfl
  · exact (tagged _ _ _).trans c.suffix_next
  · exact (leads_readHandle _ c).bind fun handle c' => addressed handle c'
  · exact (addressed _ _).trans c.suffix_next

theorem exists_tag_of_readTag (c : Cursor) :
    Settles (fun r => ∃ handle suffix, r.1 = .tag handle suffix) (fun _ => True) (readTag c) := by
  have tagged (handle : Option String) (suffix : String) (c : Cursor) :
      Settles (fun r => ∃ handle suffix, r.1 = .tag handle suffix) (fun _ => True)
        (if isSpaceOrEnd c.head then .ok (Token.tag handle suffix, c) else .error (Error.lexical .tag)) := by
    split_ifs
    · exact ⟨handle, suffix, rfl⟩
    · trivial
  unfold readTag
  dsimp only
  split_ifs
  · refine (Settles.any _).bind fun r _ => ?_
    split_ifs
    · exact tagged _ _ _
    · trivial
  · exact tagged _ _ _
  · exact (Settles.any _).bind fun _ _ => (Settles.any _).bind fun _ _ => tagged _ _ _
  · exact (Settles.any _).bind fun _ _ => (Settles.any _).bind fun _ _ => tagged _ _ _

theorem leads_readVersionPart (c : Cursor) : Leads c (readVersionPart c) := by
  unfold readVersionPart
  dsimp only
  split_ifs
  · exact .error rfl
  · exact .error rfl
  · exact .ok (c.suffix_span _)

theorem settles_directiveBreak (c : Cursor) : Settles (fun _ => True) (·.isEarly) (directiveBreak c) := by
  unfold directiveBreak
  split_ifs <;> trivial

theorem leads_readDirective (c : Cursor) : Leads c (readDirective c) := by
  -- Each directive ends with the rest of its line, which may hold spaces and a comment only.
  have line {c : Cursor} {x : Except Error (Directive × Cursor)} (leads : Leads c x) :
      Leads c (x >>= fun r => if isBreakOrEnd r.2.skipSpaces.skipComment.head then
        .ok (r.1, r.2.skipSpaces.skipComment.lineBreak.2) else .error (.lexical .directive)) := by
    refine leads.bind fun d c => ?_
    dsimp only
    split_ifs
    · exact .ok ((Cursor.suffix_lineBreak _).trans ((Cursor.suffix_skipComment _).trans c.suffix_skipSpaces))
    · exact .error rfl
  unfold readDirective
  dsimp only
  split_ifs
  · exact .error rfl
  · refine Leads.trans ?_ ((Cursor.suffix_span isNameChar _).trans c.suffix_next)
    refine .after (settles_directiveBreak _) fun _ => ?_
    split
    · refine .trans (.bind (leads_readVersionPart _) fun major c' => ?_) (Cursor.suffix_skipSpaces _)
      dsimp only
      split_ifs
      · exact .error rfl
      · refine .trans (.bind (leads_readVersionPart _) fun minor c' => ?_) c'.suffix_next
        exact .after (settles_directiveBreak _) fun _ => line (.ok List.suffix_rfl)
    · refine .trans (.bind (leads_readHandle _ _) fun handle c' => ?_) (Cursor.suffix_skipSpaces _)
      dsimp only
      split_ifs
      · exact .error rfl
      · refine .trans (.bind (leads_readAddress _ _ _) fun address c' => ?_) c'.suffix_skipSpaces
        exact .after (settles_directiveBreak _) fun _ => line (.ok List.suffix_rfl)
    · exact line (.ok (Cursor.suffix_skipWhile _ _))

end token

end AgentConfig.Yaml
