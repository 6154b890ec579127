import AgentConfig.Proofs.Yaml.Scanned
import AgentConfig.Yaml.Node

namespace AgentConfig.Yaml.Node

/-- Nodes of a text without tags: the form of a plain scalar decides what it is. -/
inductive Untagged : Node → Prop
  | aliasTo (name : String) : Untagged (.aliasTo name)
  | quoted (anchor : Option String) (text : Piece) : Untagged (.scalar anchor .text text)
  | plain (anchor : Option String) {w : List Char} (trimmed : Trimmed w) : Untagged (.scalar anchor (Tag.ofPlain w) (some w))
  | sequence (anchor : Option String) {items : List Node} (all : ∀ n ∈ items, Untagged n) :
      Untagged (.sequence anchor .sequence items)
  | mapping (anchor : Option String) {entries : List (Node × Node)} (keys : ∀ entry ∈ entries, Untagged entry.1)
      (values : ∀ entry ∈ entries, Untagged entry.2) : Untagged (.mapping anchor .mapping entries)

/-- Only in a text with an exclamation mark are there tags. -/
def StandsIn (text : List Char) (n : Node) : Prop :=
  '!' ∈ text ∨ n.Untagged

/-- Both parts of an entry stand in a text. -/
def EntryStandsIn (text : List Char) (entry : Node × Node) : Prop :=
  entry.1.StandsIn text ∧ entry.2.StandsIn text

section node

variable {text : List Char} (anchor : Option String) {tag : Option String}

theorem standsIn_emptyScalar : emptyScalar.StandsIn text :=
  .inr (.plain none (w := []) (by simp [Trimmed]))

theorem standsIn_scalar {s : Piece} {plain : Bool} (marked : tag.isSome → '!' ∈ text)
    (stands : Token.StandsIn text (.scalar s plain)) : (Node.scalar anchor (scalarTag tag plain s) s).StandsIn text := by
  cases tag with
  | some name => exact .inl (marked rfl)
  | none =>
    cases plain with
    | false => exact .inr (.quoted anchor s)
    | true =>
      obtain ⟨w, rfl, trimmed⟩ := stands
      exact .inr (.plain anchor trimmed)

theorem standsIn_sequence {items : List Node} (marked : tag.isSome → '!' ∈ text) (all : ∀ n ∈ items, n.StandsIn text) :
    (Node.sequence anchor (collectionTag tag .sequence) items).StandsIn text := by
  by_cases mark : '!' ∈ text
  · exact .inl mark
  · cases tag with
    | some name => exact absurd (marked rfl) mark
    | none => exact .inr (.sequence anchor fun n member => (all n member).resolve_left mark)

theorem standsIn_mapping {entries : List (Node × Node)} (marked : tag.isSome → '!' ∈ text)
    (all : ∀ entry ∈ entries, EntryStandsIn text entry) :
    (Node.mapping anchor (collectionTag tag .mapping) entries).StandsIn text := by
  by_cases mark : '!' ∈ text
  · exact .inl mark
  · cases tag with
    | some name => exact absurd (marked rfl) mark
    | none =>
      exact .inr (.mapping anchor (fun entry member => (all entry member).1.resolve_left mark)
        fun entry member => (all entry member).2.resolve_left mark)

end node

/-- The tokens ahead are those of a text. -/
def Reader.Reads (text : List Char) (r : Reader) : Prop :=
  ∀ t ∈ r.tokens, t.StandsIn text

/-- A reader gives what `P` says and goes on in the text, or fails with an early error. -/
def Gives {α : Type} (text : List Char) (P : α → Prop) : Except Error (α × Reader) → Prop :=
  Settles (fun found => P found.1 ∧ found.2.Reads text) fun e => e.isEarly

variable {text : List Char} {r : Reader} {fuel : Nat}

namespace Gives

variable {α β : Type} {P : α → Prop} {Q : β → Prop}

theorem ok {a : α} (holds : P a) (reads : r.Reads text) : Gives text P (.ok (a, r)) :=
  ⟨holds, reads⟩

theorem bind {x : Except Error (α × Reader)} {f : α × Reader → Except Error (β × Reader)} (first : Gives text P x)
    (next : ∀ a r, P a → r.Reads text → Gives text Q (f (a, r))) : Gives text Q (x >>= f) :=
  Settles.bind first fun (a, r) found => next a r found.1 found.2

theorem cons {x : Except Error (List α × Reader)} {a : α} (others : Gives text (fun found => ∀ a ∈ found, P a) x)
    (first : P a) : Gives text (fun found => ∀ a ∈ found, P a) (x >>= fun found => .ok (a :: found.1, found.2)) :=
  others.bind fun _ _ all reads => .ok (List.forall_mem_cons.mpr ⟨first, all⟩) reads

end Gives

namespace Reader.Reads

variable {first : Token} {rest : List Token}

theorem behind (reads : ∀ t ∈ first :: rest, t.StandsIn text) (r : Reader) : Reader.Reads text { r with tokens := rest } :=
  fun t member => reads t (List.mem_cons_of_mem _ member)

theorem tail (reads : r.Reads text) (ahead : r.tokens = first :: rest) : Reader.Reads text { r with tokens := rest } :=
  behind (fun t member => reads t (ahead ▸ member)) r

theorem unexpected {α : Type} {P : α → Prop} (reads : r.Reads text) (fault : GrammarFault) :
    Settles P (·.isEarly) (unexpected r.tokens fault : Except Error α) := by
  unfold Node.unexpected
  split
  · next e rest ahead => exact reads (.fault e) (ahead ▸ List.mem_cons_self)
  · rfl

end Reader.Reads

/-- What the mutual readers do with some fuel. -/
structure Keeps (text : List Char) (fuel : Nat) : Prop where
  read : ∀ position r, r.Reads text → Gives text (StandsIn text) (read fuel position r)
  blockItems : ∀ r, r.Reads text → Gives text (fun items => ∀ n ∈ items, n.StandsIn text) (readBlockItems fuel r)
  dashes : ∀ r, r.Reads text → Gives text (fun items => ∀ n ∈ items, n.StandsIn text) (readDashes fuel r)
  blockPart : ∀ r, r.Reads text → Gives text (StandsIn text) (readBlockPart fuel r)
  blockEntries : ∀ r, r.Reads text →
    Gives text (fun entries => ∀ entry ∈ entries, EntryStandsIn text entry) (readBlockEntries fuel r)
  flowValue : ∀ closing r, r.Reads text → Gives text (StandsIn text) (readFlowValue fuel closing r)
  flowPair : ∀ closing r, r.Reads text → Gives text (EntryStandsIn text) (readFlowPair fuel closing r)
  flowItems : ∀ first r, r.Reads text →
    Gives text (fun items => ∀ n ∈ items, n.StandsIn text) (readFlowItems fuel first r)
  flowEntries : ∀ first r, r.Reads text →
    Gives text (fun entries => ∀ entry ∈ entries, EntryStandsIn text entry) (readFlowEntries fuel first r)

namespace Keeps

theorem zero : Keeps text 0 where
  read _ _ reads := reads.unexpected _
  blockItems _ reads := reads.unexpected _
  dashes _ reads := reads.unexpected _
  blockPart _ reads := reads.unexpected _
  blockEntries _ reads := reads.unexpected _
  flowValue _ _ reads := reads.unexpected _
  flowPair _ _ reads := reads.unexpected _
  flowItems _ _ reads := reads.unexpected _
  flowEntries _ _ reads := reads.unexpected _

theorem blockItems_succ (keeps : Keeps text fuel) (reads : r.Reads text) :
    Gives text (fun items => ∀ n ∈ items, n.StandsIn text) (readBlockItems (fuel + 1) r) := by
  rw [readBlockItems]
  split
  · next rest ahead =>
    have others (item : Node) (r : Reader) (stands : item.StandsIn text) (reads : r.Reads text) :
        Gives text (fun items => ∀ n ∈ items, n.StandsIn text)
          (readBlockItems fuel r >>= fun found => .ok (item :: found.1, found.2)) :=
      (keeps.blockItems r reads).cons stands
    have reads := reads.tail ahead
    dsimp only
    split
    · exact Gives.bind (.ok standsIn_emptyScalar reads) others
    · exact Gives.bind (.ok standsIn_emptyScalar reads) others
    · exact (keeps.read _ _ reads).bind others
  · next rest ahead => exact .ok (by simp) (reads.tail ahead)
  · exact reads.unexpected _

theorem dashes_succ (keeps : Keeps text fuel) (reads : r.Reads text) :
    Gives text (fun items => ∀ n ∈ items, n.StandsIn text) (readDashes (fuel + 1) r) := by
  rw [readDashes]
  split
  · next rest ahead =>
    have others (item : Node) (r : Reader) (stands : item.StandsIn text) (reads : r.Reads text) :
        Gives text (fun items => ∀ n ∈ items, n.StandsIn text)
          (readDashes fuel r >>= fun found => .ok (item :: found.1, found.2)) :=
      (keeps.dashes r reads).cons stands
    have reads := reads.tail ahead
    dsimp only
    split
    · exact Gives.bind (.ok standsIn_emptyScalar reads) others
    · exact Gives.bind (.ok standsIn_emptyScalar reads) others
    · exact Gives.bind (.ok standsIn_emptyScalar reads) others
    · exact Gives.bind (.ok standsIn_emptyScalar reads) others
    · exact (keeps.read _ _ reads).bind others
  · exact .ok (by simp) reads

theorem blockPart_succ (keeps : Keeps text fuel) (reads : r.Reads text) :
    Gives text (StandsIn text) (readBlockPart (fuel + 1) r) := by
  rw [readBlockPart]
  split
  · exact .ok standsIn_emptyScalar reads
  · exact .ok standsIn_emptyScalar reads
  · exact .ok standsIn_emptyScalar reads
  · exact keeps.read _ _ reads

theorem blockEntries_succ (keeps : Keeps text fuel) (reads : r.Reads text) :
    Gives text (fun entries => ∀ entry ∈ entries, EntryStandsIn text entry) (readBlockEntries (fuel + 1) r) := by
  rw [readBlockEntries]
  split
  · next rest ahead =>
    refine (keeps.blockPart _ (reads.tail ahead)).bind fun key r keyStands reads => ?_
    have others (value : Node) (r : Reader) (stands : value.StandsIn text) (reads : r.Reads text) :
        Gives text (fun entries => ∀ entry ∈ entries, EntryStandsIn text entry)
          (readBlockEntries fuel r >>= fun found => .ok ((key, value) :: found.1, found.2)) :=
      (keeps.blockEntries r reads).cons ⟨keyStands, stands⟩
    dsimp only
    split
    · next rest ahead => exact (keeps.blockPart _ (reads.tail ahead)).bind others
    · exact Gives.bind (.ok standsIn_emptyScalar reads) others
  · next rest ahead => exact .ok (by simp) (reads.tail ahead)
  · exact reads.unexpected _

theorem flowValue_succ (keeps : Keeps text fuel) (closing : Token) (reads : r.Reads text) :
    Gives text (StandsIn text) (readFlowValue (fuel + 1) closing r) := by
  rw [readFlowValue]
  split
  · next rest ahead =>
    have reads := reads.tail ahead
    split
    · split_ifs
      · exact .ok standsIn_emptyScalar reads
      · exact keeps.read _ _ reads
    · exact keeps.read _ _ reads
  · exact .ok standsIn_emptyScalar reads

theorem flowPair_succ (keeps : Keeps text fuel) (closing : Token) (reads : r.Reads text) :
    Gives text (EntryStandsIn text) (readFlowPair (fuel + 1) closing r) := by
  have value (key : Node) (r : Reader) (keyStands : key.StandsIn text) (reads : r.Reads text) :
      Gives text (EntryStandsIn text)
        (readFlowValue fuel closing r >>= fun found => .ok ((key, found.1), found.2)) :=
    (keeps.flowValue closing r reads).bind fun value r stands reads => .ok ⟨keyStands, stands⟩ reads
  rw [readFlowPair]
  split
  · split_ifs
    · exact Gives.bind (.ok standsIn_emptyScalar reads) value
    · exact (keeps.read _ _ reads).bind value
  · exact (keeps.read _ _ reads).bind value

theorem flowItems_succ (keeps : Keeps text fuel) (first : Bool) (reads : r.Reads text) :
    Gives text (fun items => ∀ n ∈ items, n.StandsIn text) (readFlowItems (fuel + 1) first r) := by
  rw [readFlowItems]
  split
  · next rest ahead => exact .ok (by simp) (reads.tail ahead)
  · extract_lets item
    have items (r : Reader) (reads : r.Reads text) : Gives text (fun items => ∀ n ∈ items, n.StandsIn text) (item r) := by
      simp only [item]
      split
      · next rest ahead =>
        refine (keeps.flowPair _ _ (reads.tail ahead)).bind fun pair r stands reads => ?_
        have mapping : (Node.mapping none (collectionTag none .mapping) [pair]).StandsIn text :=
          standsIn_mapping none (by simp) (by simpa using stands)
        exact (keeps.flowItems false r reads).cons mapping
      · next rest ahead => exact .ok (by simp) (reads.tail ahead)
      · exact (keeps.read _ _ reads).bind fun item r stands reads => (keeps.flowItems false r reads).cons stands
    split_ifs
    · exact items r reads
    · split
      · next rest ahead => exact items _ (reads.tail ahead)
      · exact (reads.unexpected _).bind items

theorem flowEntries_succ (keeps : Keeps text fuel) (first : Bool) (reads : r.Reads text) :
    Gives text (fun entries => ∀ entry ∈ entries, EntryStandsIn text entry) (readFlowEntries (fuel + 1) first r) := by
  rw [readFlowEntries]
  split
  · next rest ahead => exact .ok (by simp) (reads.tail ahead)
  · extract_lets entry
    have entries (r : Reader) (reads : r.Reads text) :
        Gives text (fun entries => ∀ entry ∈ entries, EntryStandsIn text entry) (entry r) := by
      simp only [entry]
      split
      · next rest ahead =>
        exact (keeps.flowPair _ _ (reads.tail ahead)).bind fun pair r stands reads =>
          (keeps.flowEntries false r reads).cons stands
      · next rest ahead => exact .ok (by simp) (reads.tail ahead)
      · exact (keeps.read _ _ reads).bind fun key r stands reads =>
          (keeps.flowEntries false r reads).cons ⟨stands, standsIn_emptyScalar⟩
    split_ifs
    · exact entries r reads
    · split
      · next rest ahead => exact entries _ (reads.tail ahead)
      · exact (reads.unexpected _).bind entries

theorem settles_define (r : Reader) (anchor : Option String) :
    Settles (fun r' => r'.tokens = r.tokens) (·.isEarly) (define r anchor) := by
  unfold define
  split
  · rfl
  · split_ifs <;> rfl

theorem settles_tagName (r : Reader) (tag : Option String × String) : Settles (fun _ => True) (·.isEarly) (tagName r tag) := by
  unfold tagName
  split
  · trivial
  · split
    · trivial
    · rfl

/-- The tokens behind an anchor and a tag, and where the tag came from. -/
theorem reads_properties {tokens : List Token} (reads : ∀ t ∈ tokens, t.StandsIn text) :
    ((properties tokens).2.1.isSome → '!' ∈ text) ∧ ∀ t ∈ (properties tokens).2.2, t.StandsIn text := by
  have marked {handle : Option String} {suffix : String} (member : .tag handle suffix ∈ tokens) : '!' ∈ text :=
    reads (.tag handle suffix) member
  unfold properties
  split
  · exact ⟨fun _ => marked (List.mem_cons_of_mem _ List.mem_cons_self), fun t member => reads t (by simp [member])⟩
  · exact ⟨by simp, fun t member => reads t (by simp [member])⟩
  · exact ⟨fun _ => marked List.mem_cons_self, fun t member => reads t (by simp [member])⟩
  · exact ⟨fun _ => marked List.mem_cons_self, fun t member => reads t (by simp [member])⟩
  · exact ⟨by simp, reads⟩

theorem readNothing_keeps {anchor tag : Option String} (marked : tag.isSome → '!' ∈ text) (position : Position)
    (reads : r.Reads text) : Gives text (StandsIn text) (readNothing position anchor tag r) := by
  unfold readNothing
  split_ifs
  · refine (settles_define r anchor).bind fun r' same => ?_
    have stands : Token.StandsIn text (.scalar (some []) true) := ⟨[], rfl, by simp [Trimmed]⟩
    refine Gives.ok (standsIn_scalar anchor marked stands) ?_
    unfold Reader.Reads
    rwa [same]
  · exact reads.unexpected _
  · exact reads.unexpected _

theorem read_succ (keeps : Keeps text fuel) (position : Position) (reads : r.Reads text) :
    Gives text (StandsIn text) (Node.read (fuel + 1) position r) := by
  rw [Node.read]
  split
  · next name rest ahead =>
    split_ifs
    · exact .ok (.inr (.aliasTo name)) (reads.tail ahead)
    · rfl
  · obtain ⟨tagged, onward⟩ := reads_properties reads
    generalize properties r.tokens = front at tagged onward
    obtain ⟨anchor, tag, tokens⟩ := front
    have reads : Reader.Reads text { r with tokens } := onward
    dsimp -zeta only
    split
    · next e failed =>
      unfold isFault at failed
      split at failed
      · obtain rfl := Option.some.inj failed
        exact onward (.fault _) List.mem_cons_self
      · contradiction
    · extract_lets ahead content
      -- The content is read under whatever the tag is resolved to.
      have contents (tag : Option String) (marked : tag.isSome → '!' ∈ text) :
          Gives text (StandsIn text) (content tag) := by
        clear tagged
        simp only [content]
        have defined := settles_define ahead anchor
        split
        · next s plain rest _ _ _ =>
          exact defined.bind fun r _ =>
            Gives.ok (standsIn_scalar anchor marked (onward _ List.mem_cons_self)) (.behind onward r)
        · next rest _ _ _ =>
          refine defined.bind fun r _ => (keeps.flowItems _ _ (.behind onward r)).bind fun items r all reads => ?_
          exact .ok (standsIn_sequence anchor marked all) reads
        · next rest _ _ _ =>
          refine defined.bind fun r _ => (keeps.flowEntries _ _ (.behind onward r)).bind fun entries r all reads => ?_
          exact .ok (standsIn_mapping anchor marked all) reads
        · split_ifs
          · refine defined.bind fun r same => ?_
            have reads : r.Reads text := by
              unfold Reader.Reads
              rwa [same]
            exact (keeps.dashes r reads).bind fun items r all reads => .ok (standsIn_sequence anchor marked all) reads
          · refine defined.bind fun r _ => (keeps.blockItems _ (.behind onward r)).bind fun items r all reads => ?_
            exact .ok (standsIn_sequence anchor marked all) reads
          · refine defined.bind fun r _ => (keeps.blockEntries _ (.behind onward r)).bind fun entries r all reads => ?_
            exact .ok (standsIn_mapping anchor marked all) reads
          · exact readNothing_keeps marked position reads
        · exact readNothing_keeps marked position reads
      split
      · next tag =>
        have named : Settles (fun _ => True) (·.isEarly) (some <$> tagName r tag) :=
          (settles_tagName r tag).map fun _ _ => trivial
        exact named.bind fun tag' _ => contents tag' fun _ => tagged rfl
      · exact contents none (by simp)

theorem succ (keeps : Keeps text fuel) : Keeps text (fuel + 1) where
  read position _ reads := keeps.read_succ position reads
  blockItems _ reads := keeps.blockItems_succ reads
  dashes _ reads := keeps.dashes_succ reads
  blockPart _ reads := keeps.blockPart_succ reads
  blockEntries _ reads := keeps.blockEntries_succ reads
  flowValue closing _ reads := keeps.flowValue_succ closing reads
  flowPair closing _ reads := keeps.flowPair_succ closing reads
  flowItems first _ reads := keeps.flowItems_succ first reads
  flowEntries first _ reads := keeps.flowEntries_succ first reads

end Keeps

theorem keeps (text : List Char) (fuel : Nat) : Keeps text fuel := by
  induction fuel with
  | zero => exact .zero
  | succ fuel ih => exact ih.succ

section document

variable {tokens : List Token}

/-- What is left of the tokens of a text. -/
def Left {α : Type} (text : List Char) (P : α → Prop) : Except Error (α × List Token) → Prop :=
  Settles (fun found => P found.1 ∧ ∀ t ∈ found.2, t.StandsIn text) fun e => e.isEarly

theorem left_readDirectives (p : Prologue) (reads : ∀ t ∈ tokens, t.StandsIn text) :
    Left text (fun _ => True) (readDirectives p tokens) := by
  induction tokens generalizing p with
  | nil => exact ⟨trivial, reads⟩
  | cons first rest ih =>
    have onward := fun t member => reads t (List.mem_cons_of_mem _ member)
    cases first with
    | directive d =>
      cases d with
      | version major minor =>
        rw [readDirectives]
        split_ifs
        · rfl
        · rfl
        · exact ih _ onward
      | handle handle address =>
        rw [readDirectives]
        split_ifs
        · rfl
        · exact ih _ onward
      | reserved => exact ih p onward
    | _ => exact ⟨trivial, reads⟩

theorem left_readExplicitStart (reads : ∀ t ∈ tokens, t.StandsIn text) :
    Left text (fun _ => True) (readExplicitStart tokens) := by
  unfold readExplicitStart
  refine Settles.bind (left_readDirectives _ reads) fun r left => ?_
  obtain ⟨p, tokens⟩ := r
  obtain ⟨-, left⟩ := left
  dsimp only
  split
  · exact ⟨trivial, fun t member => left t (List.mem_cons_of_mem _ member)⟩
  · exact left (.fault _) List.mem_cons_self
  · rfl
  · rfl

theorem left_readContent (explicit : Bool) (handles : List (String × String)) (reads : ∀ t ∈ tokens, t.StandsIn text) :
    Left text (StandsIn text) (readContent explicit handles tokens) := by
  unfold readContent
  dsimp only
  split_ifs
  · exact ⟨standsIn_emptyScalar, reads⟩
  · exact Settles.bind ((keeps text _).read _ _ reads) fun r left => left

theorem settles_expectEnd (reads : ∀ t ∈ tokens, t.StandsIn text) :
    Settles (fun _ => True) (·.isEarly) (expectEnd tokens) := by
  unfold expectEnd
  extract_lets finish
  have finished (tokens : List Token) (reads : ∀ t ∈ tokens, t.StandsIn text) :
      Settles (fun _ => True) (·.isEarly) (finish tokens) := by
    simp only [finish]
    have rest {p : Token → Bool} : ∀ t ∈ tokens.dropWhile p, t.StandsIn text := fun t member =>
      reads t ((List.dropWhile_suffix p).subset member)
    split
    · trivial
    · next ahead => exact rest (.fault _) (ahead ▸ List.mem_cons_self)
    · exact Settles.bind (left_readExplicitStart rest) fun _ _ => rfl
  split
  · exact finished _ fun t member => reads t (List.mem_cons_of_mem _ member)
  · exact reads (.fault _) List.mem_cons_self
  · exact finished _ reads

/-- The document of a text without an exclamation mark has no tags, and its errors are early ones. -/
theorem settles_ofText (text : String) : Settles (fun found => ∀ n ∈ found, n.StandsIn text.toList) (·.isEarly) (ofText text) := by
  have reads := standsIn_tokensOf text.toList
  have content (explicit : Bool) (handles : List (String × String)) {tokens : List Token}
      (reads : ∀ t ∈ tokens, t.StandsIn text.toList) :
      Settles (fun found => ∀ n ∈ found, n.StandsIn text.toList) (·.isEarly)
        (readContent explicit handles tokens >>= fun r => expectEnd r.2 >>= fun _ => .ok (some r.1)) := by
    refine Settles.bind (left_readContent explicit handles reads) fun r left => ?_
    obtain ⟨stands, left⟩ := left
    exact (settles_expectEnd left).bind fun _ _ n found => Option.some.inj found ▸ stands
  unfold ofText ofTokens
  split
  · next ahead => exact reads (.fault _) (ahead ▸ List.mem_cons_self)
  · exact fun n found => by contradiction
  · exact Settles.bind (left_readExplicitStart reads) fun r left => content _ _ left.2
  · exact Settles.bind (left_readExplicitStart reads) fun r left => content _ _ left.2
  · exact content _ _ reads

end document

end AgentConfig.Yaml.Node
