import AgentConfig.Proofs.Yaml.Written
import AgentConfig.Yaml.Node

namespace AgentConfig.Yaml

/-- A scalar without a tag of its own. -/
def scalarNode (s : List Char) (plain : Bool) : Node :=
  .scalar none (if plain then Tag.ofPlain s else .text) (some s)

mutual
/-- The node that a tree is written as. -/
def nodeFor : Tree → Node
  | .null => scalarNode "null".toList true
  | .bool b => scalarNode (if b then "true" else "false").toList true
  | .int n => scalarNode (Json.writeInt n) true
  | .float x => scalarNode (numberLayout.write x) true
  | .text s => scalarNode s.toList (styleOf s.toList = .plain)
  | .list items => .sequence none .sequence (itemNodes items)
  | .record entries => .mapping none .mapping (entryNodes entries)

def itemNodes : List Tree → List Node
  | [] => []
  | t :: rest => nodeFor t :: itemNodes rest

def entryNodes : List (String × Tree) → List (Node × Node)
  | [] => []
  | (key, t) :: rest => (scalarNode key.toList true, nodeFor t) :: entryNodes rest
end

/-- Tokens that a node may start with; a dash does so only behind a key. -/
inductive Heads : Bool → Token → Prop
  | scalar (dash : Bool) (text : Piece) (plain : Bool) : Heads dash (.scalar text plain)
  | flowSequence (dash : Bool) : Heads dash .flowSequenceStart
  | flowMapping (dash : Bool) : Heads dash .flowMappingStart
  | sequence : Heads true .sequenceStart
  | entry : Heads false .entry
  | mapping (dash : Bool) : Heads dash .mappingStart

theorem tokensFor_cons (dash : Bool) (t : Tree) : ∃ first more, tokensFor dash t = first :: more ∧ Heads dash first := by
  cases t with
  | list items =>
    cases items with
    | nil => exact ⟨_, _, rfl, .flowSequence dash⟩
    | cons t rest =>
      cases dash with
      | true => exact ⟨_, _, rfl, .sequence⟩
      | false => exact ⟨_, _, rfl, .entry⟩
  | record entries =>
    cases entries with
    | nil => exact ⟨_, _, rfl, .flowMapping dash⟩
    | cons entry rest => exact ⟨_, _, rfl, .mapping dash⟩
  | _ => exact ⟨_, _, rfl, .scalar dash _ _⟩

namespace Node

/-- The state of reading nodes that have no names. -/
def ahead (handles : List (String × String)) (tokens : List Token) : Reader :=
  { tokens, handles, anchors := [] }

section step

variable {handles : List (String × String)} {fuel : Nat} {rest : List Token} {r : Reader} {items : List Node}
  {entries : List (Node × Node)}

theorem read_scalar (fuel : Nat) (position : Position) (s : List Char) (plain : Bool) (rest : List Token) :
    read (fuel + 1) position (ahead handles (.scalar (some s) plain :: rest)) =
      .ok (scalarNode s plain, ahead handles rest) := by
  cases plain <;> simp [read, ahead, properties, isFault, define, scalarTag, scalarNode, bind, Except.bind, pure, Except.pure]

theorem read_emptyList (fuel : Nat) (position : Position) (rest : List Token) :
    read (fuel + 2) position (ahead handles (.flowSequenceStart :: .flowSequenceEnd :: rest)) =
      .ok (.sequence none .sequence [], ahead handles rest) := by
  simp [read, readFlowItems, ahead, properties, isFault, define, collectionTag, bind, Except.bind, pure, Except.pure]

theorem read_emptyRecord (fuel : Nat) (position : Position) (rest : List Token) :
    read (fuel + 2) position (ahead handles (.flowMappingStart :: .flowMappingEnd :: rest)) =
      .ok (.mapping none .mapping [], ahead handles rest) := by
  simp [read, readFlowEntries, ahead, properties, isFault, define, collectionTag, bind, Except.bind, pure, Except.pure]

theorem read_sequence (found : readBlockItems fuel (ahead handles rest) = .ok (items, r)) :
    read (fuel + 1) .block (ahead handles (.sequenceStart :: rest)) = .ok (.sequence none .sequence items, r) := by
  rw [ahead] at found
  simp [read, ahead, properties, isFault, define, collectionTag, bind, Except.bind, pure, Except.pure, found]

theorem read_dashes (found : readDashes fuel (ahead handles (.entry :: rest)) = .ok (items, r)) :
    read (fuel + 1) .blockOrDashes (ahead handles (.entry :: rest)) = .ok (.sequence none .sequence items, r) := by
  rw [ahead] at found
  simp [read, ahead, properties, isFault, define, collectionTag, bind, Except.bind, pure, Except.pure, found]

theorem read_mapping {position : Position} (block : position ≠ .flow)
    (found : readBlockEntries fuel (ahead handles rest) = .ok (entries, r)) :
    read (fuel + 1) position (ahead handles (.mappingStart :: rest)) = .ok (.mapping none .mapping entries, r) := by
  rw [ahead] at found
  simp [read, ahead, properties, isFault, define, collectionTag, bind, Except.bind, pure, Except.pure, found, block]

variable {item key value : Node} {first : Token} {tokens : List Token}

theorem readBlockItems_cons (heads : Heads true first)
    (read : read fuel .block (ahead handles (first :: tokens)) = .ok (item, ahead handles rest))
    (others : readBlockItems fuel (ahead handles rest) = .ok (items, r)) :
    readBlockItems (fuel + 1) (ahead handles (.entry :: first :: tokens)) = .ok (item :: items, r) := by
  rw [ahead] at read
  cases heads <;> simp [readBlockItems, ahead, read, bind, Except.bind] <;> rw [← ahead, others]

theorem readBlockItems_end (fuel : Nat) (rest : List Token) :
    readBlockItems (fuel + 1) (ahead handles (.blockEnd :: rest)) = .ok ([], ahead handles rest) := by
  simp [readBlockItems, ahead]

theorem readDashes_cons (heads : Heads true first)
    (read : read fuel .block (ahead handles (first :: tokens)) = .ok (item, ahead handles rest))
    (others : readDashes fuel (ahead handles rest) = .ok (items, r)) :
    readDashes (fuel + 1) (ahead handles (.entry :: first :: tokens)) = .ok (item :: items, r) := by
  rw [ahead] at read
  cases heads <;> simp [readDashes, ahead, read, bind, Except.bind] <;> rw [← ahead, others]

theorem readDashes_end (fuel : Nat) (stops : rest.head? ≠ some .entry) :
    readDashes (fuel + 1) (ahead handles rest) = .ok ([], ahead handles rest) := by
  rw [readDashes]
  split
  · next more found =>
    have found : rest = .entry :: more := found
    simp [found] at stops
  · rfl

theorem readBlockPart_eq (heads : Heads false first) (fuel : Nat) (tokens : List Token) :
    readBlockPart (fuel + 1) (ahead handles (first :: tokens)) =
      Node.read fuel .blockOrDashes (ahead handles (first :: tokens)) := by
  cases heads <;> simp [readBlockPart, ahead]

theorem readBlockEntries_cons (heads : Heads false first) (name : List Char)
    (read : Node.read (fuel + 1) .blockOrDashes (ahead handles (first :: tokens)) = .ok (value, ahead handles rest))
    (others : readBlockEntries (fuel + 2) (ahead handles rest) = .ok (entries, r)) :
    readBlockEntries (fuel + 3) (ahead handles (.key :: .scalar (some name) true :: .value :: first :: tokens)) =
      .ok ((scalarNode name true, value) :: entries, r) := by
  have scalar : Heads false (.scalar (some name) true) := .scalar _ _ _
  have key : readBlockPart (fuel + 2) (ahead handles (.scalar (some name) true :: .value :: first :: tokens)) =
      .ok (scalarNode name true, ahead handles (.value :: first :: tokens)) :=
    (readBlockPart_eq scalar _ _).trans (read_scalar fuel _ _ _ _)
  have part := (readBlockPart_eq heads (fuel + 1) tokens).trans read
  rw [readBlockEntries]
  simp only [ahead, bind, Except.bind] at key part others ⊢
  simp only [key, part, others]

theorem readBlockEntries_end (fuel : Nat) (rest : List Token) :
    readBlockEntries (fuel + 1) (ahead handles (.blockEnd :: rest)) = .ok ([], ahead handles rest) := by
  simp [readBlockEntries, ahead]

end step

theorem length_sequence (t : Tree) (more : List Tree) :
    (tokensFor true (.list (t :: more))).length = (itemTokens (t :: more)).length + 2 := by
  simp [tokensFor, itemTokens, Nat.add_assoc]

theorem length_mapping (dash : Bool) (key : String) (t : Tree) (more : List (String × Tree)) :
    (tokensFor dash (.record ((key, t) :: more))).length = (entryTokens ((key, t) :: more)).length + 2 := by
  simp [tokensFor, entryTokens, Nat.add_assoc]

theorem length_itemTokens (t : Tree) (more : List Tree) :
    (itemTokens (t :: more)).length = (tokensFor true t).length + (itemTokens more).length + 1 := by
  simp [itemTokens]

theorem length_entryTokens (key : String) (t : Tree) (more : List (String × Tree)) :
    (entryTokens ((key, t) :: more)).length = (tokensFor false t).length + (entryTokens more).length + 3 := by
  simp [entryTokens]

variable (handles : List (String × String))

mutual
/-- The tokens of a tree are read as its node. Behind a key no dash may follow them, since it would be one more item. -/
theorem read_tokensFor : ∀ (t : Tree) (fuel : Nat) (dash : Bool) (rest : List Token),
    2 * (tokensFor dash t).length + 2 ≤ fuel → (dash = false → rest.head? ≠ some .entry) →
    read fuel (if dash then .block else .blockOrDashes) (ahead handles (tokensFor dash t ++ rest)) =
      .ok (nodeFor t, ahead handles rest)
  | .null, fuel + 1, dash, rest, _, _ => read_scalar fuel _ _ _ _
  | .bool b, fuel + 1, dash, rest, _, _ => read_scalar fuel _ _ _ _
  | .int n, fuel + 1, dash, rest, _, _ => read_scalar fuel _ _ _ _
  | .float x, fuel + 1, dash, rest, _, _ => read_scalar fuel _ _ _ _
  | .text s, fuel + 1, dash, rest, _, _ => read_scalar fuel _ _ _ _
  | .list [], fuel + 2, dash, rest, _, _ => read_emptyList fuel _ _
  | .record [], fuel + 2, dash, rest, _, _ => read_emptyRecord fuel _ _
  | .list (t :: more), fuel + 1, true, rest, enough, _ => by
    rw [length_sequence] at enough
    have items := readBlockItems_itemTokens (t :: more) fuel rest (by omega)
    simpa [tokensFor, itemTokens, nodeFor] using read_sequence items
  | .list (t :: more), fuel + 1, false, rest, enough, stops => by
    have items := readDashes_itemTokens (t :: more) fuel rest (Nat.lt_of_succ_le (Nat.le_of_succ_le_succ enough)) (stops rfl)
    exact read_dashes items
  | .record ((key, t) :: more), fuel + 1, dash, rest, enough, _ => by
    rw [length_mapping] at enough
    have block : (if dash then Position.block else .blockOrDashes) ≠ .flow := by cases dash <;> decide
    have entries := readBlockEntries_entryTokens ((key, t) :: more) fuel rest (by omega)
    simpa [tokensFor, entryTokens, nodeFor] using read_mapping block entries

theorem readBlockItems_itemTokens : ∀ (items : List Tree) (fuel : Nat) (rest : List Token),
    2 * (itemTokens items).length < fuel →
    readBlockItems fuel (ahead handles (itemTokens items ++ .blockEnd :: rest)) = .ok (itemNodes items, ahead handles rest)
  | [], fuel + 1, rest, _ => readBlockItems_end fuel rest
  | t :: more, fuel + 1, rest, enough => by
    obtain ⟨first, tokens, shape, heads⟩ := tokensFor_cons true t
    rw [length_itemTokens] at enough
    have read := read_tokensFor t fuel true (itemTokens more ++ .blockEnd :: rest) (by omega) (by simp)
    have others := readBlockItems_itemTokens more fuel rest (by omega)
    rw [shape] at read
    simpa [itemTokens, shape, itemNodes] using readBlockItems_cons heads read others

theorem readDashes_itemTokens : ∀ (items : List Tree) (fuel : Nat) (rest : List Token),
    2 * (itemTokens items).length < fuel → rest.head? ≠ some .entry →
    readDashes fuel (ahead handles (itemTokens items ++ rest)) = .ok (itemNodes items, ahead handles rest)
  | [], fuel + 1, rest, _, stops => readDashes_end fuel stops
  | t :: more, fuel + 1, rest, enough, stops => by
    obtain ⟨first, tokens, shape, heads⟩ := tokensFor_cons true t
    rw [length_itemTokens] at enough
    have read := read_tokensFor t fuel true (itemTokens more ++ rest) (by omega) (by simp)
    have others := readDashes_itemTokens more fuel rest (by omega) stops
    rw [shape] at read
    simpa [itemTokens, shape, itemNodes] using readDashes_cons heads read others

theorem readBlockEntries_entryTokens : ∀ (entries : List (String × Tree)) (fuel : Nat) (rest : List Token),
    2 * (entryTokens entries).length < fuel →
    readBlockEntries fuel (ahead handles (entryTokens entries ++ .blockEnd :: rest)) =
      .ok (entryNodes entries, ahead handles rest)
  | [], fuel + 1, rest, _ => readBlockEntries_end fuel rest
  | (key, t) :: more, fuel + 3, rest, enough => by
    obtain ⟨first, tokens, shape, heads⟩ := tokensFor_cons false t
    rw [length_entryTokens] at enough
    have stops : (entryTokens more ++ .blockEnd :: rest).head? ≠ some .entry := by
      cases more <;> simp [entryTokens]
    have read := read_tokensFor t (fuel + 1) false (entryTokens more ++ .blockEnd :: rest) (by omega) fun _ => stops
    have others := readBlockEntries_entryTokens more (fuel + 2) rest (by omega)
    rw [shape] at read
    simpa [entryTokens, shape, entryNodes] using readBlockEntries_cons heads key.toList read others
  | (key, t) :: more, 0, rest, enough => absurd enough (Nat.not_lt_zero _)
  | (key, t) :: more, 1, rest, enough => by
    rw [length_entryTokens] at enough
    omega
  | (key, t) :: more, 2, rest, enough => by
    rw [length_entryTokens] at enough
    omega
end

/-- Tokens that start with a node are those of a document without directives. -/
theorem ofTokens_of_read {first : Token} {tokens : List Token} {node : Node} (heads : Heads true first)
    (found : read (2 * (first :: tokens).length + 2) .block (ahead defaultHandles (first :: tokens)) =
      .ok (node, ahead defaultHandles [.textEnd])) :
    ofTokens (first :: tokens) = .ok (some node) := by
  have content : readContent false defaultHandles (first :: tokens) = .ok (node, [.textEnd]) := by
    rw [ahead] at found
    simp only [readContent, found]
    rfl
  have ends : expectEnd [.textEnd] = .ok () := rfl
  cases heads <;> simp only [ofTokens, content, ends, bind, Except.bind]

/-- The lines of a record are read as its node. -/
theorem ofText_writeRecord {entries : List (String × Tree)} (keys : ∀ key ∈ Tree.entryKeys entries, IsKey key.toList)
    (narrow : 2 * Tree.entryDepth entries + 2 < lineWidth) :
    ofText (String.ofList (writeRecord entries)) = .ok (some (nodeFor (.record entries))) := by
  have same : tokensFor true (.record entries) = tokensFor false (.record entries) := by
    cases entries <;> rfl
  obtain ⟨first, tokens, shape, heads⟩ := tokensFor_cons true (.record entries)
  have read := read_tokensFor defaultHandles (.record entries) (2 * (first :: (tokens ++ [Token.textEnd])).length + 2) true
    [.textEnd] (by simp [shape]) (by simp)
  rw [shape, if_pos rfl, List.cons_append] at read
  rw [ofText, String.toList_ofList, tokensOf_writeRecord keys narrow, ← same, shape, List.cons_append]
  exact ofTokens_of_read heads read

end Node
end AgentConfig.Yaml
