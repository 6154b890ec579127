import AgentConfig.Proofs.Yaml.Node
import AgentConfig.Yaml.Datum

namespace AgentConfig.Yaml

/-- A node without names that denotes some value. -/
def Denotes (node : Node) (v : Value) : Prop :=
  ∀ outer known, ∃ d, Datum.ofNode outer node known = (d, known) ∧ d.value = v ∧ d.fault = none

section scalar

variable {s : List Char} {v : Value}

theorem ofNode_scalarNode {plain : Bool} {tag : Tag} (tagged : (if plain then Tag.ofPlain s else .text) = tag)
    (assessed : Datum.assess tag .scalar (.ok (some s)) [] (.ok []) = (v, none)) (outer known : Datum.Known) :
    Datum.ofNode outer (scalarNode s plain) known = (.scalar tag (some s) v none, known) := by
  rw [scalarNode, tagged, Datum.ofNode, assessed]
  rfl

theorem denotes_scalarNode {plain : Bool} {tag : Tag} (tagged : (if plain then Tag.ofPlain s else .text) = tag)
    (assessed : Datum.assess tag .scalar (.ok (some s)) [] (.ok []) = (v, none)) : Denotes (scalarNode s plain) v :=
  fun outer known => ⟨_, ofNode_scalarNode tagged assessed outer known, rfl, rfl⟩

theorem assess_text (s : List Char) :
    Datum.assess .text .scalar (.ok (some s)) [] (.ok []) = (.text (String.ofList s), none) :=
  rfl

theorem denotes_null : Denotes (scalarNode "null".toList true) .null := by
  have tagged : Tag.ofPlain "null".toList = .null := by decide
  exact denotes_scalarNode tagged rfl

theorem denotes_bool (b : Bool) : Denotes (scalarNode (if b then "true" else "false").toList true) (.bool b) := by
  have tagged : Tag.ofPlain (if b then "true" else "false").toList = .bool := by cases b <;> decide
  refine denotes_scalarNode tagged ?_
  cases b <;> rfl

theorem denotes_int {n : Int} (short : (decimalDigits n.natAbs).length ≤ digitLimit) :
    Denotes (scalarNode (Json.writeInt n) true) (.int n) := by
  refine denotes_scalarNode (ofPlain_writeInt n) ?_
  simp [Datum.assess, Datum.scalarValue?, readInt_writeInt short]

theorem denotes_float (x : Binary64) : Denotes (scalarNode (numberLayout.write x) true) (.float x) := by
  have ⟨tagged, read⟩ := float_write x
  refine denotes_scalarNode tagged ?_
  simp [Datum.assess, Datum.scalarValue?, read]

theorem denotes_text (s : String) : Denotes (scalarNode s.toList (styleOf s.toList = .plain)) (.text s) := by
  have tagged : (if decide (styleOf s.toList = .plain) then Tag.ofPlain s.toList else .text) = .text := by
    split_ifs with plain
    · exact (styleOf_eq_plain (of_decide_eq_true plain)).1
    · rfl
  have assessed := assess_text s.toList
  rw [String.ofList_toList] at assessed
  exact denotes_scalarNode tagged assessed

end scalar

section collection

open Datum

/-- An entry of a mapping whose key is a plain text, and whose value has no fault. -/
def IsEntry (entry : Datum × Datum) : Prop :=
  (∃ key, entry.1 = .scalar .text (some key) (.text (String.ofList key)) none) ∧ entry.2.fault = none

theorem foldl_fault {items : List Datum} (faultless : ∀ d ∈ items, d.fault = none) :
    items.foldl (Timed.earlier · ·.fault) none = none := by
  induction items with
  | nil => rfl
  | cons d rest ih =>
    rw [List.foldl_cons, faultless d List.mem_cons_self]
    exact ih fun d mem => faultless d (List.mem_cons_of_mem _ mem)

theorem entriesFault_none {entries : List (Datum × Datum)} (all : ∀ entry ∈ entries, IsEntry entry) :
    entriesFault entries = none := by
  rw [entriesFault]
  induction entries with
  | nil => rfl
  | cons entry rest ih =>
    obtain ⟨k, d⟩ := entry
    obtain ⟨⟨key, rfl⟩, faultless⟩ := all _ List.mem_cons_self
    have faultless : d.fault = none := faultless
    rw [List.foldl_cons]
    simp only [faultless]
    exact ih fun entry mem => all entry (List.mem_cons_of_mem _ mem)

/-- Without keys of merges a mapping has its own entries. -/
theorem mergeEntries_self {entries : List (Datum × Datum)} (all : ∀ entry ∈ entries, IsEntry entry) :
    mergeEntries entries = .ok entries := by
  have split : splitMerges entries = .ok ([], entries) := by
    induction entries with
    | nil => rfl
    | cons entry rest ih =>
      obtain ⟨k, d⟩ := entry
      obtain ⟨⟨key, rfl⟩, -⟩ := all _ List.mem_cons_self
      have others := ih fun entry mem => all entry (List.mem_cons_of_mem _ mem)
      simp [splitMerges, asKey, hasTag, tag, others, bind, Except.bind]
  rw [mergeEntries, split]
  rfl

/-- Nodes that denote some values, none of them faulty. -/
def DenotesAll (nodes : List Node) (vs : List Value) : Prop :=
  ∀ outer known, ∃ ds, ofNodes outer nodes known = (ds, known) ∧ ds.map value = vs ∧ ∀ d ∈ ds, d.fault = none

def DenotesEntries (nodes : List (Node × Node)) (vs : List (Value × Value)) : Prop :=
  ∀ outer known, ∃ ds, Datum.ofEntries outer nodes known = (ds, known) ∧
    ds.map (fun (key, d) => (key.value, d.value)) = vs ∧ ∀ entry ∈ ds, IsEntry entry

theorem denotesAll_nil : DenotesAll [] [] := fun _ _ =>
  ⟨[], rfl, rfl, by simp⟩

theorem DenotesAll.cons {node : Node} {v : Value} {nodes : List Node} {vs : List Value} (first : Denotes node v)
    (others : DenotesAll nodes vs) : DenotesAll (node :: nodes) (v :: vs) := by
  intro outer known
  obtain ⟨d, found, rfl, faultless⟩ := first outer known
  obtain ⟨ds, rest, rfl, clean⟩ := others outer known
  refine ⟨d :: ds, ?_, rfl, ?_⟩
  · rw [ofNodes, found]
    simp only [rest]
  · simpa [faultless] using clean

theorem denotesEntries_nil : DenotesEntries [] [] := fun _ _ =>
  ⟨[], rfl, rfl, by simp⟩

theorem DenotesEntries.cons {key : List Char} (name : Tag.ofPlain key = .text) {node : Node} {v : Value}
    {nodes : List (Node × Node)} {vs : List (Value × Value)} (first : Denotes node v) (others : DenotesEntries nodes vs) :
    DenotesEntries ((scalarNode key true, node) :: nodes) ((.text (String.ofList key), v) :: vs) := by
  intro outer known
  have tagged : (if true then Tag.ofPlain key else .text) = .text := name
  have named := ofNode_scalarNode tagged (assess_text key) outer known
  obtain ⟨d, found, rfl, faultless⟩ := first outer known
  obtain ⟨ds, rest, rfl, clean⟩ := others outer known
  refine ⟨(.scalar .text (some key) (.text (String.ofList key)) none, d) :: ds, ?_, rfl, ?_⟩
  · rw [Datum.ofEntries, named]
    simp only [found, rest]
  · intro entry mem
    obtain rfl | mem := List.mem_cons.1 mem
    · exact ⟨⟨key, rfl⟩, faultless⟩
    · exact clean entry mem

theorem DenotesAll.sequence {nodes : List Node} {vs : List Value} (all : DenotesAll nodes vs) :
    Denotes (.sequence none .sequence nodes) (.list vs) := by
  intro outer known
  obtain ⟨ds, found, rfl, clean⟩ := all outer known
  refine ⟨_, by rw [ofNode, found]; rfl, ?_, ?_⟩
  · rfl
  · change inside (ds.foldl (Timed.earlier · ·.fault) none) = none
    rw [foldl_fault clean]
    rfl

theorem DenotesEntries.mapping {nodes : List (Node × Node)} {vs : List (Value × Value)} (all : DenotesEntries nodes vs) :
    Denotes (.mapping none .mapping nodes) (.map vs) := by
  intro outer known
  obtain ⟨ds, found, rfl, clean⟩ := all outer known
  refine ⟨_, by rw [ofNode, found]; rfl, ?_, ?_⟩
  · simp [value, mergeEntries_self clean, entriesValue]
  · simp [fault, mergeEntries_self clean, entriesFault_none clean, inside]

end collection

mutual
/-- The node that a tree is written as denotes the tree. -/
theorem denotes_nodeFor : ∀ t : Tree, (∀ key ∈ t.keys, Tag.ofPlain key.toList = .text) → isWritable t = true →
    Denotes (nodeFor t) (.ofTree t)
  | .null, _, _ => denotes_null
  | .bool b, _, _ => denotes_bool b
  | .int _, _, short => denotes_int (of_decide_eq_true short)
  | .float x, _, _ => denotes_float x
  | .text s, _, _ => denotes_text s
  | .list items, names, short => (denotesAll_itemNodes items names short).sequence
  | .record entries, names, short => (denotesEntries_entryNodes entries names short).mapping

theorem denotesAll_itemNodes : ∀ items : List Tree, (∀ key ∈ Tree.itemKeys items, Tag.ofPlain key.toList = .text) →
    areWritable items = true → DenotesAll (itemNodes items) (Value.ofTrees items)
  | [], _, _ => denotesAll_nil
  | t :: rest, names, short => by
    rw [Tree.itemKeys] at names
    rw [areWritable, Bool.and_eq_true] at short
    have first := denotes_nodeFor t (fun key mem => names key (List.mem_append_left _ mem)) short.1
    have others := denotesAll_itemNodes rest (fun key mem => names key (List.mem_append_right _ mem)) short.2
    exact DenotesAll.cons first others

theorem denotesEntries_entryNodes : ∀ entries : List (String × Tree),
    (∀ key ∈ Tree.entryKeys entries, Tag.ofPlain key.toList = .text) → entriesWritable entries = true →
    DenotesEntries (entryNodes entries) (Value.ofEntries entries)
  | [], _, _ => denotesEntries_nil
  | (key, t) :: rest, names, short => by
    rw [Tree.entryKeys] at names
    rw [entriesWritable, Bool.and_eq_true] at short
    have name := names key List.mem_cons_self
    have first := denotes_nodeFor t (fun k mem => names k (List.mem_cons_of_mem _ (List.mem_append_left _ mem))) short.1
    have others := denotesEntries_entryNodes rest
      (fun k mem => names k (List.mem_cons_of_mem _ (List.mem_append_right _ mem))) short.2
    have denotes := DenotesEntries.cons name first others
    rw [String.ofList_toList] at denotes
    exact denotes
end

theorem valueOf_of_denotes {node : Node} {v : Value} (denotes : Denotes node v) : valueOf node = .ok v := by
  have root : ∀ n, ∃ d, Datum.ofRoot node n = (d, []) ∧ d.value = v ∧ d.fault = none := by
    intro n
    cases n with
    | zero => exact denotes [] []
    | succ n => exact denotes _ []
  obtain ⟨d, found, rfl, faultless⟩ := root Datum.unfoldings
  simp only [valueOf, found, faultless]

/-- What is written for a record is read back, if all keys are names and integers are short. -/
theorem read_writeRecord {entries : List (String × Tree)} (keys : ∀ key ∈ Tree.entryKeys entries, IsKey key.toList)
    (names : ∀ key ∈ Tree.entryKeys entries, Tag.ofPlain key.toList = .text)
    (narrow : 2 * Tree.entryDepth entries + 2 < lineWidth) (short : entriesWritable entries = true) :
    read (String.ofList (writeRecord entries)) = .ok (.ofTree (.record entries)) := by
  have node := Node.ofText_writeRecord keys narrow
  have value := valueOf_of_denotes (denotes_nodeFor (.record entries) names short)
  simp only [read, node, value, bind, Except.bind]

end AgentConfig.Yaml
