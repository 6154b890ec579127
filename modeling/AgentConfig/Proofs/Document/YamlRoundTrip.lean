import AgentConfig.Proofs.Document.JsonRoundTrip
import AgentConfig.Proofs.Runtime
import AgentConfig.Proofs.Yaml.Datum

namespace AgentConfig

mutual
/-- The keys that data of a shape may have. -/
def Shape.keys (naming : Naming) : {α : Type} → Shape α → List String
  | _, .nullable inner => inner.keys naming
  | _, .list item => item.keys naming
  | _, .record _ fields _ => fields.keys naming
  | _, _ => []

def Fields.keys (naming : Naming) : {ρ : Type} → Fields ρ → List String
  | _, .nil => []
  | _, .cons label shape _ rest => label.key naming :: (shape.keys naming ++ rest.keys naming)
end

theorem Tree.mem_itemKeys {key : String} {items : List Tree} : key ∈ itemKeys items ↔ ∃ t ∈ items, key ∈ t.keys := by
  induction items with
  | nil => simp [itemKeys]
  | cons t items ih => simp [itemKeys, ih]

mutual
theorem Shape.keys_write {naming : Naming} : ∀ {α : Type} (shape : Shape α) {a : α} {t : Tree},
    shape.write naming a = some t → ∀ key ∈ t.keys, key ∈ shape.keys naming
  | _, .text _, _, _, written, key, member | _, .bool, _, _, written, key, member
  | _, .choice _, _, _, written, key, member | _, .int, _, _, written, key, member
  | _, .secret, .text _, _, written, key, member => by
    obtain rfl := Option.some.inj written
    simp [Tree.keys] at member
  | _, .secret, .foreign, _, written, _, _ => by simp [Shape.write] at written
  | _, .float, x, _, written, key, member => by
    obtain rfl := Option.some.inj written
    split_ifs at member <;> simp [Tree.keys] at member
  | _, .nullable inner, none, _, written, key, member => by
    obtain rfl := Option.some.inj written
    simp [Tree.keys] at member
  | _, .nullable inner, some a, _, written, key, member => inner.keys_write written key member
  | _, .list item, as, _, written, key, member => by
    obtain ⟨items, all, rfl⟩ := Option.map_eq_some_iff.mp written
    obtain ⟨t, inItems, inside⟩ := Tree.mem_itemKeys.mp member
    obtain ⟨a, -, first⟩ := exists_of_mem_allSome all inItems
    exact item.keys_write first key inside
  | _, .record _ fields _, _, _, written, key, member => by
    obtain ⟨entries, all, rfl⟩ := Option.map_eq_some_iff.mp written
    exact fields.keys_write all key member

theorem Fields.keys_write {naming : Naming} : ∀ {ρ : Type} (fields : Fields ρ) {r : ρ} {entries : List (String × Tree)},
    fields.write naming r = some entries → ∀ key ∈ Tree.entryKeys entries, key ∈ fields.keys naming
  | _, .nil, _, entries, written, key, member => by
    obtain rfl : [] = entries := Option.some.inj written
    simp [Tree.entryKeys] at member
  | _, .cons label shape _ rest, (_, _), _, written, key, member => by
    obtain ⟨t, others, first, remaining, rfl⟩ := Fields.write_cons written
    rw [Fields.keys, List.mem_cons, List.mem_append]
    split_ifs at member
    · exact .inr (.inr (rest.keys_write remaining key member))
    · rw [Tree.entryKeys, List.mem_cons, List.mem_append] at member
      exact member.imp id (Or.imp (shape.keys_write first key) (rest.keys_write remaining key))
end

namespace Yaml

mutual
/-- What can be written depends on the integers alone. -/
theorem isWritable_iff : ∀ t : Tree,
    isWritable t = true ↔ ∀ n, .int n ∈ t.leaves → (decimalDigits n.natAbs).length ≤ digitLimit
  | .null | .bool _ | .float _ | .text _ => by simp [isWritable, Tree.leaves]
  | .int n => by simp [isWritable, Tree.leaves]
  | .list items => areWritable_iff items
  | .record entries => entriesWritable_iff entries

theorem areWritable_iff : ∀ items : List Tree,
    areWritable items = true ↔ ∀ n, .int n ∈ Tree.itemLeaves items → (decimalDigits n.natAbs).length ≤ digitLimit
  | [] => by simp [areWritable, Tree.itemLeaves]
  | t :: rest => by
    rw [areWritable, Bool.and_eq_true, isWritable_iff t, areWritable_iff rest]
    simp only [Tree.itemLeaves, List.mem_append, or_imp, forall_and]

theorem entriesWritable_iff : ∀ entries : List (String × Tree),
    entriesWritable entries = true ↔
      ∀ n, .int n ∈ Tree.entryLeaves entries → (decimalDigits n.natAbs).length ≤ digitLimit
  | [] => by simp [entriesWritable, Tree.entryLeaves]
  | (_, t) :: rest => by
    rw [entriesWritable, Bool.and_eq_true, isWritable_iff t, entriesWritable_iff rest]
    simp only [Tree.entryLeaves, List.mem_append, or_imp, forall_and]
end

end Yaml

/-- What can be written as YAML: integers that have not too many digits, numbers of any kind, and no
foreign objects. -/
def Demands.printable : Demands where
  int n := (decimalDigits n.natAbs).length ≤ digitLimit
  float _ := True
  secret s := s ≠ .foreign

namespace Document

variable {d : Document} {text : String}

/-- All keys of documents are plain words that are texts. -/
theorem isKey_keys : ∀ key ∈ shape.keys .document, Yaml.IsKey key.toList ∧ Yaml.Tag.ofPlain key.toList = .text := by
  decide +kernel

theorem toYaml_eq_ok (written : d.toYaml = .ok text) : ∃ entries, shape.write .document d = some (.record entries) ∧
    Yaml.entriesWritable entries = true ∧ text = String.ofList (Yaml.writeRecord entries) := by
  unfold toYaml at written
  split at written
  · next entries tree =>
    split_ifs at written with short
    exact ⟨entries, tree, short, (Except.ok.inj written).symm⟩
  · contradiction

/-- All characters of a document in YAML are visible. -/
theorem visible_toYaml (written : d.toYaml = .ok text) : Yaml.Visible text.toList := by
  obtain ⟨entries, tree, -, rfl⟩ := toYaml_eq_ok written
  rw [String.toList_ofList]
  exact Yaml.visible_writeRecord fun key member => (isKey_keys key (shape.keys_write tree key member)).1

/-- What is written is read as the tree that stands for the document. -/
theorem ofYaml_eq_check [Runtime] {t : Tree} (tree : shape.write .document d = some t) (written : d.toYaml = .ok text) :
    ofYaml text = (shape.check .native (.ofTree t)).mapError .invalid := by
  obtain ⟨entries, tree', short, rfl⟩ := toYaml_eq_ok written
  obtain rfl : t = .record entries := Option.some.inj (tree.symm.trans tree')
  have keys : ∀ key ∈ Tree.entryKeys entries, Yaml.IsKey key.toList ∧ Yaml.Tag.ofPlain key.toList = .text :=
    fun key member => isKey_keys key (shape.keys_write tree key member)
  have narrow : 2 * Tree.entryDepth entries + 2 < Yaml.lineWidth := by
    have inner : Tree.entryDepth entries ≤ (Tree.record entries).depth := by
      cases entries <;> simp [Tree.depth, Tree.entryDepth]
    have bound := inner.trans (shape.depth_write tree)
    have shallow : 2 * shape.depth + 2 < Yaml.lineWidth := by decide
    omega
  have read := Yaml.read_writeRecord (fun key member => (keys key member).1) (fun key member => (keys key member).2) narrow
    short
  have loaded := Yaml.load_of_not_holdsSet read (Value.holdsSet_ofTree _)
  simp only [ofYaml, loaded, Value.ofTree]
  cases shape.check .native (.map (Value.ofEntries entries)) <;> rfl

/-- A document without infinite numbers is read back from YAML. -/
theorem ofYaml_toYaml [Runtime] (finite : shape.Meets .finite d) (written : d.toYaml = .ok text) : ofYaml text = .ok d := by
  obtain ⟨entries, tree, -⟩ := toYaml_eq_ok written
  rw [ofYaml_eq_check tree written]
  rcases shape.read_write .native sound tree with ⟨-, back⟩ | ⟨infinite, -⟩
  · rw [Shape.check, back]
    rfl
  · exact absurd finite infinite

/-- A document with an infinite number or NaN is refused once it has been written. -/
theorem ofYaml_toYaml_infinite [Runtime] (infinite : ¬ shape.Meets .finite d) (written : d.toYaml = .ok text) :
    ∃ e, ofYaml text = .error (.invalid e) := by
  obtain ⟨entries, tree, -⟩ := toYaml_eq_ok written
  rw [ofYaml_eq_check tree written]
  rcases shape.read_write .native sound tree with ⟨finite, -⟩ | ⟨-, problems, refused⟩
  · exact absurd finite infinite
  · rw [Shape.check, refused]
    exact ⟨_, rfl⟩

/-- A document is written as YAML unless its key is foreign or one of its integers is too long. -/
theorem exists_toYaml (meets : shape.Meets .printable d) : ∃ text, d.toYaml = .ok text := by
  obtain ⟨t, tree⟩ := shape.write_isSome (fun _ clean => clean) .document meets
  obtain ⟨entries, -, rfl⟩ := Option.map_eq_some_iff.mp tree
  have short : Yaml.entriesWritable entries = true :=
    (Yaml.isWritable_iff (.record entries)).mpr fun n member => (shape.leaves_write meets tree _ member).1 n rfl
  exact ⟨_, by rw [toYaml, tree]; exact if_pos short⟩

/-- What has a written form but none in YAML has too long an integer. -/
theorem toYaml_eq_error {e : WriteError} (meets : shape.Meets .written d) : d.toYaml = .error e ↔
    e = .tooManyDigits ∧ ¬ shape.Meets (.ints Demands.printable.int) d := by
  obtain ⟨t, tree⟩ := shape.write_isSome (fun _ clean => clean) .document meets
  obtain ⟨entries, -, rfl⟩ := Option.map_eq_some_iff.mp tree
  have short : Yaml.entriesWritable entries = true ↔ shape.Meets (.ints Demands.printable.int) d := by
    rw [Yaml.entriesWritable_iff]
    exact ⟨shape.meets_ints tree, fun ints n member => (shape.leaves_write ints tree _ member).1 n rfl⟩
  rw [← short, toYaml, tree]
  simp only
  split_ifs with writable
  · simp [writable]
  · simp [writable, eq_comm]

theorem printable_of_storable {α : Type} (shape : Shape α) {a : α} (meets : shape.Meets .storable a) :
    shape.Meets .printable a :=
  Shape.Meets.imp (d := .storable) (e := .printable) (fun _ short => short) (fun _ _ => trivial) (fun _ clean => clean) shape meets

theorem boundless_printable : shape.Meets .printable { servers := [boundlessServer] } := by
  have port : Demands.printable.int 27017 := by simp only [Demands.printable]; decide
  have authSchema : Demands.printable.int 5 := by simp only [Demands.printable]; decide
  have arguments : Arguments.shape.Meets .printable boundlessServer.arguments :=
    ⟨⟨port, (fun _ given => by contradiction), trivial⟩, ⟨trivial, ⟨⟨trivial, trivial⟩, trivial⟩, trivial⟩,
      ⟨trivial, trivial⟩, trivial⟩
  have server : Server.shape.Meets .printable boundlessServer :=
    ⟨trivial, trivial, arguments, trivial, trivial, trivial, authSchema, ⟨trivial, trivial, trivial⟩, trivial⟩
  have rest : shape.Meets .printable { version := 0 } :=
    meets_version (by simp only [Demands.printable]; decide) (by simp [Demands.printable])
  exact ⟨rest.1, fun server' member => by rwa [List.mem_singleton.mp member], rest.2.2⟩

/-- NaN is not read back: the cache without a size is stored as null. -/
theorem boundless_not_read_back : shape.Meets .printable { servers := [boundlessServer] } ∧
    ∃ text, toYaml { servers := [boundlessServer] } = .ok text ∧ ∀ d, ofYaml text ≠ .ok d := by
  obtain ⟨text, written⟩ := exists_toYaml boundless_printable
  have infinite : ¬ shape.Meets .finite { servers := [boundlessServer] } := fun finite =>
    absurd (finite_iff.mp finite boundlessServer (List.mem_singleton_self _)) (by decide)
  obtain ⟨e, refused⟩ := ofYaml_toYaml_infinite infinite written
  exact ⟨boundless_printable, text, written, fun d read => by simp [refused] at read⟩

/-- Storing documents as YAML loses nothing as long as the sizes of all caches are finite. What is stored
otherwise is refused. -/
theorem yaml_round_trip [Runtime] (meets : shape.Meets .printable d) : ∃ text, d.toYaml = .ok text ∧
    ((∀ server ∈ d.servers, server.cacheSize.isFinite) → ofYaml text = .ok d ∧ d.equal d) ∧
    ((∃ server ∈ d.servers, ¬ server.cacheSize.isFinite) → ∃ e, ofYaml text = .error (.invalid e)) := by
  obtain ⟨text, written⟩ := exists_toYaml meets
  refine ⟨text, written, fun sizes => ?_, fun ⟨server, member, infinite⟩ => ?_⟩
  · have finite := finite_iff.mpr sizes
    have equal : shape.equal d d := shape.equal_self_iff.mpr (Shape.Meets.imp (d := Demands.printable.both .finite)
      (e := .reflexive) (fun _ _ => trivial) (fun _ known => Binary64.ne_nan_of_isFinite known.2)
      (fun _ known => known.1) shape (Shape.Meets.both shape meets finite))
    exact ⟨ofYaml_toYaml finite written, equal⟩
  · exact ofYaml_toYaml_infinite (fun finite => infinite (finite_iff.mp finite server member)) written

theorem yaml_round_trip_specimen :
    (shape.Meets .printable (specimen (-42)) ∧ (∀ server ∈ (specimen (-42)).servers, server.cacheSize.isFinite) ∧
      ∃ text, (specimen (-42)).toYaml = .ok text ∧ ofYaml text = .ok (specimen (-42)) ∧
        (specimen (-42)).equal (specimen (-42))) ∧
    shape.Meets .printable { servers := [boundlessServer] } ∧ ¬ boundlessServer.cacheSize.isFinite ∧
    ∃ text, toYaml { servers := [boundlessServer] } = .ok text ∧ ∃ e, ofYaml text = .error (.invalid e) := by
  have printable : shape.Meets .printable (specimen (-42)) :=
    printable_of_storable shape (specimen_storable (by simp only [Demands.storable]; decide))
  have sizes : ∀ server ∈ (specimen (-42)).servers, server.cacheSize.isFinite := fun server member => by
    rw [List.mem_singleton.mp member]
    decide
  have infinite : ¬ boundlessServer.cacheSize.isFinite := by decide
  obtain ⟨text, written, back, -⟩ := yaml_round_trip printable
  obtain ⟨text', written', -, refused⟩ := yaml_round_trip boundless_printable
  exact ⟨⟨printable, sizes, text, written, back sizes⟩, boundless_printable, infinite, text', written',
    refused ⟨boundlessServer, List.mem_singleton_self _, infinite⟩⟩

end Document
end AgentConfig
