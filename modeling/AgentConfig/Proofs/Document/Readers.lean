import AgentConfig.Proofs.Document.Sound
import AgentConfig.Proofs.Number.Binary64
import AgentConfig.Proofs.Schema.Read

namespace AgentConfig

/-- The integers among the leaves are finite numbers. -/
def Tree.IntsFinite (leaves : List Tree) : Prop :=
  ∀ n, Tree.int n ∈ leaves → (Binary64.ofInt n).isFinite

mutual
/-- As long as integers are finite numbers, all that depends on the source of data is how problems are worded. -/
theorem Shape.toOption_read_source (source source' : Source) : ∀ {α : Type} (shape : Shape α) {t : Tree},
    Tree.IntsFinite t.leaves → (shape.read source (.ofTree t)).toOption = (shape.read source' (.ofTree t)).toOption
  | _, .text _, _, _ | _, .secret, _, _ | _, .int, _, _ | _, .bool, _, _ | _, .choice _, _, _ => by
    rw [Shape.read, Shape.read]
  | _, .float, t, finite => by
    cases t with
    | int n => simp [Shape.read, Value.ofTree, Value.readFloat, finite n (List.mem_singleton_self _)]
    | _ => simp only [Shape.read, Value.ofTree, Value.readFloat]
  | _, .nullable inner, t, finite => by
    have same := inner.toOption_read_source source source' finite
    cases t with
    | null => simp only [Shape.read, Value.ofTree]
    | _ =>
      simp only [Shape.read, Value.ofTree, Checked.toOption_map] at same ⊢
      rw [same]
  | _, .list item, t, finite => by
    cases t with
    | list items =>
      have each : ∀ t ∈ items, (item.read source (.ofTree t)).toOption = (item.read source' (.ofTree t)).toOption :=
        fun t member => item.toOption_read_source source source' fun n inside =>
          finite n (Tree.mem_itemLeaves.mpr ⟨t, member, inside⟩)
      simp only [Shape.read, Value.ofTree, Checked.toOption_items, Value.ofTrees_eq_map, List.map_map]
      exact congrArg allSome (List.map_congr_left each)
    | _ => simp only [Shape.read, Value.ofTree, Checked.fail, Except.toOption]
  | _, .record _ fields parts, t, finite => by
    cases t with
    | record entries =>
      simp only [Shape.read, Value.ofTree, Checked.toOption_map]
      rw [fields.toOption_read_source source source' finite]
    | _ => simp only [Shape.read, Value.ofTree, Checked.fail, Except.toOption]

theorem Fields.toOption_read_source (source source' : Source) : ∀ {ρ : Type} (fields : Fields ρ)
    {entries : List (String × Tree)}, Tree.IntsFinite (Tree.entryLeaves entries) →
      (fields.read source (Value.ofEntries entries)).toOption = (fields.read source' (Value.ofEntries entries)).toOption
  | _, .nil, _, _ => rfl
  | _, .cons label shape fallback rest, entries, finite => by
    have first : shape.readField source label fallback entries = shape.readField source' label fallback entries := by
      rw [Shape.readField, Shape.readField]
      cases found : label.tree? entries with
      | none => simp only [Option.elim_none]
      | some t =>
        obtain ⟨key, member⟩ := Label.exists_of_tree? found
        simp only [Option.elim_some]
        exact shape.toOption_read_source source source' fun n inside =>
          finite n (Tree.mem_entryLeaves.mpr ⟨_, member, inside⟩)
    have others := rest.toOption_read_source source source' finite
    rw [Fields.toOption_read_cons, Fields.toOption_read_cons, first, others]
end

/-- Plain data that are not too long and not too deep: their integers have at most 300 digits, their other numbers
are finite, and they are nested at most 100 deep. -/
structure Tree.Moderate (t : Tree) : Prop where
  digits : ∀ n, .int n ∈ t.leaves → (decimalDigits n.natAbs).length ≤ 300
  finite : Json.AllFinite t.leaves
  depth : t.depth ≤ 100

namespace Tree.Moderate

variable {t : Tree}

theorem intsFinite (moderate : t.Moderate) : IntsFinite t.leaves := fun n member => by
  have bound : n.natAbs < 10 ^ 300 := (Nat.length_toDigits_le_iff (by decide) (by decide)).mp (moderate.digits n member)
  exact Binary64.isFinite_ofInt (bound.trans_le (by decide +kernel))

theorem not_holdsLong (moderate : t.Moderate) : ¬ Json.HoldsLong digitLimit t.leaves := by
  rintro ⟨n, member, long⟩
  have digits := moderate.digits n member
  rw [digitLimit] at long
  omega

theorem read_write (moderate : t.Moderate) (indent : Json.Indent) : Json.read (Json.write indent t) = .ok t :=
  Json.read_write moderate.finite moderate.not_holdsLong (moderate.depth.trans (by decide)) indent

end Tree.Moderate

/-- Reading a text comes to the same as reading the data that the text stands for. -/
theorem Shape.ofJson_eq_ok {α : Type} (shape : Shape α) {t : Tree} {text : String} {a : α}
    (finite : Tree.IntsFinite t.leaves) (read : Json.read text = .ok t) :
    shape.ofJson text = .ok a ↔ shape.check .native (.ofTree t) = .ok a := by
  have json : shape.ofJson text = shape.check .json (.ofTree t) := by rw [ofJson, read]
  rw [json, check_eq_ok, check_eq_ok, ← Checked.toOption_eq_some, shape.toOption_read_source .json .native finite,
    Checked.toOption_eq_some]

/-- A text in the data, given for a number, denotes NaN. -/
def Tree.NamesNaN (t : Tree) : Prop :=
  ∃ s, .text s ∈ t.leaves ∧ NumberText.readFloat s.toList = .ok .nan

theorem Tree.Moderate.accepts_reflexive {t leaf : Tree} (moderate : t.Moderate) (source : Source) (other : ¬ t.NamesNaN)
    (member : leaf ∈ t.leaves) : Demands.reflexive.Accepts source leaf where
  int _ _ := trivial
  float x read := by
    rintro rfl
    cases leaf with
    | null | list _ | record _ => contradiction
    | bool b =>
      have denoted : (if b then .one else .zero false) = Binary64.nan := Except.ok.inj read
      cases b with
      | false => cases denoted
      | true =>
        rw [if_pos rfl] at denoted
        exact Binary64.ne_nan_of_isFinite Binary64.isFinite_one denoted
    | int n =>
      have finite := moderate.intsFinite n member
      simp only [Value.ofTree, Value.readFloat, finite, Bool.true_or, if_true, Except.ok.injEq] at read
      exact Binary64.ne_nan_of_isFinite finite read
    | float x =>
      obtain rfl := Except.ok.inj read
      exact Binary64.ne_nan_of_isFinite (moderate.finite _ member) rfl
    | text s => exact other ⟨s, member, read⟩
  secret _ same := by cases same

theorem Described.usual_reflexive : ∀ record ∈ Described.all, record.shape.UsualMeets .reflexive := by
  have one : Binary64.one ≠ .nan := Binary64.ne_nan_of_isFinite Binary64.isFinite_one
  simp [Described.all, ServerTls.shape, TlsMode.shape, Network.shape, EngineTuning.shape, StorageEngine.shape,
    Storage.shape, Replication.shape, Arguments.shape, LogTarget.shape, ServerKind.shape, Server.shape, Member.shape,
    ReplicaSet.shape, Role.shape, User.shape, Auth.shape, AgentTls.shape, CertificateMode.shape, AgentOptions.shape,
    Build.shape, Release.shape, Document.shape, Shape.UsualMeets, Fields.UsualMeets, Shape.Meets, Fields.Meets,
    Demands.reflexive, one]

/-- The two readers agree: what stands in a JSON text is accepted just when the data themselves are, and comes to the same.
What the readers accept is equal unless there is a NaN in it, which only a text in the data can have denoted. -/
theorem readers_agree : ∀ record ∈ Described.all, ∀ t : Tree, t.Moderate →
    (∀ indent, Json.read (Json.write indent t) = .ok t) ∧
    ∀ text, Json.read text = .ok t →
      (∀ a, record.shape.ofJson text = .ok a ↔ record.shape.check .native (.ofTree t) = .ok a) ∧
      ∀ a b, record.shape.ofJson text = .ok a → record.shape.check .native (.ofTree t) = .ok b →
        (record.shape.equal a b ↔ record.shape.Meets .reflexive a) ∧ (¬ t.NamesNaN → record.shape.equal a b) := by
  intro record known t moderate
  refine ⟨moderate.read_write, fun text read => ?_⟩
  have agree : ∀ a, record.shape.ofJson text = .ok a ↔ record.shape.check .native (.ofTree t) = .ok a := fun a =>
    record.shape.ofJson_eq_ok moderate.intsFinite read
  refine ⟨agree, fun a b first second => ?_⟩
  obtain rfl : a = b := Except.ok.inj (((agree a).mp first).symm.trans second)
  refine ⟨record.shape.equal_self_iff, fun other => record.shape.equal_self_iff.mpr ?_⟩
  exact record.shape.meets_of_read (Described.usual_reflexive record known)
    (fun leaf member => moderate.accepts_reflexive .native other member) (Shape.check_eq_ok.mp second)

/-- A server whose port is a text, and whose version of authentication and size of the cache are truth values. -/
def coercedServer : Tree :=
  .record [("name", .text "a"), ("hostname", .text "b"), ("authSchemaVersion", .bool true),
    ("args2_6", .record [("net", .record [("port", .text " 27_018 ")]),
      ("storage", .record [("wiredTiger", .record [("engineConfig", .record [("cacheSizeGB", .bool true)])])])])]

theorem coercedServer_moderate : coercedServer.Moderate where
  digits n member := by
    simp [coercedServer, Tree.leaves, Tree.entryLeaves] at member
  finite x member := by
    simp [coercedServer, Tree.leaves, Tree.entryLeaves] at member
  depth := by decide

theorem readers_agree_coerced : ⟨_, Server.shape⟩ ∈ Described.all ∧ coercedServer.Moderate ∧ ¬ coercedServer.NamesNaN ∧
    ∃ server : Server, server.arguments.network.port = 27018 ∧ server.authSchema = 1 ∧
      Server.shape.check .native (.ofTree coercedServer) = .ok server ∧
      Server.shape.ofJson (Json.write none coercedServer) = .ok server ∧ Server.shape.equal server server := by
  have member : ⟨_, Server.shape⟩ ∈ Described.all := by simp [Described.all]
  have other : ¬ coercedServer.NamesNaN := by
    rintro ⟨s, among, denotes⟩
    obtain rfl | rfl | rfl : s = "a" ∨ s = "b" ∨ s = " 27_018 " := by
      simpa [coercedServer, Tree.leaves, Tree.entryLeaves] using among
    all_goals exact absurd denotes (by decide +kernel)
  obtain ⟨written, agree⟩ := readers_agree _ member coercedServer coercedServer_moderate
  obtain ⟨both, equal⟩ := agree _ (written none)
  have native : ∃ server : Server, server.arguments.network.port = 27018 ∧ server.authSchema = 1 ∧
      Server.shape.check .native (.ofTree coercedServer) = .ok server := ⟨_, rfl, rfl, rfl⟩
  obtain ⟨server, port, authSchema, checked⟩ := native
  have read := (both server).mpr checked
  exact ⟨member, coercedServer_moderate, other, server, port, authSchema, checked, read,
    (equal server server read checked).2 other⟩

/-- A size of the cache that is no number. -/
def unsizedTuning : Tree :=
  .record [("cacheSizeGB", .text "nan")]

/-- Both readers accept a text that denotes NaN, and then what they have read is not equal. -/
theorem nan_read_unequal : ⟨_, EngineTuning.shape⟩ ∈ Described.all ∧ unsizedTuning.Moderate ∧
    ∃ tuning tuning' : EngineTuning, EngineTuning.shape.ofJson (Json.write none unsizedTuning) = .ok tuning ∧
      EngineTuning.shape.check .native (.ofTree unsizedTuning) = .ok tuning' ∧
      EngineTuning.shape.equal tuning tuning' = false := by
  have moderate : unsizedTuning.Moderate :=
    { digits := fun n member => by simp [unsizedTuning, Tree.leaves, Tree.entryLeaves] at member
      finite := fun x member => by simp [unsizedTuning, Tree.leaves, Tree.entryLeaves] at member
      depth := by decide }
  have native : EngineTuning.shape.check .native (.ofTree unsizedTuning) = .ok { cacheSize := .nan } := by rfl
  have read := (EngineTuning.shape.ofJson_eq_ok moderate.intsFinite (moderate.read_write none)).mpr native
  exact ⟨by simp [Described.all], moderate, _, _, read, native, rfl⟩

end AgentConfig
