import AgentConfig.Proofs.Document.Canonical
import AgentConfig.Proofs.Schema.Keys

namespace AgentConfig

/-- In no record of a document is a field left out that would come back as something else. -/
theorem Described.emptyByDefault : ∀ record ∈ Described.all, record.shape.emptyByDefault := by
  simp only [Described.all, List.forall_mem_cons]
  decide

/-- The encryption of a server is not among the fields that are left out, wherever it is set. -/
theorem Network.ssl_mem_declaredKeys {x : Network} (naming : Naming) (set : x.tls.isSome) :
    "ssl" ∈ Network.shape.declaredKeys naming x := by
  obtain ⟨port, tls⟩ := x
  obtain ⟨tls, rfl⟩ := Option.isSome_iff_exists.mp set
  cases naming <;> exact .tail _ (.head _)

/-- All records of a document are written with their declared keys at every depth, under either naming: each field has
its entry, in order, unless it is one of those that are left out when empty, and is empty. -/
theorem keys_as_declared :
    (∀ record ∈ Described.all, ∀ a, record.shape.Meets .written a → ∀ naming, ∃ t,
      record.shape.toJson naming none a = some (Json.write none t) ∧
      ∀ part, Relation.ReflTransGen (Portion.In naming) part ⟨_, record.shape, a, t⟩ →
        part.shape.write naming part.value = some part.tree ∧ part.IsLaidOut naming) ∧
    (∀ record ∈ Described.all, ∀ a naming, ∀ field ∈ record.shape.filled a, field.label.omitEmpty = false →
      field.label.key naming ∈ record.shape.declaredKeys naming a) ∧
    ∀ naming (x : Network), x.tls.isSome → "ssl" ∈ Network.shape.declaredKeys naming x := by
  refine ⟨fun record member a meets naming => ?_, fun record _ a naming field filled kept => ?_,
    fun naming x set => Network.ssl_mem_declaredKeys naming set⟩
  · obtain ⟨t, written⟩ := record.shape.write_isSome (fun _ clean => clean) naming meets
    refine ⟨t, by rw [Shape.toJson, written]; rfl, fun part within => ?_⟩
    have whole : Portion.Written naming ⟨_, record.shape, a, t⟩ :=
      ⟨Described.sound record member, Described.emptyByDefault record member, written⟩
    exact ⟨(whole.within within).write, (whole.within within).isLaidOut⟩
  · exact List.mem_map_of_mem (List.mem_filter.mpr ⟨filled, by simp [Field.isDropped, kept]⟩)

-- The fields of all records that are left out when empty.
example : Described.all.flatMap (fun record =>
    (record.shape.labels.filter (·.omitEmpty)).map fun label => (record.shape.title, label.documentName)) =
    [("Net", "ssl"), ("Auth", "autoAuthMechanisms"), ("Auth", "autoAuthMechanism"), ("Auth", "deploymentAuthMechanisms"),
      ("Auth", "autoUser"), ("Auth", "key"), ("Auth", "keyfile"), ("Auth", "keyfileWindows"), ("Auth", "autoPwd"),
      ("SSL", "CAFilePath")] := by
  rfl

/-- Authentication of which hardly anything is set. -/
def sparse : Auth where
  users := [{ name := "u", database := "admin" }]
  agentMechanism := "x"

theorem keys_as_declared_sparse : Auth.shape.Meets .written sparse ∧
    ∃ entries user, Auth.shape.toJson .program none sparse = some (Json.write none (.record entries)) ∧
      entries.map Prod.fst = ["users", "disabled", "authoritative_set", "auto_auth_mechanism"] ∧
      ("users", .list [.record user]) ∈ entries ∧
      user.map Prod.fst = ["mechanisms", "roles", "username", "database", "authentication_restrictions"] := by
  have meets : Auth.shape.Meets .written sparse := Auth.meets_written (by decide)
  have member : ⟨_, Auth.shape⟩ ∈ Described.all := by simp [Described.all]
  obtain ⟨t, text, parts⟩ := keys_as_declared.1 _ member sparse meets .program
  obtain ⟨-, entries, rfl, keys, -⟩ := parts _ .refl
  have keys : entries.map Prod.fst = ["users", "disabled", "authoritative_set", "auto_auth_mechanism"] := keys
  obtain ⟨⟨_, users⟩, found, rfl⟩ := List.mem_map.mp (show "users" ∈ entries.map Prod.fst by simp [keys])
  have filled : (⟨_, .aliased "users" "usersWanted", .list User.shape, some [], sparse.users⟩ : Field) ∈
      Auth.shape.filled sparse := .head _
  have list : Portion.In .program ⟨_, .list User.shape, sparse.users, users⟩ ⟨_, Auth.shape, sparse, .record entries⟩ :=
    .field filled found
  obtain ⟨-, items, rfl, count⟩ := parts _ (.single list)
  obtain ⟨user, rfl⟩ := List.length_eq_one_iff.mp count
  obtain ⟨-, fields, rfl, keys', -⟩ := parts ⟨_, User.shape, _, user⟩ (.head (.item (i := 0) rfl rfl) (.single list))
  exact ⟨meets, entries, fields, text, keys, found, keys'⟩

end AgentConfig
