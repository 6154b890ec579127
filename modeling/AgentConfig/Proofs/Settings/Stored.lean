import AgentConfig.Proofs.Document.File
import AgentConfig.Proofs.Document.Version
import AgentConfig.Proofs.Settings.Effective

namespace AgentConfig

theorem Json.length_le_write {t : Tree} {indent : Json.Indent} : t.leaves.length ≤ (Json.write indent t).toList.length := by
  simpa [Json.write] using (Json.carries_writeAt indent 0 t).room

theorem Storage.storable {x : Storage} (finite : x.engine.tuning.cacheSize.isFinite) : Storage.shape.Meets .storable x :=
  ⟨trivial, ⟨⟨finite, trivial⟩, trivial⟩, trivial⟩

/-- A document that a deployment gives has an integer with too many digits: its version, or the number of its last
member. -/
def Document.TooLong (d : Document) : Prop :=
  digitLimit < (decimalDigits d.version.natAbs).length ∨ 10 ^ digitLimit < d.servers.length

namespace Settings

variable {s : Settings} {previous d e : Document} {version : Int} {disk disk' : Disk} {path : String}

/-- Each member of the replica set has an integer of its own in the written document. -/
theorem members_le_length {naming : Naming} {t : Tree} (written : Document.shape.write naming (s.document version) = some t) :
    s.members.toNat ≤ t.leaves.length := by
  have ids : ∀ i < s.members.toNat, .int i ∈ t.leaves := by
    intro i bound
    obtain ⟨-, -, sets, -⟩ := Document.shape.meets_ints (p := fun n => .int n ∈ t.leaves) written fun _ member => member
    obtain ⟨-, members, -⟩ := sets _ (List.mem_singleton_self _)
    exact (members _ (List.mem_map_of_mem (List.mem_range.mpr bound))).1
  have distinct : ((List.range s.members.toNat).map fun i : Nat => Tree.int i).Nodup :=
    List.nodup_range.map fun i j same => Int.ofNat_inj.mp (Tree.int.inj same)
  have inside : ((List.range s.members.toNat).map fun i : Nat => Tree.int i) ⊆ t.leaves := by
    intro leaf member
    obtain ⟨i, bound, rfl⟩ := List.mem_map.mp member
    exact ids i (List.mem_range.mp bound)
  simpa using (List.subperm_of_subset distinct inside).length_le

theorem storable_serverAt (index : Nat) : Server.shape.Meets .storable (s.serverAt index) := by
  have tls : ∀ tls ∈ s.serverTls, ServerTls.shape.Meets .storable tls := fun tls _ => ServerTls.shape.meets_storable rfl tls
  have port : IsShort 27017 := isShort_of_natAbs_lt (k := 5) (by decide) (by decide) (by decide)
  have network : Network.shape.Meets .storable { tls := s.serverTls } := ⟨port, tls, trivial⟩
  have storage : Storage.shape.Meets .storable {} := Storage.storable (by simp only [Binary64.isFinite_one])
  have authSchema : IsShort 5 := isShort_of_natAbs_lt (k := 1) (by decide) (by decide) (by decide)
  exact ⟨trivial, trivial, ⟨network, storage, ⟨trivial, trivial⟩, trivial⟩, trivial, trivial, trivial, authSchema,
    ⟨trivial, trivial, trivial⟩, trivial⟩

theorem storable_auth : Auth.shape.Meets .storable s.auth := by
  have texts : ∀ words : List String, (Shape.list (.text false)).Meets .storable words := Shape.meets_storable _ rfl
  have users : ∀ users : List User, (Shape.list User.shape).Meets .storable users := Shape.meets_storable _ rfl
  exact ⟨users _, trivial, trivial, texts _, trivial, texts _, trivial, s.key_ne_foreign, trivial, trivial, trivial, trivial⟩

/-- The document can be stored as JSON if its version is short and its members are not too many to be numbered. -/
theorem storable_document (short : IsShort version) (few : s.members.toNat ≤ 10 ^ digitLimit) :
    Document.shape.Meets .storable (s.document version) := by
  have servers : ∀ server ∈ (s.document version).servers, Server.shape.Meets .storable server := by
    intro server member
    obtain ⟨index, -, rfl⟩ := List.mem_map.mp member
    exact storable_serverAt index
  have one : IsShort 1 := isShort_of_natAbs_lt (k := 1) (by decide) (by decide) (by decide)
  have sets : ∀ set ∈ (s.document version).replicaSets, ReplicaSet.shape.Meets .storable set := by
    intro set member
    obtain rfl := List.mem_singleton.mp member
    refine ⟨trivial, fun m member => ?_, trivial, trivial⟩
    obtain ⟨i, bound, rfl⟩ := List.mem_map.mp member
    exact ⟨isShort_natCast ((List.mem_range.mp bound).trans_le few), trivial, one, trivial, one, trivial⟩
  exact ⟨short, servers, sets, storable_auth, AgentTls.shape.meets_storable rfl _,
    (Shape.list Release.shape).meets_storable rfl _, AgentOptions.shape.meets_storable rfl _, trivial⟩

theorem meets_document_iff :
    Document.shape.Meets (.ints Demands.printable.int) (s.document version) ↔ ¬ (s.document version).TooLong := by
  have count : (s.document version).servers.length = s.members.toNat := by simp [document]
  rw [Document.TooLong, count, not_or, Nat.not_lt, Nat.not_lt]
  constructor
  · rintro ⟨digits, -, sets, -⟩
    refine ⟨digits, Nat.not_lt.mp fun many => ?_⟩
    obtain ⟨-, members, -⟩ := sets _ (List.mem_singleton_self _)
    have last : Demands.printable.int ((10 ^ digitLimit : Nat) : Int) :=
      (members _ (List.mem_map_of_mem (List.mem_range.mpr many))).1
    have digits : (decimalDigits (10 ^ digitLimit)).length ≤ digitLimit := by
      simpa only [Demands.printable, Int.natAbs_natCast] using last
    rw [length_decimalDigits_pow] at digits
    omega
  · rintro ⟨digits, few⟩
    have printable := Document.printable_of_storable Document.shape (storable_document isShort_zero few)
    have ints : Document.shape.Meets (.ints Demands.printable.int) (s.document 0) :=
      Shape.Meets.imp (d := .printable) (e := .ints _) (fun _ short => short) (fun _ _ => trivial) (fun _ _ => trivial)
        Document.shape printable
    exact ⟨digits, ints.2⟩

/-- All that can go wrong when the document is rendered. -/
theorem render_document_eq_error {format : Format} {e : WriteError} : (s.document version).render format = .error e ↔
    format = .yaml ∧ e = .tooManyDigits ∧ (s.document version).TooLong := by
  rw [Document.render_eq_error, meets_document_iff, not_not]
  have known := s.key_ne_foreign
  simp [document, known, and_comm]

/-- A document that has been stored comes back. -/
theorem returns_document (stored : (s.document version).store disk path = (disk', .ok ()))
    (short : Format.ofPath path = .json → IsShort version) : (s.document version).Returns (.ofPath path) := by
  obtain ⟨place, text, -, written, small, -⟩ := Document.store_eq_ok.mp stored
  cases format : Format.ofPath path with
  | yaml => exact finite_document version
  | json =>
    rw [format] at written
    obtain ⟨t, tree, rfl⟩ := Document.render_json written
    have large : Disk.sizeLimit ≤ 10 ^ digitLimit :=
      (show Disk.sizeLimit ≤ 10 ^ 19 by decide).trans (Nat.pow_le_pow_right (by decide) (by decide))
    refine storable_document (short format) (le_trans ?_ large)
    calc s.members.toNat
      _ ≤ t.leaves.length := members_le_length tree
      _ ≤ (Json.write (some 2) t).toList.length := Json.length_le_write
      _ ≤ (Json.write (some 2) t ++ "\n").toList.length := by simp
      _ ≤ (Text.utf8 (Json.write (some 2) t ++ "\n").toList).length := Text.length_le_utf8 _
      _ ≤ Disk.sizeLimit := small

/-- A deployment after itself changes nothing. -/
theorem deploy_again (deployed : (s.deploy previous).outcome = .ok e) : (s.deploy e).outcome = .ok e := by
  obtain ⟨secrets, _, _, _, _, described⟩ := deploy_eq_ok.mp deployed
  obtain ⟨text, written⟩ := s.canonical_document e.version
  have same : e = s.document e.version := by
    rw [described]
    rfl
  refine deploy_eq_ok.mpr ⟨secrets, text, text, ?_, written, ?_⟩
  · rw [same, written]
  · rw [if_pos rfl, ← same]

end Settings
end AgentConfig
