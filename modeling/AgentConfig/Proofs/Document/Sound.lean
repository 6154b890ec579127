import AgentConfig.Document.Basic
import AgentConfig.Proofs.Schema.Json

namespace AgentConfig

attribute [local simp] Shape.Sound Fields.Sound Fields.labels Label.Apart Label.plain Label.aliased Label.omitted
  restores_text restores_secret restores_list write_list_ne_null

theorem ServerTls.sound : ServerTls.shape.Sound := by
  simp [ServerTls.shape, TlsMode.shape]

theorem ServerTls.solid : ServerTls.shape.Solid :=
  solid_record ⟨.plain "mode", by simp, rfl⟩

theorem Network.sound : Network.shape.Sound := by
  simp [Network.shape, ServerTls.sound, ServerTls.solid.write_ne_null, restores_nullable ServerTls.solid]

theorem EngineTuning.sound : EngineTuning.shape.Sound := by
  simp [EngineTuning.shape]

theorem StorageEngine.sound : StorageEngine.shape.Sound := by
  simp [StorageEngine.shape, EngineTuning.sound]

theorem Storage.sound : Storage.shape.Sound := by
  simp [Storage.shape, StorageEngine.sound]

theorem Replication.sound : Replication.shape.Sound := by
  simp [Replication.shape]

theorem Arguments.sound : Arguments.shape.Sound := by
  simp [Arguments.shape, Network.sound, Storage.sound, Replication.sound]

theorem LogTarget.sound : LogTarget.shape.Sound := by
  simp [LogTarget.shape]

theorem Server.sound : Server.shape.Sound := by
  simp [Server.shape, Arguments.sound, ServerKind.shape, LogTarget.sound]

theorem Member.sound : Member.shape.Sound := by
  simp [Member.shape]

theorem ReplicaSet.sound : ReplicaSet.shape.Sound := by
  simp [ReplicaSet.shape, Member.sound]

theorem Role.sound : Role.shape.Sound := by
  simp [Role.shape]

theorem User.sound : User.shape.Sound := by
  simp [User.shape, Role.sound]

theorem Auth.sound : Auth.shape.Sound := by
  simp [Auth.shape, User.sound]

theorem AgentTls.sound : AgentTls.shape.Sound := by
  simp [AgentTls.shape, CertificateMode.shape]

theorem AgentOptions.sound : AgentOptions.shape.Sound := by
  simp [AgentOptions.shape]

theorem Build.sound : Build.shape.Sound := by
  simp [Build.shape]

theorem Release.sound : Release.shape.Sound := by
  simp [Release.shape, Build.sound]

theorem Document.sound : Document.shape.Sound := by
  simp [Document.shape, Server.sound, ReplicaSet.sound, Auth.sound, AgentTls.sound, Release.sound, AgentOptions.sound]

/-- Every record of a document is described soundly. -/
theorem Described.sound : ∀ record ∈ Described.all, record.shape.Sound := by
  simp [Described.all, ServerTls.sound, Network.sound, EngineTuning.sound, StorageEngine.sound, Storage.sound,
    Replication.sound, Arguments.sound, LogTarget.sound, Server.sound, Member.sound, ReplicaSet.sound, Role.sound,
    User.sound, Auth.sound, AgentTls.sound, AgentOptions.sound, Build.sound, Release.sound, Document.sound]

/-- No record is nested nearly as deep as a reader of JSON allows. -/
theorem Described.shallow : ∀ record ∈ Described.all, record.shape.depth ≤ Json.depthLimit := by
  simp only [Described.all, List.forall_mem_cons]
  decide

end AgentConfig
