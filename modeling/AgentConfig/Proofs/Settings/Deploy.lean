import AgentConfig.Proofs.Builder.Build
import AgentConfig.Settings.Basic

namespace AgentConfig.Settings

/-- Whether TLS is on. -/
def usesTls (s : Settings) : Bool :=
  s.caFile != "" && s.keyFile != "" && s.tlsMode != .disabled

/-- The encryption of each server. -/
def serverTls (s : Settings) : Option ServerTls :=
  if s.usesTls then
    some { mode := s.tlsMode, caFile := s.caFile, keyFile := s.keyFile, allowWithoutCertificates := true }
  else none

/-- The server at some place of the deployment. -/
def serverAt (s : Settings) (index : Nat) : Server where
  name := serverName s.name index
  hostname := serverHost s.name index s.domain
  arguments := { network := { tls := s.serverTls }, replication := { replicaSet := s.name } }
  compatibility := s.compatibility
  version := s.version

/-- The authentication of the deployment. -/
def auth (s : Settings) : Auth :=
  match s.authMode with
  | .none => .baseline
  | .scram => Scram.enabled { key := s.scramKey, password := s.scramPassword } .baseline

/-- The document that describes the deployment, with a version. -/
def document (s : Settings) (version : Int) : Document where
  version := version
  servers := (List.range s.members.toNat).map s.serverAt
  replicaSets := [{
    name := s.name
    members := (List.range s.members.toNat).map fun (i : Nat) => { id := i, host := serverName s.name i } }]
  auth := s.auth
  tls := { caFile := if s.usesTls then s.caFile else "" }
  catalog := s.releases.map Release.listed
  options := { downloadBase := Builder.downloadBase }

variable {s : Settings} {enabler : Enabler} {previous e : Document}

theorem isTlsEnabled_builder : (s.builder enabler previous).isTlsEnabled = s.usesTls := by
  have word : (s.tlsMode.word != TlsMode.disabled.word) = (s.tlsMode != .disabled) := by
    cases s.tlsMode <;> decide
  simp only [Builder.isTlsEnabled, usesTls, builder, word]

theorem server_builder (index : Nat) : (s.builder enabler previous).server index = .ok (s.serverAt index) := by
  have mode : TlsMode.choices.read (.text s.tlsMode.word) = .ok s.tlsMode := TlsMode.choices.read_word s.tlsMode
  simp only [Builder.server, Builder.serverOptions, isTlsEnabled_builder, serverAt, serverTls]
  split_ifs
  · simp [builder, Server.create, Server.applyAll, Server.apply, Server.base, Server.withTls, mode, bind, Except.bind]
  · simp [builder, Server.create, Server.applyAll, Server.apply, Server.base, bind, Except.bind]

theorem servers_builder :
    (s.builder enabler previous).servers = .ok ((List.range s.members.toNat).map s.serverAt) := by
  have each : (s.builder enabler previous).server = fun index => pure (s.serverAt index) :=
    funext fun index => server_builder index
  rw [Builder.servers, each]
  exact List.mapM_pure

theorem assemble_builder :
    (s.builder enabler previous).assemble ((List.range s.members.toNat).map s.serverAt) s.auth =
      s.document previous.version := by
  have members : (((List.range s.members.toNat).map s.serverAt).zipIdx.map fun p => p.1.member (p.2 : Nat)) =
      (List.range s.members.toNat).map fun (i : Nat) => { id := (i : Int), host := serverName s.name i } := by
    apply List.ext_getElem <;> simp [Server.member, serverAt]
  simp only [Builder.assemble, isTlsEnabled_builder, document, members]
  rfl

/-- The secrets that the settings ask for are given. -/
def HasSecrets (s : Settings) : Prop :=
  s.authMode = .scram → s.scramKey.isEmpty = false ∧ s.scramPassword.isEmpty = false

theorem enable_baseline {auth : Auth} :
    (s.enabler.enable .baseline).1 = .ok auth ↔ s.HasSecrets ∧ auth = s.auth := by
  unfold Settings.enabler HasSecrets Settings.auth
  cases mode : s.authMode with
  | none =>
    simp only [Enabler.unchanged, reduceCtorEq, false_implies, true_and, Except.ok.injEq]
    exact eq_comm
  | scram =>
    simp only [Scram.enabler, Scram.enable, true_implies]
    split_ifs with noKey noPassword
    · simp [noKey]
    · simp [noPassword]
    · simp only [noKey, noPassword, and_self, true_and, Except.ok.injEq]
      exact eq_comm

/-- A deployment gives the document that the settings describe. Its version is the one before unless the text
has changed. -/
theorem deploy_eq_ok : (s.deploy previous).outcome = .ok e ↔ s.HasSecrets ∧
    ∃ before after, previous.canonical = .ok before ∧ (s.document previous.version).canonical = .ok after ∧
      e = s.document (if before = after then previous.version else previous.version + 1) := by
  have version : ∀ {before after : String}, (if before = after then s.document previous.version else
      { s.document previous.version with version := previous.version + 1 }) =
      s.document (if before = after then previous.version else previous.version + 1) := by
    intro before after
    split_ifs <;> rfl
  rw [deploy, Builder.build_eq_ok]
  constructor
  · rintro ⟨_, enabler, servers, auth, before, after, given, derived, enabled, first, second, rfl⟩
    obtain rfl := Option.some.inj given
    obtain rfl := Except.ok.inj (servers_builder.symm.trans derived)
    obtain ⟨secrets, rfl⟩ := enable_baseline.mp enabled
    rw [assemble_builder] at second ⊢
    exact ⟨secrets, before, after, first, second, version⟩
  · rintro ⟨secrets, before, after, first, second, rfl⟩
    refine ⟨rfl, s.enabler, _, s.auth, before, after, rfl, servers_builder, enable_baseline.mpr ⟨secrets, rfl⟩, first, ?_⟩
    rw [assemble_builder]
    exact ⟨second, version.symm⟩

/-- The key that servers share is a text. -/
theorem key_ne_foreign (s : Settings) : s.auth.key ≠ .foreign := by
  unfold Settings.auth
  cases s.authMode <;> simp [Auth.baseline, Scram.enabled]

theorem canonical_document (s : Settings) (version : Int) : ∃ text, (s.document version).canonical = .ok text :=
  Document.exists_canonical s.key_ne_foreign

/-- A deployment has as many servers as there are members, each with the compatibility and the version of the settings. -/
theorem servers_deploy (deployed : (s.deploy previous).outcome = .ok e) : e.servers.length = s.members.toNat ∧
    ∀ server ∈ e.servers, server.compatibility = s.compatibility ∧ server.version = s.version := by
  obtain ⟨-, before, after, -, -, rfl⟩ := deploy_eq_ok.mp deployed
  refine ⟨by simp [document], fun server member => ?_⟩
  obtain ⟨index, -, rfl⟩ := List.mem_map.mp member
  exact ⟨rfl, rfl⟩

/-- Nothing but secrets that are missing keeps a deployment from succeeding. -/
theorem exists_deploy (secrets : s.HasSecrets) {before : String} (written : previous.canonical = .ok before) :
    ∃ version, (s.deploy previous).outcome = .ok (s.document version) := by
  obtain ⟨after, text⟩ := s.canonical_document previous.version
  exact ⟨_, deploy_eq_ok.mpr ⟨secrets, before, after, written, text, rfl⟩⟩

end AgentConfig.Settings
