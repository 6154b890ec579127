import AgentConfig.Proofs.Settings.Deploy

namespace AgentConfig

/-- What of the settings matters to a deployment: the servers' domain, feature compatibility and version, their
key file and the mode of TLS matter only if there are servers, and secrets only if they are used. -/
structure Effective where
  name : String
  members : Nat
  servers : Option (String × String × String)
  tls : Option (String × Option (String × TlsMode))
  auth : Option (String × String)
  catalog : List Release

namespace Settings

def effective (s : Settings) : Effective where
  name := s.name
  members := s.members.toNat
  servers := if 0 < s.members then some (s.domain, s.compatibility, s.version) else none
  tls :=
    if s.usesTls then some (s.caFile, if 0 < s.members then some (s.keyFile, s.tlsMode) else none) else none
  auth :=
    match s.authMode with
    | .none => none
    | .scram => some (s.scramKey, s.scramPassword)
  catalog := s.releases.map Release.listed

variable {s s' : Settings}

theorem auth_eq_iff : s.auth = s'.auth ↔ s.effective.auth = s'.effective.auth := by
  unfold Settings.auth effective
  cases s.authMode <;> cases s'.authMode <;> simp [Scram.enabled, Auth.baseline]

theorem caFile_ne_nil (on : s.usesTls) : s.caFile ≠ "" := by
  simp only [usesTls, Bool.and_eq_true, bne_iff_ne] at on
  exact on.1.1

/-- The agent's certificate file tells whether TLS is on. -/
theorem caFile_eq_iff : (if s.usesTls then s.caFile else "") = (if s'.usesTls then s'.caFile else "") ↔
    s.usesTls = s'.usesTls ∧ (s.usesTls → s.caFile = s'.caFile) := by
  by_cases on : s.usesTls <;> by_cases on' : s'.usesTls <;> simp only [on, on', if_true]
  · simp
  · simpa using caFile_ne_nil on
  · simpa using (caFile_ne_nil on').symm
  · simp

theorem serverTls_eq_iff : s.serverTls = s'.serverTls ↔ s.usesTls = s'.usesTls ∧
    (s.usesTls → s.caFile = s'.caFile ∧ s.keyFile = s'.keyFile ∧ s.tlsMode = s'.tlsMode) := by
  unfold serverTls
  by_cases on : s.usesTls <;> by_cases on' : s'.usesTls <;> simp only [on, on'] <;> simp
  tauto

theorem serverHost_eq_iff {name domain domain' : String} {index : Int} :
    serverHost name index domain = serverHost name index domain' ↔ domain = domain' := by
  refine ⟨fun same => ?_, congrArg _⟩
  have texts := congrArg String.toList same
  simp only [serverHost, toString, String.toList_append, List.append_cancel_left_eq] at texts
  exact String.toList_inj.mp texts

theorem serverAt_eq_iff (names : s.name = s'.name) (index : Nat) : s.serverAt index = s'.serverAt index ↔
    s.domain = s'.domain ∧ s.compatibility = s'.compatibility ∧ s.version = s'.version ∧ s.serverTls = s'.serverTls := by
  simp only [serverAt, names, Server.mk.injEq, serverHost_eq_iff, Arguments.mk.injEq, Network.mk.injEq]
  tauto

theorem servers_eq_iff (names : s.name = s'.name) :
    (List.range s.members.toNat).map s.serverAt = (List.range s'.members.toNat).map s'.serverAt ↔
      s.members.toNat = s'.members.toNat ∧ (0 < s.members → s.domain = s'.domain ∧
        s.compatibility = s'.compatibility ∧ s.version = s'.version ∧ s.serverTls = s'.serverTls) := by
  constructor
  · intro same
    have count : s.members.toNat = s'.members.toNat := by simpa using congrArg List.length same
    refine ⟨count, fun some => ?_⟩
    have first := congrArg (fun servers => servers[0]?) same
    have positive : 0 < s'.members.toNat := by omega
    simp only [List.getElem?_map, List.getElem?_range positive, count, Option.map_some, Option.some.injEq] at first
    exact (serverAt_eq_iff names 0).mp first
  · rintro ⟨count, all⟩
    rw [← count]
    refine List.map_congr_left fun index member => ?_
    exact (serverAt_eq_iff names index).mpr (all (by have := List.mem_range.mp member; omega))

/-- Options that are given under the same condition are the same if what they hold is. -/
theorem ite_some_eq_iff {α : Type} {p q : Prop} [Decidable p] [Decidable q] (same : p ↔ q) {a b : α} :
    (if p then some a else none) = (if q then some b else none) ↔ (p → a = b) := by
  by_cases holds : p
  · simp [holds, same.mp holds]
  · have fails : ¬ q := mt same.mpr holds
    simp [holds, fails]

theorem effective_eq_iff : s.effective = s'.effective ↔
    s.name = s'.name ∧ s.members.toNat = s'.members.toNat ∧
    (0 < s.members → s.domain = s'.domain ∧ s.compatibility = s'.compatibility ∧ s.version = s'.version) ∧
    (s.usesTls = s'.usesTls ∧ (s.usesTls → s.caFile = s'.caFile)) ∧
    (s.usesTls → 0 < s.members → s.keyFile = s'.keyFile ∧ s.tlsMode = s'.tlsMode) ∧
    s.effective.auth = s'.effective.auth ∧ s.releases.map Release.listed = s'.releases.map Release.listed := by
  by_cases count : s.members.toNat = s'.members.toNat
  · have positive : 0 < s.members ↔ 0 < s'.members := by omega
    have tls : s.effective.tls = s'.effective.tls ↔ s.usesTls = s'.usesTls ∧ (s.usesTls → s.caFile = s'.caFile) ∧
        (s.usesTls → 0 < s.members → s.keyFile = s'.keyFile ∧ s.tlsMode = s'.tlsMode) := by
      by_cases same : s.usesTls = s'.usesTls
      · rw [effective, effective, ite_some_eq_iff (by rw [same])]
        simp only [Prod.mk.injEq, ite_some_eq_iff positive]
        tauto
      · unfold effective
        cases on : s.usesTls <;> cases on' : s'.usesTls <;> simp [on, on'] at same ⊢
    have servers : s.effective.servers = s'.effective.servers ↔ (0 < s.members → s.domain = s'.domain ∧
        s.compatibility = s'.compatibility ∧ s.version = s'.version) := by
      rw [effective, effective, ite_some_eq_iff positive]
      simp only [Prod.mk.injEq]
    have split : s.effective = s'.effective ↔ s.name = s'.name ∧ s.members.toNat = s'.members.toNat ∧
        s.effective.servers = s'.effective.servers ∧ s.effective.tls = s'.effective.tls ∧
        s.effective.auth = s'.effective.auth ∧ s.releases.map Release.listed = s'.releases.map Release.listed := by
      rw [Effective.mk.injEq]
      exact Iff.rfl
    rw [split, servers, tls]
    tauto
  · refine iff_of_false (fun same => count ?_) fun same => count same.2.1
    exact congrArg Effective.members same

/-- The settings describe the same document just when they have the same effect. -/
theorem document_eq_iff (version : Int) : s.document version = s'.document version ↔ s.effective = s'.effective := by
  rw [effective_eq_iff]
  constructor
  · intro same
    have names : s.name = s'.name := by
      have sets := congrArg Document.replicaSets same
      simp only [document, List.cons.injEq, ReplicaSet.mk.injEq] at sets
      exact sets.1.1
    have servers := (servers_eq_iff names).mp (congrArg Document.servers same)
    have files := caFile_eq_iff.mp (congrArg (fun d => d.tls.caFile) same)
    have tls : s.usesTls → 0 < s.members → s.keyFile = s'.keyFile ∧ s.tlsMode = s'.tlsMode := fun on some =>
      ((serverTls_eq_iff.mp (servers.2 some).2.2.2).2 on).2
    exact ⟨names, servers.1, fun some => ⟨(servers.2 some).1, (servers.2 some).2.1, (servers.2 some).2.2.1⟩, files, tls,
      auth_eq_iff.mp (congrArg Document.auth same), congrArg Document.catalog same⟩
  · rintro ⟨names, count, texts, files, tls, auth, catalog⟩
    have servers := (servers_eq_iff names).mpr ⟨count, fun some =>
      ⟨(texts some).1, (texts some).2.1, (texts some).2.2, serverTls_eq_iff.mpr ⟨files.1, fun on =>
        ⟨files.2 on, tls on some⟩⟩⟩⟩
    have file := caFile_eq_iff.mpr files
    have credentials := auth_eq_iff.mpr auth
    rw [document, document, servers, credentials, file, catalog, names, count]

/-- No number in the document is infinite or NaN. -/
theorem finite_document (version : Int) : Document.shape.Meets .finite (s.document version) := by
  refine Document.finite_iff.mpr fun server member => ?_
  obtain ⟨index, _, rfl⟩ := List.mem_map.mp member
  simp only [serverAt, Server.cacheSize, Binary64.isFinite_one]

theorem canonical_eq_iff {version : Int} {before after : String} (text : (s.document version).canonical = .ok before)
    (text' : (s'.document version).canonical = .ok after) : before = after ↔ s.effective = s'.effective := by
  rw [← document_eq_iff version]
  constructor
  · rintro rfl
    exact Document.canonical_injective (finite_document _) (finite_document _) text text'
  · intro equal
    rw [equal, text'] at text
    exact (Except.ok.inj text).symm

/-- A deployment after another moves the version on just when the settings differ in effect. -/
theorem deploy_version {previous y z : Document} (first : (s.deploy previous).outcome = .ok y)
    (second : (s'.deploy y).outcome = .ok z) :
    (s.effective = s'.effective → z.version = y.version) ∧
    (s.effective ≠ s'.effective → z.version = y.version + 1) := by
  obtain ⟨_, _, _, _, _, described⟩ := deploy_eq_ok.mp first
  obtain ⟨_, before, after, text, text', rfl⟩ := deploy_eq_ok.mp second
  have same : y = s.document y.version := by
    rw [described]
    rfl
  have texts : before = after ↔ s.effective = s'.effective := canonical_eq_iff (same ▸ text) text'
  constructor
  · intro unchanged
    exact if_pos (texts.mpr unchanged)
  · intro changed
    exact if_neg (mt texts.mp changed)

/-- After the document of other settings there is something new. -/
theorem deploy_next {version : Int} (secrets : s'.HasSecrets) (differ : s.effective ≠ s'.effective) :
    (s'.deploy (s.document version)).outcome = .ok (s'.document (version + 1)) := by
  obtain ⟨before, text⟩ := s.canonical_document version
  obtain ⟨after, text'⟩ := s'.canonical_document version
  refine deploy_eq_ok.mpr ⟨secrets, before, after, text, text', ?_⟩
  rw [if_neg (mt (canonical_eq_iff text text').mp differ)]
  rfl

/-- After a document without a replica set there is always something new. -/
theorem deploy_first {previous : Document} (secrets : s.HasSecrets) (finite : Document.shape.Meets .finite previous)
    (known : previous.auth.key ≠ .foreign) (none : previous.replicaSets = []) :
    (s.deploy previous).outcome = .ok (s.document (previous.version + 1)) := by
  obtain ⟨before, text⟩ := Document.exists_canonical known
  obtain ⟨after, text'⟩ := s.canonical_document previous.version
  refine deploy_eq_ok.mpr ⟨secrets, before, after, text, text', ?_⟩
  have changed : before ≠ after := by
    rintro rfl
    have same := congrArg Document.replicaSets (Document.canonical_injective finite (finite_document _) text text')
    rw [none] at same
    exact List.cons_ne_nil _ _ same.symm
  rw [if_neg changed]

/-- Settings with the certificate of an authority, but no certificate of a server. -/
def partialTls : Settings :=
  { members := 1, caFile := "/ca.pem" }

theorem deploy_version_of_partialTls : ∃ y unchanged changed,
    (partialTls.deploy {}).outcome = .ok y ∧
    ({ partialTls with keyFile := "/key.pem", scramKey := "secret", logLevel := "DEBUG" }.deploy y).outcome =
      .ok unchanged ∧ unchanged.version = y.version ∧
    ({ partialTls with keyFile := "/key.pem", tlsMode := .prefer }.deploy y).outcome = .ok changed ∧
      changed.version = y.version + 1 := by
  have secrets : ∀ keyFile scramKey tlsMode logLevel,
      { partialTls with keyFile, scramKey, tlsMode, logLevel }.HasSecrets := by
    intro _ _ _ _ scram
    contradiction
  obtain ⟨empty, written⟩ : ∃ text, Document.canonical {} = .ok text := by
    obtain ⟨t, written⟩ := Document.shape.write_isSome (fun _ clean => clean) .document
      (Document.meets_written (by decide) : Document.shape.Meets .written {})
    exact ⟨_, Document.canonical_eq_ok_of_write written⟩
  obtain ⟨version, first⟩ := exists_deploy (secrets "" "" .disabled "INFO") written
  obtain ⟨text, again⟩ := partialTls.canonical_document version
  obtain ⟨same, second⟩ := exists_deploy (secrets "/key.pem" "secret" .disabled "DEBUG") again
  obtain ⟨next, third⟩ := exists_deploy (secrets "/key.pem" "" .prefer "INFO") again
  refine ⟨_, _, _, first, second, (deploy_version first second).1 rfl, third, (deploy_version first third).2 ?_⟩
  exact fun same => absurd (congrArg Effective.tls same) (by decide)

end Settings
end AgentConfig
