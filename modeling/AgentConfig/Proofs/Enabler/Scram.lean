import AgentConfig.Proofs.Builder.Topology
import AgentConfig.Proofs.Document.JsonRoundTrip
import AgentConfig.Proofs.Settings.Deploy

namespace AgentConfig

namespace Scram

variable {s : Scram} {base auth : Auth}

/-- Authentication is turned on just when both secrets are given. -/
theorem enable_eq_ok : (s.enable base).1 = .ok auth ↔ s.key ≠ "" ∧ s.password ≠ "" ∧ auth = s.enabled base := by
  rw [enable]
  split_ifs with noKey noPassword
  · exact iff_of_false (by simp) fun given => given.1 (String.isEmpty_iff.mp noKey)
  · exact iff_of_false (by simp) fun given => given.2.1 (String.isEmpty_iff.mp noPassword)
  · rw [String.isEmpty_iff] at noKey noPassword
    simp only [Except.ok.injEq, noKey, noPassword, not_false_eq_true, ne_eq, true_and]
    exact eq_comm

/-- Where a secret is missing the error says for which mechanism. -/
theorem enable_eq_error (base : Auth) (missing : s.key = "" ∨ s.password = "") :
    ∃ message, s.enable base = (.error (.credentials message (some s.mechanism)), []) := by
  rw [enable]
  split_ifs with noKey noPassword
  · exact ⟨_, rfl⟩
  · exact ⟨_, rfl⟩
  · rw [String.isEmpty_iff] at noKey noPassword
    exact absurd missing (not_or.mpr ⟨noKey, noPassword⟩)

/-- What is written for authentication that was turned on with names for the user and the mechanism. -/
theorem write_enabled (key : s.key ≠ "") (password : s.password ≠ "") (user : s.user ≠ "")
    (mechanism : s.mechanism ≠ "") : Auth.shape.write .document (s.enabled .baseline) = some (.record [
      ("usersWanted", .list []), ("disabled", .bool false), ("authoritativeSet", .bool false),
      ("autoAuthMechanisms", .list [.text s.mechanism]), ("autoAuthMechanism", .text s.mechanism),
      ("deploymentAuthMechanisms", .list [.text s.mechanism]), ("autoUser", .text s.user), ("key", .text s.key),
      ("keyfile", .text keyFile), ("keyfileWindows", .text keyFileWindows), ("autoPwd", .text s.password)]) := by
  simp [Auth.shape, Shape.write, Fields.write, Label.omitted, Label.aliased, Label.plain, Label.key, Tree.isEmpty, enabled,
    Auth.baseline, allSome, key, password, user, mechanism, keyFile, keyFileWindows]

end Scram

theorem Document.at?_auth {d : Document} {t : Tree} (written : shape.write .document d = some t) :
    t.at? ["auth"] = Auth.shape.write .document d.auth := by
  have field : (⟨_, .plain "auth", Auth.shape, some {}, d.auth⟩ : Field) ∈ shape.filled d :=
    .tail _ (.tail _ (.tail _ (.head _)))
  exact Shape.at?_kept sound written field rfl

/-- A document that is built with the enabler of settings has the authentication of the settings. -/
theorem Builder.auth_of_built {b : Builder} {d : Document} {settings : Settings} (given : b.enabler = some settings.enabler)
    (built : b.build.outcome = .ok d) : settings.HasSecrets ∧ d.auth = settings.auth := by
  obtain ⟨enabler, servers, auth, given', -, enabled, content⟩ := content_of_built built
  obtain rfl := Option.some.inj (given.symm.trans given')
  obtain ⟨secrets, rfl⟩ := Settings.enable_baseline.mp enabled
  exact ⟨secrets, congrArg Document.auth content⟩

/-- Authentication by SCRAM is all or nothing: without both secrets there is an error, and with them everything but the users
comes from the enabler, whatever there was before. Settings that ask for it give it in full to every document. -/
theorem scram_all_or_nothing :
    (∀ (s : Scram) (base : Auth),
      ((∃ e, (s.enable base).1 = .error e) ↔ s.key = "" ∨ s.password = "") ∧
      (∀ e, (s.enable base).1 = .error e → ∃ message, e = .credentials message (some s.mechanism)) ∧
      ∀ auth, (s.enable base).1 = .ok auth → auth.users = base.users ∧
        (∀ other : Auth, (s.enable other).1 = .ok { auth with users := other.users }) ∧
        (s.enable auth).1 = .ok auth ∧ ∀ second : Scram, (second.enable auth).1 = (second.enable base).1) ∧
    ∀ (settings : Settings) (b : Builder) (d : Document), settings.authMode = .scram →
      b.enabler = some settings.enabler → b.build.outcome = .ok d →
      ∃ t mechanism user keyFile keyFileWindows, (∀ indent, d.toJson indent = .ok (Json.write indent t)) ∧
        t.at? ["auth"] = some (.record [
          ("usersWanted", .list []), ("disabled", .bool false), ("authoritativeSet", .bool false),
          ("autoAuthMechanisms", .list [.text mechanism]), ("autoAuthMechanism", .text mechanism),
          ("deploymentAuthMechanisms", .list [.text mechanism]), ("autoUser", .text user),
          ("key", .text settings.scramKey), ("keyfile", .text keyFile), ("keyfileWindows", .text keyFileWindows),
          ("autoPwd", .text settings.scramPassword)]) := by
  refine ⟨fun s base => ?_, fun settings b d mode given built => ?_⟩
  · by_cases missing : s.key = "" ∨ s.password = ""
    · obtain ⟨message, refused⟩ := Scram.enable_eq_error base missing
      rw [refused]
      exact ⟨iff_of_true ⟨_, rfl⟩ missing, fun e same => ⟨message, (Except.error.inj same).symm⟩, by simp⟩
    · obtain ⟨key, password⟩ := not_or.mp missing
      have enable : ∀ base, (s.enable base).1 = .ok (s.enabled base) := fun base =>
        Scram.enable_eq_ok.mpr ⟨key, password, rfl⟩
      rw [enable base]
      refine ⟨iff_of_false (by simp) missing, by simp, fun auth same => ?_⟩
      obtain rfl := Except.ok.inj same
      exact ⟨rfl, enable, enable _, fun second => rfl⟩
  · obtain ⟨secrets, auth⟩ := Builder.auth_of_built given built
    obtain ⟨key, password⟩ := secrets mode
    have known : d.auth.key ≠ .foreign := by
      rw [auth]
      exact settings.key_ne_foreign
    obtain ⟨t, written⟩ := Document.shape.write_isSome (fun _ clean => clean) .document (Document.meets_written known)
    have scram : settings.auth = Scram.enabled { key := settings.scramKey, password := settings.scramPassword } .baseline := by
      rw [Settings.auth, mode]
    have whole := Scram.write_enabled (s := { key := settings.scramKey, password := settings.scramPassword })
      (by simpa using key) (by simpa using password) (by simp) (by simp)
    rw [← scram, ← auth, ← Document.at?_auth written] at whole
    exact ⟨t, _, _, _, _, Document.toJson_eq_ok_of_write written, whole⟩

/-- A deployment with both secrets. -/
def guarded : Settings where
  authMode := .scram
  scramKey := "k"
  scramPassword := "p"

/-- Without a name for the user or the mechanism authentication is turned on all the same, and the leaked key is gone. -/
theorem scram_all_or_nothing_guarded :
    (∃ e, (Scram.enable { key := "", password := "p", mechanism := "X" } Builder.stale.auth).1 = .error e ∧
      ∃ message, e = .credentials message (some "X")) ∧
    (∃ auth, (Scram.enable { key := "k", password := "p", user := "", mechanism := "" } Builder.stale.auth).1 = .ok auth ∧
      auth.users = Builder.stale.auth.users ∧
      (Scram.enable { key := "k", password := "p", user := "", mechanism := "" } auth).1 = .ok auth) ∧
    ∃ d, (guarded.deploy {}).outcome = .ok d ∧ ∃ t mechanism,
      d.toJson (some 2) = .ok (Json.write (some 2) t) ∧ ∃ entries, t.at? ["auth"] = some (.record entries) ∧
      ("key", .text "k") ∈ entries ∧ ("disabled", .bool false) ∈ entries ∧
      ("autoAuthMechanisms", .list [.text mechanism]) ∈ entries := by
  obtain ⟨enabling, writing⟩ := scram_all_or_nothing
  refine ⟨?_, ?_, ?_⟩
  · obtain ⟨refuses, named, -⟩ := enabling { key := "", password := "p", mechanism := "X" } Builder.stale.auth
    obtain ⟨e, refused⟩ := refuses.mpr (.inl rfl)
    exact ⟨e, refused, named e refused⟩
  · obtain ⟨-, -, laws⟩ := enabling { key := "k", password := "p", user := "", mechanism := "" } Builder.stale.auth
    obtain ⟨users, -, again, -⟩ := laws _ rfl
    exact ⟨_, rfl, users, again⟩
  · obtain ⟨before, text⟩ : ∃ text, Document.canonical {} = .ok text := Document.exists_canonical (by decide)
    obtain ⟨version, built⟩ := guarded.exists_deploy (fun _ => ⟨rfl, rfl⟩) text
    obtain ⟨t, mechanism, _, _, _, written, whole⟩ := writing guarded _ _ rfl rfl built
    exact ⟨_, built, t, mechanism, written _, _, whole, by simp [guarded], by simp, by simp⟩

end AgentConfig
