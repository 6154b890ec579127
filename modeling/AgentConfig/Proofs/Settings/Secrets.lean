import AgentConfig.Proofs.Builder.Failure
import AgentConfig.Proofs.Builder.Records
import AgentConfig.Proofs.Settings.Effective

namespace AgentConfig.Settings

variable {s : Settings} {previous d : Document} {key password key' password' : String}

/-- The settings with these secrets. -/
def withSecrets (s : Settings) (key password : String) : Settings :=
  { s with scramKey := key, scramPassword := password }

theorem log_deploy : (s.deploy previous).log =
    (s.builder s.enabler previous).derivedRecord ((List.range s.members.toNat).map s.serverAt) ::
      (s.enabler.enable .baseline).2 ++ (s.builder s.enabler previous).closing (s.deploy previous).outcome := by
  rw [deploy, Builder.log_build, servers_builder]
  rfl

/-- Other secrets leave the log as it is if the enabler logs the same and the outcome has the same version. -/
theorem log_withSecrets
    (asked : ((s.withSecrets key password).enabler.enable .baseline).2 =
      ((s.withSecrets key' password').enabler.enable .baseline).2)
    (version : ((s.withSecrets key password).deploy previous).outcome.map (·.version) =
      ((s.withSecrets key' password').deploy previous).outcome.map (·.version)) :
    ((s.withSecrets key password).deploy previous).log = ((s.withSecrets key' password').deploy previous).log := by
  rw [log_deploy, log_deploy, asked, Builder.closing_congr rfl rfl version]
  rfl

theorem hasSecrets_withSecrets (first : key ≠ "") (second : password ≠ "") : (s.withSecrets key password).HasSecrets := by
  intro _
  simp [withSecrets, first, second]

/-- With both secrets a deployment fails only for the document before. -/
theorem deploy_eq_error {e : BuildError} (secrets : s.HasSecrets) : (s.deploy previous).outcome = .error e ↔
    previous.IsUnwritable ∧ e = .write .unwritable := by
  cases first : previous.canonical with
  | ok before =>
    obtain ⟨version, built⟩ := exists_deploy secrets first
    rw [built]
    exact iff_of_false (by simp) fun stated => stated.1 before first
  | error refused =>
    have unwritable := Document.isUnwritable_of_error first
    have enabled : s.enabler.enable .baseline = (.ok s.auth, (s.enabler.enable .baseline).2) :=
      Prod.ext (enable_baseline.mpr ⟨secrets, rfl⟩) rfl
    have failed := Builder.build_of_unsettled (b := s.builder s.enabler previous) rfl rfl servers_builder enabled
      (Builder.settle_eq_error.mpr ⟨rfl, .inl unwritable⟩)
    rw [deploy, failed]
    simp [unwritable, eq_comm]

theorem exists_error (missing : ¬ s.HasSecrets) : ∃ e, (s.deploy previous).outcome = .error e := by
  cases built : (s.deploy previous).outcome with
  | ok d => exact absurd (deploy_eq_ok.mp built).1 missing
  | error e => exact ⟨e, rfl⟩

section

variable (scram : s.authMode = .scram)

include scram

/-- With both secrets the enabler logs the same whatever they are. -/
theorem asked_withSecrets (first : key ≠ "") (second : password ≠ "") (first' : key' ≠ "") (second' : password' ≠ "") :
    ((s.withSecrets key password).enabler.enable .baseline).2 =
      ((s.withSecrets key' password').enabler.enable .baseline).2 := by
  simp [enabler, withSecrets, scram, Scram.enabler, Scram.enable, first, second, first', second']

/-- Without a password the key does not matter to the enabler. -/
theorem enable_without_password (first : key ≠ "") (first' : key' ≠ "") :
    (s.withSecrets key "").enabler.enable .baseline = (s.withSecrets key' "").enabler.enable .baseline := by
  simp [enabler, withSecrets, scram, Scram.enabler, Scram.enable, first, first']

/-- Without a key the password does not matter to the enabler. -/
theorem enable_without_key (password password' : String) :
    (s.withSecrets "" password).enabler.enable .baseline = (s.withSecrets "" password').enabler.enable .baseline := by
  simp [enabler, withSecrets, scram, Scram.enabler, Scram.enable]

end

/-- A deployment has nothing of the secrets but what the enabler makes of them. -/
theorem deploy_congr (same : (s.withSecrets key password).enabler.enable .baseline =
      (s.withSecrets key' password').enabler.enable .baseline) :
    ((s.withSecrets key password).deploy previous).outcome = ((s.withSecrets key' password').deploy previous).outcome ∧
      ((s.withSecrets key password).deploy previous).log = ((s.withSecrets key' password').deploy previous).log :=
  Builder.build_congr_enabler (b := s.builder s.enabler previous) same

/-- Secrets stay out of the log. Deployments with different secrets log the same if they come to the same version, or
fail, and then they fail alike. Where one secret is missing the other one makes no difference at all. -/
theorem secrets_unlogged (scram : s.authMode = .scram) (previous : Document) :
    let attempt (key password : String) : Attempt := (s.withSecrets key password).deploy previous
    (∀ key password key' password', key ≠ "" → password ≠ "" → key' ≠ "" → password' ≠ "" →
      (∀ d d', (attempt key password).outcome = .ok d → (attempt key' password').outcome = .ok d' →
        d.version = d'.version → (attempt key password).log = (attempt key' password').log) ∧
      ∀ e, (attempt key password).outcome = .error e →
        (attempt key' password').outcome = .error e ∧ (attempt key password).log = (attempt key' password').log) ∧
    (∀ key key', key ≠ "" → key' ≠ "" → (∃ e, (attempt key "").outcome = .error e) ∧
      (attempt key "").outcome = (attempt key' "").outcome ∧ (attempt key "").log = (attempt key' "").log) ∧
    ∀ password password', password ≠ "" → password' ≠ "" → (∃ e, (attempt "" password).outcome = .error e) ∧
      (attempt "" password).outcome = (attempt "" password').outcome ∧ (attempt "" password).log = (attempt "" password').log := by
  intro attempt
  refine ⟨fun key password key' password' first second first' second' => ?_, fun key key' first first' => ?_,
    fun password password' _ _ => ?_⟩
  · have asked := asked_withSecrets scram first second first' second'
    refine ⟨fun d d' built built' version => ?_, fun e failed => ?_⟩
    · have versions : (attempt key password).outcome.map (·.version) = (attempt key' password').outcome.map (·.version) := by
        rw [built, built']
        exact congrArg Except.ok version
      exact log_withSecrets asked versions
    · have reason := (deploy_eq_error (hasSecrets_withSecrets first second)).mp failed
      have failed' : (attempt key' password').outcome = .error e :=
        (deploy_eq_error (hasSecrets_withSecrets first' second')).mpr reason
      have versions : (attempt key password).outcome.map (·.version) = (attempt key' password').outcome.map (·.version) := by
        rw [failed, failed']
      exact ⟨failed', log_withSecrets asked versions⟩
  · have missing : ¬ (s.withSecrets key "").HasSecrets := fun secrets => by simpa [withSecrets] using secrets scram
    exact ⟨exists_error missing, deploy_congr (enable_without_password scram first first')⟩
  · have missing : ¬ (s.withSecrets "" password).HasSecrets := fun secrets => by simpa [withSecrets] using secrets scram
    exact ⟨exists_error missing, deploy_congr (enable_without_key scram password password')⟩

/-- A deployment that asks for authentication and has no secrets yet. -/
def undisclosed : Settings where
  authMode := .scram

theorem secrets_unlogged_undisclosed : undisclosed.authMode = .scram ∧
    (∃ d d', ((undisclosed.withSecrets "k" "p").deploy {}).outcome = .ok d ∧
      ((undisclosed.withSecrets "key" "password").deploy {}).outcome = .ok d' ∧ d ≠ d' ∧ d.version = d'.version ∧
      ((undisclosed.withSecrets "k" "p").deploy {}).log = ((undisclosed.withSecrets "key" "password").deploy {}).log) ∧
    (∃ e, ((undisclosed.withSecrets "k" "").deploy {}).outcome = .error e) ∧
    ((undisclosed.withSecrets "k" "").deploy {}).outcome = ((undisclosed.withSecrets "key" "").deploy {}).outcome ∧
    ((undisclosed.withSecrets "" "p").deploy {}).log = ((undisclosed.withSecrets "" "password").deploy {}).log := by
  obtain ⟨given, noPassword, noKey⟩ := secrets_unlogged (s := undisclosed) rfl {}
  have result (key password : String) (first : key ≠ "") (second : password ≠ "") :
      ((undisclosed.withSecrets key password).deploy {}).outcome = .ok ((undisclosed.withSecrets key password).document 1) :=
    deploy_first (hasSecrets_withSecrets first second) (Document.finite_iff.mpr fun server member => by simp at member)
      (by simp) rfl
  have built := result "k" "p" (by simp) (by simp)
  have built' := result "key" "password" (by simp) (by simp)
  have differ : (undisclosed.withSecrets "k" "p").document 1 ≠ (undisclosed.withSecrets "key" "password").document 1 := by
    intro same
    have keys := congrArg (·.auth.key) same
    simp [document, auth, withSecrets, undisclosed, Scram.enabled] at keys
  have version : ((undisclosed.withSecrets "k" "p").document 1).version =
      ((undisclosed.withSecrets "key" "password").document 1).version := rfl
  -- at any secrets, since the kernel would compute with the literal ones
  have logs {key password key' password' : String} {d d' : Document} (first : key ≠ "") (second : password ≠ "")
      (first' : key' ≠ "") (second' : password' ≠ "")
      (built : ((undisclosed.withSecrets key password).deploy {}).outcome = .ok d)
      (built' : ((undisclosed.withSecrets key' password').deploy {}).outcome = .ok d') (version : d.version = d'.version) :
      ((undisclosed.withSecrets key password).deploy {}).log = ((undisclosed.withSecrets key' password').deploy {}).log :=
    (given key password key' password' first second first' second').1 d d' built built' version
  obtain ⟨failed, outcomes, -⟩ := noPassword "k" "key" (by simp) (by simp)
  obtain ⟨-, -, refused⟩ := noKey "p" "password" (by simp) (by simp)
  exact ⟨rfl, ⟨_, _, built, built', differ, version,
    logs (by simp) (by simp) (by simp) (by simp) built built' version⟩, failed, outcomes, refused⟩

end AgentConfig.Settings
