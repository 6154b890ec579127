import AgentConfig.Enabler.Scram
import AgentConfig.Proofs.Builder.Build

namespace AgentConfig

namespace Document

/-- A document but for its version. -/
def content (d : Document) : Document :=
  { d with version := 0 }

theorem canonical_eq_error {d : Document} {e : WriteError} (refused : d.canonical = .error e) : e = .unwritable := by
  unfold canonical at refused
  split at refused
  · contradiction
  · exact (Except.error.inj refused).symm

/-- Whether a document can be written does not depend on its version. -/
theorem canonical_with_version_map {α : Type} (d : Document) (version : Int) (a : α) :
    (canonical { d with version }).map (fun _ => a) = d.canonical.map (fun _ => a) := by
  cases written : d.canonical with
  | ok text =>
    obtain ⟨text', written'⟩ := canonical_with_version written version
    rw [written']
    rfl
  | error e =>
    cases written' : canonical { d with version } with
    | ok text =>
      obtain ⟨_, back⟩ := canonical_with_version written' d.version
      exact absurd (written.symm.trans back) (by simp)
    | error e' => rw [canonical_eq_error written, canonical_eq_error written']

end Document

/-- The enabler that first tells the log what it is given. -/
def Enabler.noting (e : Enabler) (note : Auth → LogRecord) : Enabler where
  enable auth := ((e.enable auth).1, note auth :: (e.enable auth).2)

namespace Builder

variable {b : Builder} {d : Document} {enabler : Enabler}

/-- What a build makes before it looks at the document before: the servers and their authentication. -/
def parts (b : Builder) : Except BuildError (List Server × Auth) :=
  if b.consumed then .error .consumed
  else
    match b.enabler with
    | none => .error .noEnabler
    | some enabler =>
      match b.servers with
      | .error e => .error (.invalid e)
      | .ok servers =>
        match (enabler.enable .baseline).1 with
        | .error e => .error (.enabler e)
        | .ok auth => .ok (servers, auth)

theorem outcome_build (b : Builder) : b.build.outcome =
    match b.parts with
    | .error e => .error e
    | .ok (servers, auth) => ((b.settle (b.assemble servers auth)).map (·.1)).mapError .write := by
  unfold build parts
  dsimp only
  split_ifs
  · rfl
  · cases b.enabler with
    | none => rfl
    | some enabler =>
      cases b.servers with
      | error e => rfl
      | ok servers =>
        dsimp only
        cases enabled : enabler.enable .baseline with
        | mk result log =>
          cases result with
          | error e => simp
          | ok auth =>
            dsimp only
            cases b.settle (b.assemble servers auth) with
            | error e => rfl
            | ok settled => rfl

/-- The comparison with the document before decides about nothing but the version. -/
theorem settle_map_content {before : String} (written : b.previous.canonical = .ok before) (d : Document) :
    (b.settle d).map (fun settled => settled.1.content) = d.canonical.map fun _ => d.content := by
  unfold settle
  cases d.canonical with
  | error e =>
    rw [written]
    rfl
  | ok after =>
    simp only [written, bind, Except.bind]
    split_ifs <;> rfl

/-- What the parameters describe, as if nothing had been deployed before. -/
def draft (b : Builder) (servers : List Server) (auth : Auth) : Document :=
  { b with previous := .empty }.assemble servers auth

theorem content_assemble (servers : List Server) (auth : Auth) :
    (b.assemble servers auth).content = b.draft servers auth :=
  rfl

/-- If the document before can be written, it has no part in the content of the next one, nor in an error. -/
theorem outcome_map_content {before : String} (written : b.previous.canonical = .ok before) :
    b.build.outcome.map Document.content =
      match b.parts with
      | .error e => .error e
      | .ok (servers, auth) => ((b.draft servers auth).canonical.map fun _ => b.draft servers auth).mapError .write := by
  rw [outcome_build]
  cases b.parts with
  | error e => rfl
  | ok made =>
    obtain ⟨servers, auth⟩ := made
    have version := Document.canonical_with_version_map (b.draft servers auth) b.previous.version (b.draft servers auth)
    have settled := settle_map_content written (b.assemble servers auth)
    rw [content_assemble] at settled
    dsimp only
    rw [← version]
    change _ = ((b.assemble servers auth).canonical.map fun _ => b.draft servers auth).mapError BuildError.write
    rw [← settled]
    cases b.settle (b.assemble servers auth) <;> rfl

/-- The servers of a build do not depend on its enabler. -/
theorem servers_with_enabler (other : Enabler) : { b with enabler := some other }.servers = b.servers :=
  rfl

/-- Nor does what becomes of them once the enabler has made the authentication. -/
theorem settle_with_enabler (other : Enabler) (servers : List Server) (auth : Auth) :
    { b with enabler := some other }.settle ({ b with enabler := some other }.assemble servers auth) =
      b.settle (b.assemble servers auth) :=
  rfl

/-- An enabler is asked at most once, about the baseline, and exactly once by a build that gives a document. -/
theorem build_noting (enabler : Enabler) (note : Auth → LogRecord) :
    let plain := { b with enabler := some enabler }.build
    let noted := { b with enabler := some (enabler.noting note) }.build
    noted.outcome = plain.outcome ∧
      ((noted.log = plain.log ∧ ∀ d, plain.outcome ≠ .ok d) ∨
        ∃ first rest, plain.log = first :: rest ∧ noted.log = first :: note .baseline :: rest) := by
  intro plain noted
  simp only [plain, noted, build, servers_with_enabler]
  split_ifs
  · exact ⟨rfl, .inl ⟨rfl, by simp⟩⟩
  · cases b.servers with
    | error e => exact ⟨rfl, .inl ⟨rfl, by simp⟩⟩
    | ok servers =>
      cases asked : enabler.enable .baseline with
      | mk result log =>
        simp only [Enabler.noting, asked]
        cases result with
        | error e => exact ⟨rfl, .inr ⟨_, _, rfl, rfl⟩⟩
        | ok auth =>
          simp only [settle_with_enabler]
          cases b.settle (b.assemble servers auth) with
          | error e => exact ⟨rfl, .inr ⟨_, _, rfl, rfl⟩⟩
          | ok settled => exact ⟨rfl, .inr ⟨_, _, rfl, rfl⟩⟩

/-- What an enabler would make of anything but the baseline does not matter. -/
theorem build_congr_enabler {other : Enabler} (same : other.enable .baseline = enabler.enable .baseline) :
    { b with enabler := some other }.build.outcome = { b with enabler := some enabler }.build.outcome ∧
      { b with enabler := some other }.build.log = { b with enabler := some enabler }.build.log := by
  simp only [build, servers_with_enabler, same]
  split_ifs
  · exact ⟨rfl, rfl⟩
  · cases b.servers with
    | error e => exact ⟨rfl, rfl⟩
    | ok servers =>
      cases enabler.enable .baseline with
      | mk result log =>
        cases result with
        | error e => exact ⟨rfl, rfl⟩
        | ok auth =>
          simp only [settle_with_enabler]
          cases b.settle (b.assemble servers auth) <;> exact ⟨rfl, rfl⟩

/-- Documents that can be written make no difference as the one before, except to the version: the same error, or the
same content, which the parameters alone describe. The enabler is only asked about the baseline, and once. -/
theorem build_forgets_previous (b : Builder) {p q : Document} (first : ∃ text, p.canonical = .ok text)
    (second : ∃ text, q.canonical = .ok text) :
    let after (d : Document) : Builder := { b with previous := d }
    (after p).build.outcome.map Document.content = (after q).build.outcome.map Document.content ∧
    (∀ d, (after p).build.outcome = .ok d →
      ∃ servers auth, b.parts = .ok (servers, auth) ∧ d.content = b.draft servers auth) ∧
    ∀ enabler, b.enabler = some enabler →
      (∀ other : Enabler, other.enable .baseline = enabler.enable .baseline →
        { after p with enabler := some other }.build.outcome = (after p).build.outcome ∧
        { after p with enabler := some other }.build.log = (after p).build.log) ∧
      ∀ note d, (after p).build.outcome = .ok d →
        { after p with enabler := some (enabler.noting note) }.build.outcome = .ok d ∧
        ∃ record others, (after p).build.log = record :: others ∧
          { after p with enabler := some (enabler.noting note) }.build.log = record :: note .baseline :: others := by
  intro after
  obtain ⟨_, written⟩ := first
  obtain ⟨_, written'⟩ := second
  have content : ∀ {d text}, d.canonical = .ok text → (after d).build.outcome.map Document.content =
      match b.parts with
      | .error e => .error e
      | .ok (servers, auth) => ((b.draft servers auth).canonical.map fun _ => b.draft servers auth).mapError .write :=
    fun written => outcome_map_content (b := after _) written
  refine ⟨(content written).trans (content written').symm, fun d built => ?_, fun enabler given => ?_⟩
  · have same := content written
    rw [built] at same
    cases made : b.parts with
    | error e => simp [made, Except.map] at same
    | ok parts =>
      obtain ⟨servers, auth⟩ := parts
      simp only [made] at same
      cases drafted : (b.draft servers auth).canonical with
      | error e => simp [drafted, Except.map, Except.mapError] at same
      | ok text =>
        rw [drafted] at same
        exact ⟨servers, auth, rfl, Except.ok.inj same⟩
  · have self : { after p with enabler := some enabler } = after p := by rw [← given]
    refine ⟨fun other same => ?_, fun note d built => ?_⟩
    · have congr := build_congr_enabler (b := after p) same
      rwa [self] at congr
    · have noting := build_noting (b := after p) enabler note
      rw [self] at noting
      obtain ⟨outcome, ⟨-, failed⟩ | asked⟩ := noting
      · exact absurd built (failed d)
      · exact ⟨outcome.trans built, asked⟩

/-- A builder of one encrypted server with credentials. -/
def encrypted : Builder where
  enabler := some (Scram.enabler { key := "k", password := "p" })
  members := 1
  domain := "d"
  name := "rs"
  caFile := "/ca"
  keyFile := "/pem"
  tlsMode := "requireSSL"

/-- A document with something of its own in every part. -/
def stale : Document where
  version := 7
  servers := [{
    name := "old-0", hostname := "old-0.d",
    arguments := { storage := { engine := { tuning := { cacheSize := .nan } } } } }]
  replicaSets := [{ name := "old" }]
  auth := { users := [{ name := "eve", database := "admin" }], key := .text "leaked" }
  tls := { caFile := "/old-ca", certificates := .required }
  catalog := [{ name := "3.6", builds := [{}] }]
  options := { downloadBase := "/old" }

/-- The one server of the encrypted deployment. -/
def encryptedServer : Server :=
  (Server.base "rs-0" "rs-0.d" "" "rs").withTls
    { mode := .require, caFile := "/ca", keyFile := "/pem", allowWithoutCertificates := true }

theorem parts_encrypted : encrypted.parts =
    .ok ([encryptedServer], Scram.enabled { key := "k", password := "p" } .baseline) :=
  rfl

theorem exists_build_encrypted {d : Document} (written : ∃ text, d.canonical = .ok text) :
    ∃ e, { encrypted with previous := d }.build.outcome = .ok e := by
  obtain ⟨before, written⟩ := written
  exact exists_build rfl rfl rfl rfl written (by simp [Scram.enabled])

/-- Nothing of the stale document is left: the builds after it and after no document at all have the same content. -/
theorem build_forgets_stale : (∃ text, stale.canonical = .ok text) ∧ (∃ text, Document.empty.canonical = .ok text) ∧
    ∃ d e, { encrypted with previous := stale }.build.outcome = .ok d ∧
      { encrypted with previous := .empty }.build.outcome = .ok e ∧ d.content = e.content ∧
      d.content = encrypted.draft [encryptedServer] (Scram.enabled { key := "k", password := "p" } .baseline) ∧
      ∀ note, ∃ record others, { encrypted with previous := stale }.build.log = record :: others ∧
        { encrypted with
          previous := stale
          enabler := some ((Scram.enabler { key := "k", password := "p" }).noting note) }.build.log =
          record :: note .baseline :: others := by
  have written : ∃ text, stale.canonical = .ok text := Document.exists_canonical (by decide)
  have written' : ∃ text, Document.empty.canonical = .ok text := Document.exists_canonical (by decide)
  obtain ⟨d, first⟩ := exists_build_encrypted written
  obtain ⟨e, second⟩ := exists_build_encrypted written'
  obtain ⟨same, made, asked⟩ := build_forgets_previous encrypted written written'
  obtain ⟨servers, auth, parts, content⟩ := made d first
  obtain ⟨rfl, rfl⟩ := Prod.mk.inj (Except.ok.inj (parts_encrypted.symm.trans parts))
  rw [first, second] at same
  exact ⟨written, written', d, e, first, second, Except.ok.inj same, content, fun note => ((asked _ rfl).2 note d first).2⟩

end Builder
end AgentConfig
