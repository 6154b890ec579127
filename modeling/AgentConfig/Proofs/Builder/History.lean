import AgentConfig.Proofs.Builder.Build

namespace AgentConfig

/-- Documents that were built one after the other, each by some builder that was given the one before. -/
inductive History : Document → List Document → Prop
  | start (d : Document) : History d []
  | build {d e : Document} {later : List Document} (b : Builder)
      (built : ({ b with previous := d } : Builder).build.outcome = .ok e) (history : History e later) :
      History d (e :: later)

/-- What one build does to the version: it stays just when the text stays, and else is the next. -/
structure Document.Follows (d e : Document) : Prop where
  written : ∃ text, d.canonical = .ok text
  written_next : ∃ text, e.canonical = .ok text
  version : e.version = d.version ∨ e.version = d.version + 1
  unchanged : e.version = d.version ↔ e.canonical = d.canonical

theorem Builder.build_follows {b : Builder} {e : Document} (built : b.build.outcome = .ok e) :
    b.previous.Follows e := by
  obtain ⟨_, _, servers, auth, before, after, _, _, _, first, second, rfl⟩ := build_eq_ok.mp built
  by_cases same : before = after
  · subst same
    rw [if_pos rfl]
    exact ⟨⟨before, first⟩, ⟨before, second⟩, .inl rfl, iff_of_true rfl (second.trans first.symm)⟩
  · rw [if_neg same]
    obtain ⟨text, written⟩ := Document.canonical_with_version second (b.previous.version + 1)
    refine ⟨⟨before, first⟩, ⟨text, written⟩, .inr rfl, iff_of_false (by simp) fun unchanged => ?_⟩
    -- The text holds the version, so a document with the next version has another text.
    have versions := Document.version_eq_of_canonical_eq (unchanged.trans first) first
    simp at versions

namespace History

variable {d : Document} {later : List Document}

theorem isChain (history : History d later) : (d :: later).IsChain Document.Follows := by
  induction history with
  | start => exact .singleton _
  | build b built _ ih => exact .cons_cons (Builder.build_follows built) ih

/-- The first version is the least, and a document that still has it has the first text. -/
theorem from_start (history : History d later) :
    ∀ e ∈ later, d.version ≤ e.version ∧ (d.version = e.version → d.canonical = e.canonical) := by
  induction history with
  | start => simp
  | @build d e later b built _ ih =>
    have follows : d.Follows e := Builder.build_follows built
    have rises := follows.version
    intro f member
    rcases List.mem_cons.mp member with rfl | member
    · exact ⟨by omega, fun same => (follows.unchanged.mp same.symm).symm⟩
    · obtain ⟨least, text⟩ := ih f member
      refine ⟨by omega, fun same => ?_⟩
      have first : e.version = d.version := by omega
      exact (follows.unchanged.mp first).symm.trans (text (first.trans same))

theorem pairwise (history : History d later) : (d :: later).Pairwise fun d e =>
    d.version ≤ e.version ∧ (d.version = e.version → d.canonical = e.canonical) := by
  induction history with
  | start => exact List.pairwise_singleton _ _
  | build b built history ih => exact .cons (History.build b built history).from_start ih

/-- The number of builds that changed the text. -/
def changes : Document → List Document → Nat
  | _, [] => 0
  | d, e :: later => (if e.canonical = d.canonical then 0 else 1) + changes e later

theorem version_last (history : History d later) : (later.getLastD d).version = d.version + changes d later := by
  induction history with
  | start => simp [changes]
  | @build d e later b built _ ih =>
    have follows : d.Follows e := Builder.build_follows built
    have rises := follows.version
    rw [List.getLastD_cons, ih, changes]
    split_ifs with same
    · have stays := follows.unchanged.mpr same
      omega
    · have moves : e.version ≠ d.version := fun stays => same (follows.unchanged.mp stays)
      omega

/-- Along any history the version counts the changes of the text, and tells the texts apart. -/
theorem version_history (history : History d later) :
    (d :: later).IsChain Document.Follows ∧ (d :: later).Pairwise (fun d e => d.version ≤ e.version) ∧
    (later.getLastD d).version - d.version = changes d later ∧
    ∀ e ∈ d :: later, ∀ f ∈ d :: later, e.version = f.version → e.canonical = f.canonical := by
  refine ⟨history.isChain, history.pairwise.imp fun ordered => ordered.1, ?_, ?_⟩
  · rw [history.version_last]
    omega
  · have forth : (d :: later).Pairwise fun e f => e.version = f.version → e.canonical = f.canonical :=
      history.pairwise.imp fun ordered => ordered.2
    have back : (d :: later).Pairwise fun e f => f.version = e.version → f.canonical = e.canonical :=
      forth.imp fun text versions => (text versions.symm).symm
    intro e first f second
    exact forth.forall_of_forall_of_flip (fun _ _ _ => rfl) back first second

/-- A builder of replica sets without members. -/
def namedBuilder (name : String) : Builder where
  enabler := some .unchanged
  name := name

/-- What it builds. -/
def named (version : Int) (name : String) : Document where
  version := version
  replicaSets := [{ name }]
  auth := .baseline
  options := { downloadBase := Builder.downloadBase }

theorem named_canonical (version : Int) (name : String) : ∃ text, (named version name).canonical = .ok text :=
  Document.exists_canonical (by simp [named, Auth.baseline])

theorem build_named (version : Int) (name name' : String) :
    ({ namedBuilder name' with previous := named version name } : Builder).build.outcome =
      .ok (named (if name = name' then version else version + 1) name') := by
  have finite : ∀ name, Document.shape.Meets .finite (named version name) := fun name =>
    Document.finite_iff.mpr fun server member => by simp [named] at member
  obtain ⟨before, first⟩ := named_canonical version name
  obtain ⟨after, second⟩ := named_canonical version name'
  refine Builder.build_eq_ok.mpr ⟨rfl, .unchanged, [], .baseline, before, after, rfl, rfl, rfl, first, second, ?_⟩
  by_cases same : name = name'
  · subst same
    rw [first] at second
    rw [if_pos rfl, if_pos (Except.ok.inj second)]
    rfl
  · have texts : before ≠ after := by
      rintro rfl
      have documents := Document.canonical_injective (finite name) (finite name') first second
      simp [named, same] at documents
    rw [if_neg same, if_neg texts]
    rfl

theorem history_of_renaming : History (named 0 "a") [named 0 "a", named 1 "b", named 2 "a"] :=
  .build _ (build_named 0 "a" "a") <| .build _ (build_named 0 "a" "b") <| .build _ (build_named 1 "b" "a") <| .start _

theorem version_history_of_renaming :
    History (named 0 "a") [named 0 "a", named 1 "b", named 2 "a"] ∧
    [named 0 "a", named 0 "a", named 1 "b", named 2 "a"].IsChain Document.Follows ∧
    [named 0 "a", named 0 "a", named 1 "b", named 2 "a"].Pairwise (fun d e => d.version ≤ e.version) ∧
    (named 2 "a").version - (named 0 "a").version = changes (named 0 "a") [named 0 "a", named 1 "b", named 2 "a"] ∧
    ∀ e ∈ [named 0 "a", named 0 "a", named 1 "b", named 2 "a"],
      ∀ f ∈ [named 0 "a", named 0 "a", named 1 "b", named 2 "a"],
        e.version = f.version → e.canonical = f.canonical :=
  ⟨history_of_renaming, version_history history_of_renaming⟩

end History
end AgentConfig
