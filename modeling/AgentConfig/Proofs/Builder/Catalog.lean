import AgentConfig.Proofs.Builder.Session
import AgentConfig.Proofs.Builder.Topology
import AgentConfig.Proofs.Document.JsonRoundTrip
import AgentConfig.Proofs.Document.Version

namespace AgentConfig

theorem Build.complete_iff {build : Build} : shape.Complete build ↔ build.modules.isSome := by
  simp [shape, Shape.Complete, Fields.Complete, Option.isSome_iff_exists]

theorem Build.with_modules {build : Build} {words : List String} (given : build.modules = some words) :
    { build with modules := some words } = build := by
  rw [← given]

/-- The release as it enters the catalog: builds for which no modules are given have none, and all else stays. -/
structure Release.Enters (given entry : Release) : Prop where
  name : entry.name = given.name
  builds : List.Forall₂
    (fun before after => after = if before.modules = none then { before with modules := some [] } else before)
    given.builds entry.builds

namespace Release

theorem complete_iff {r : Release} : shape.Complete r ↔ ∀ build ∈ r.builds, build.modules.isSome := by
  simp [shape, Shape.Complete, Fields.Complete, Build.complete_iff]

theorem enters_listed (r : Release) : r.Enters r.listed where
  name := rfl
  builds := by
    rw [listed, List.forall₂_map_right_iff, List.forall₂_same]
    intro build _
    cases given : build.modules with
    | none => simp
    | some words => simp [Build.with_modules given]

theorem complete_listed (r : Release) : shape.Complete r.listed := by
  simp [complete_iff, listed]

/-- A release with all modules given enters the catalog as it is. -/
theorem listed_of_complete {r : Release} (complete : shape.Complete r) : r.listed = r := by
  have builds : r.builds.map (fun b => { b with modules := some (b.modules.getD []) }) = r.builds := by
    refine (List.map_congr_left fun build member => ?_).trans (List.map_id _)
    obtain ⟨words, given⟩ := Option.isSome_iff_exists.mp (complete_iff.mp complete build member)
    simp [given, Build.with_modules given]
  rw [listed, builds]

end Release

namespace Document

variable {d : Document} {t : Tree}

theorem at?_catalog (written : shape.write .document d = some t) :
    t.at? ["mongoDbVersions"] = (Shape.list Release.shape).write .document d.catalog := by
  have field : (⟨_, .aliased "versions" "mongoDbVersions", .list Release.shape, some [], d.catalog⟩ : Field) ∈
      shape.filled d :=
    .tail _ (.tail _ (.tail _ (.tail _ (.tail _ (.head _)))))
  exact Shape.at?_kept sound written field rfl

/-- Nothing under the catalog is null if all modules are given. -/
theorem exists_catalog (written : shape.write .document d = some t)
    (complete : ∀ r ∈ d.catalog, Release.shape.Complete r) :
    ∃ items, t.at? ["mongoDbVersions"] = some (.list items) ∧ .null ∉ (Tree.list items).leaves := by
  obtain ⟨u, inside⟩ := (Shape.list Release.shape).write_isSome (fun _ clean => clean) .document
    ((Shape.list Release.shape).meets_written (by decide) d.catalog)
  have whole := (Shape.list Release.shape).null_notMem_leaves complete inside
  obtain ⟨items, -, rfl⟩ := Option.map_eq_some_iff.mp inside
  exact ⟨items, (at?_catalog written).trans inside, whole⟩

end Document

namespace Builder

variable {b : Builder} {d : Document}

theorem catalog_of_built (built : b.build.outcome = .ok d) : d.catalog = b.catalog := by
  obtain ⟨enabler, servers, auth, -, -, -, content⟩ := content_of_built built
  exact congrArg Document.catalog content

/-- A document that is built has no infinite numbers. -/
theorem finite_of_built (built : b.build.outcome = .ok d) : Document.shape.Meets .finite d := by
  obtain ⟨tls, servers, -⟩ := lists_of_built built
  rw [Document.finite_iff, servers]
  intro server member
  obtain ⟨index, -, rfl⟩ := List.mem_map.mp member
  simp only [serverWith, Server.cacheSize, Binary64.isFinite_one]

theorem known_of_built (built : b.build.outcome = .ok d) : d.auth.key ≠ .foreign := by
  obtain ⟨-, enabler, servers, auth, before, after, -, -, -, -, written, rfl⟩ := build_eq_ok.mp built
  have known : auth.key ≠ .foreign := Document.key_ne_foreign_of_canonical written
  split_ifs <;> exact known

theorem shortInts_assemble {servers : List Server} {auth : Auth} {version : Int} (none : servers = [])
    (short : IsShort version) : Document.shape.Meets (.ints IsShort) { b.assemble servers auth with version } := by
  subst none
  have sets : ∀ set ∈ (b.assemble [] auth).replicaSets, ReplicaSet.shape.Meets (.ints IsShort) set := by
    intro set member
    obtain rfl := List.mem_singleton.mp member
    exact ⟨trivial, by simp [Shape.Meets], trivial, trivial⟩
  exact ⟨short, by simp [assemble, Shape.Meets], sets, Auth.shape.meets_ints_of_notMem (by decide) _,
    AgentTls.shape.meets_ints_of_notMem (by decide) _, (Shape.list Release.shape).meets_ints_of_notMem (by decide) _,
    AgentOptions.shape.meets_ints_of_notMem (by decide) _, trivial⟩

namespace Session

variable {requests : List Request} {d : Document}

theorem catalog_fresh (requests : List Request) :
    (fresh.after requests).builder.catalog = (requests.filterMap Request.release?).map Release.listed :=
  (catalog_after fresh requests).trans (List.nil_append _)

/-- The catalog of a document has an entry for each release that was added, in order, and nothing in it is written as null.
What is read from the text of the document is the document itself, and only integers that are too long keep it from being
read. Releases that are added from its catalog give the same catalog again. -/
theorem catalog_of_releases (built : (fresh.after requests).builder.build.outcome = .ok d) :
    List.Forall₂ Release.Enters (requests.filterMap Request.release?) d.catalog ∧
    (∃ t items, (∀ indent, d.toJson indent = .ok (Json.write indent t)) ∧
      t.at? ["mongoDbVersions"] = some (.list items) ∧ .null ∉ (Tree.list items).leaves) ∧
    (∀ indent, ∃ text, d.toJson indent = .ok text ∧
      ∀ e, Document.ofJson text = .ok e ↔ e = d ∧ Document.shape.Meets (.ints IsShort) d) ∧
    ∀ again, again.filterMap Request.release? = d.catalog → (fresh.after again).builder.catalog = d.catalog ∧
      ∀ e, (fresh.after again).builder.build.outcome = .ok e → e.catalog = d.catalog := by
  have catalog : d.catalog = (requests.filterMap Request.release?).map Release.listed :=
    (catalog_of_built built).trans (catalog_fresh requests)
  have complete : ∀ r ∈ d.catalog, Release.shape.Complete r := by
    rw [catalog, List.forall_mem_map]
    exact fun r _ => r.complete_listed
  obtain ⟨t, written⟩ := Document.shape.write_isSome (fun _ clean => clean) .document
    (Document.meets_written (known_of_built built))
  obtain ⟨items, inside, whole⟩ := Document.exists_catalog written complete
  refine ⟨?_, ⟨t, items, Document.toJson_eq_ok_of_write written, inside, whole⟩, fun indent => ?_, fun again same => ?_⟩
  · rw [catalog, List.forall₂_map_right_iff, List.forall₂_same]
    exact fun r _ => r.enters_listed
  · refine ⟨_, Document.toJson_eq_ok_of_write written indent, fun e => ?_⟩
    have finite := finite_of_built built
    rw [Document.ofJson, Shape.ofJson_write_eq_ok Document.sound Document.shallow written indent]
    exact and_congr_right fun _ => and_iff_right finite
  · have copied : (fresh.after again).builder.catalog = d.catalog := by
      rw [catalog_fresh, same]
      exact (List.map_congr_left fun r member => Release.listed_of_complete (complete r member)).trans (List.map_id _)
    exact ⟨copied, fun e built' => (catalog_of_built built').trans copied⟩

/-- Two releases are added around a build that fails for want of an enabler. -/
def gathered : List Request :=
  [.addRelease { name := "4.4.0", builds := [{ platform := "linux" }, { modules := some ["enterprise"] }] }, .build,
    .setEnabler .unchanged, .addRelease { name := "4.2.6" }]

theorem build_gathered : ∃ d, (fresh.after gathered).builder.build.outcome = .ok d ∧
    Document.shape.Meets (.ints IsShort) d := by
  obtain ⟨before, first⟩ : ∃ text, Document.canonical {} = .ok text := Document.exists_canonical (by decide)
  obtain ⟨d, built⟩ := exists_build (b := (fresh.after gathered).builder) rfl rfl rfl rfl first (by simp [Auth.baseline])
  refine ⟨d, built, ?_⟩
  obtain ⟨-, enabler, servers, auth, before', after, -, made, -, -, -, rfl⟩ := build_eq_ok.mp built
  have none : servers = [] := (Except.ok.inj made).symm
  split_ifs
  · exact shortInts_assemble none isShort_zero
  · exact shortInts_assemble none (isShort_of_natAbs_lt (k := 1) (by decide) (by decide) (by decide))

theorem catalog_of_gathered : ∃ d, (fresh.after gathered).builder.build.outcome = .ok d ∧
    d.catalog = [
      { name := "4.4.0", builds := [{ platform := "linux", modules := some [] }, { modules := some ["enterprise"] }] },
      { name := "4.2.6" }] ∧
    List.Forall₂ Release.Enters (gathered.filterMap Request.release?) d.catalog ∧
    (∃ text, d.toJson (some 2) = .ok text ∧ Document.ofJson text = .ok d) ∧
    (fresh.after (.setName "other" :: d.catalog.map .addRelease)).builder.catalog = d.catalog := by
  obtain ⟨d, built, short⟩ := build_gathered
  obtain ⟨entries, -, reload, readd⟩ := catalog_of_releases built
  obtain ⟨text, written, read⟩ := reload (some 2)
  have catalog := (catalog_of_built built).trans (catalog_fresh gathered)
  have same : (.setName "other" :: d.catalog.map .addRelease).filterMap Request.release? = d.catalog := by
    rw [List.filterMap_cons_none rfl, List.filterMap_map]
    exact List.filterMap_some
  exact ⟨d, built, catalog, entries, ⟨text, written, (read d).mpr ⟨rfl, short⟩⟩, (readd _ same).1⟩

end Session
end Builder
end AgentConfig
