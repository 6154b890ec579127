import AgentConfig.Builder.Session
import AgentConfig.Proofs.Builder.Build

namespace AgentConfig

/-- The parameters of a builder that are set; releases are added instead. -/
inductive Setting where
  | enabler
  | topology
  | members
  | domain
  | name
  | compatibility
  | version
  | previous
  | tls
  deriving DecidableEq

/-- The values of a parameter. -/
abbrev Setting.Value : Setting → Type
  | .enabler => Option Enabler
  | .topology => Topology
  | .members => Int
  | .domain | .name | .compatibility | .version => String
  | .previous => Document
  | .tls => String × String × String

namespace Builder

variable {b c : Builder} {e : BuildError} {d : Document}

/-- The value that a parameter has in a builder. -/
def value (b : Builder) : (setting : Setting) → setting.Value
  | .enabler => b.enabler
  | .topology => b.topology
  | .members => b.members
  | .domain => b.domain
  | .name => b.name
  | .compatibility => b.compatibility
  | .version => b.version
  | .previous => b.previous
  | .tls => (b.caFile, b.keyFile, b.tlsMode)

/-- There is nothing else to a builder. -/
theorem eq_of_value_eq (values : ∀ setting, b.value setting = c.value setting) (catalog : b.catalog = c.catalog)
    (consumed : b.consumed = c.consumed) : b = c := by
  obtain ⟨enabler, topology, members, domain, name, compatibility, version, previous, caFile, keyFile, tlsMode, _, _⟩ := b
  obtain rfl : enabler = c.enabler := values .enabler
  obtain rfl : topology = c.topology := values .topology
  obtain rfl : members = c.members := values .members
  obtain rfl : domain = c.domain := values .domain
  obtain rfl : name = c.name := values .name
  obtain rfl : compatibility = c.compatibility := values .compatibility
  obtain rfl : version = c.version := values .version
  obtain rfl : previous = c.previous := values .previous
  obtain ⟨rfl, rfl, rfl⟩ : caFile = c.caFile ∧ keyFile = c.keyFile ∧ tlsMode = c.tlsMode := by
    simpa only [value, Prod.mk.injEq] using values .tls
  obtain rfl := catalog
  obtain rfl := consumed
  rfl

theorem build_of_consumed (consumed : b.consumed = true) :
    b.build = { outcome := .error .consumed, log := [], builder := b } := by
  rw [build, if_pos consumed]

/-- A build that fails leaves the builder as it was. -/
theorem builder_of_failed (failed : b.build.outcome = .error e) : b.build.builder = b := by
  revert failed
  unfold build
  dsimp only
  split_ifs
  · exact fun _ => rfl
  repeat' split
  all_goals simp

/-- A build that succeeds uses the builder up and changes nothing else. -/
theorem builder_of_built (built : b.build.outcome = .ok d) : b.build.builder = { b with consumed := true } := by
  revert built
  unfold build
  dsimp only
  split_ifs
  · simp
  repeat' split
  all_goals simp

theorem value_build (setting : Setting) : b.build.builder.value setting = b.value setting := by
  cases outcome : b.build.outcome with
  | error e => rw [builder_of_failed outcome]
  | ok d =>
    rw [builder_of_built outcome]
    cases setting <;> rfl

namespace Request

/-- The parameter that a request sets, if it sets one: a word that is no topology does not. -/
def setting? : Request → Option Setting
  | .setEnabler _ => some .enabler
  | .setTopology word => (Topology.ofWord? word).map fun _ => .topology
  | .setMembers _ => some .members
  | .setDomain _ => some .domain
  | .setName _ => some .name
  | .setCompatibility _ => some .compatibility
  | .setVersion _ => some .version
  | .setPrevious _ => some .previous
  | .setTls .. => some .tls
  | .addRelease _ | .isTlsEnabled | .build => none

def release? : Request → Option Release
  | .addRelease r => some r
  | _ => none

def sets (setting : Setting) (r : Request) : Bool :=
  r.setting? == some setting

/-- The second requests are the first with only the last value for each parameter, in any order, and the same
releases in the same order, and nothing else. -/
structure Condenses (requests short : List Request) : Prop where
  settings : ∀ setting, short.filter (sets setting) = (requests.filter (sets setting)).getLast?.toList
  releases : short.filterMap release? = requests.filterMap release?
  only : ∀ r ∈ short, r.setting?.isSome ∨ r.release?.isSome

/-- Whether a request adds a release or sets a parameter that no later request sets. -/
def lasts (r : Request) (later : List Request) : Bool :=
  r.release?.isSome || r.setting?.any fun setting => !later.any (sets setting)

/-- The requests that last, in the order they had. -/
def condense : List Request → List Request
  | [] => []
  | r :: rest => if r.lasts rest then r :: condense rest else condense rest

variable {setting : Setting} {r : Request} {requests short : List Request}

theorem release?_eq_none (sets : r.sets setting = true) : r.release? = none := by
  cases r with
  | addRelease r => simp [Request.sets, setting?] at sets
  | _ => rfl

theorem lasts_of_sets (sets : r.sets setting = true) : r.lasts requests = !requests.any (Request.sets setting) := by
  rw [lasts, release?_eq_none sets, beq_iff_eq.mp sets]
  rfl

theorem filter_condense (setting : Setting) (requests : List Request) :
    (condense requests).filter (sets setting) = (requests.filter (sets setting)).getLast?.toList := by
  induction requests with
  | nil => rfl
  | cons r rest ih =>
    cases sets : r.sets setting with
    | false =>
      rw [condense, List.filter_cons_of_neg (by simp [sets]), ← ih]
      split_ifs
      · exact List.filter_cons_of_neg (by simp [sets])
      · rfl
    | true =>
      rw [condense, lasts_of_sets sets, List.filter_cons_of_pos sets]
      cases later : rest.filter (Request.sets setting) with
      | nil =>
        have last : rest.any (Request.sets setting) = false := by
          simpa [List.filter_eq_nil_iff] using later
        rw [later] at ih
        simp [last, List.filter_cons_of_pos sets, ih]
      | cons r' rest' =>
        have overridden : rest.any (Request.sets setting) = true := by
          have member : r' ∈ rest.filter (Request.sets setting) := by simp [later]
          exact List.any_eq_true.mpr ⟨r', (List.mem_filter.mp member).1, (List.mem_filter.mp member).2⟩
        rw [overridden, Bool.not_true, if_neg Bool.false_ne_true, ih, later, List.getLast?_cons_cons]

theorem condenses_condense (requests : List Request) : Condenses requests (condense requests) where
  settings setting := filter_condense setting requests
  releases := by
    induction requests with
    | nil => rfl
    | cons r rest ih =>
      rw [condense]
      cases release : r.release? with
      | none =>
        rw [List.filterMap_cons_none release, ← ih]
        split_ifs
        · exact List.filterMap_cons_none release
        · rfl
      | some added =>
        have kept : r.lasts rest = true := by simp [lasts, release]
        rw [if_pos kept, List.filterMap_cons_some release, List.filterMap_cons_some release, ih]
  only r member := by
    induction requests with
    | nil => contradiction
    | cons first rest ih =>
      rw [condense] at member
      split_ifs at member with kept
      · rcases List.mem_cons.mp member with rfl | member
        · rw [lasts, Bool.or_eq_true] at kept
          exact kept.symm.imp (fun set => Option.isSome_of_any set) id
        · exact ih member
      · exact ih member

end Request

namespace Session

variable {s : Session} {r : Request} {setting : Setting} {requests short : List Request}

theorem after_concat (s : Session) (requests : List Request) (r : Request) :
    s.after (requests ++ [r]) = ((s.after requests).step r).1 := by
  simp [after]

theorem value_step_of_sets (sets : r.sets setting = true) (s : Session) :
    (s.step r).1.builder.value setting = (fresh.step r).1.builder.value setting := by
  cases r with
  | setTopology word =>
    cases chosen : Topology.ofWord? word with
    | none => simp [Request.sets, Request.setting?, chosen] at sets
    | some topology =>
      simp only [Request.sets, Request.setting?, chosen, Option.map_some, beq_iff_eq, Option.some.injEq] at sets
      subst sets
      simp only [step, setTopology, chosen, accept, value]
  | addRelease r => simp [Request.sets, Request.setting?] at sets
  | isTlsEnabled => simp [Request.sets, Request.setting?] at sets
  | build => simp [Request.sets, Request.setting?] at sets
  | _ =>
    obtain rfl := Option.some.inj (beq_iff_eq.mp sets)
    rfl

theorem value_step_of_not_sets (other : r.sets setting = false) (s : Session) :
    (s.step r).1.builder.value setting = s.builder.value setting := by
  cases r with
  | setTopology word =>
    cases chosen : Topology.ofWord? word with
    | none => simp only [step, setTopology, chosen]
    | some topology =>
      have ne : setting ≠ .topology := by
        rintro rfl
        simp [Request.sets, Request.setting?, chosen] at other
      simp only [step, setTopology, chosen]
      cases setting <;> first | exact absurd rfl ne | rfl
  | build => exact value_build setting
  | addRelease r => cases setting <;> rfl
  | isTlsEnabled => rfl
  | _ => cases setting <;> first | rfl | contradiction

/-- The value of a parameter is that of the last request that sets it. -/
theorem value_after (s : Session) (requests : List Request) :
    (s.after requests).builder.value setting = (requests.filter (Request.sets setting)).getLast?.elim
      (s.builder.value setting) fun r => (fresh.step r).1.builder.value setting := by
  induction requests using List.reverseRecOn with
  | nil => rfl
  | append_singleton requests r ih =>
    rw [after_concat, List.filter_append]
    cases sets : r.sets setting with
    | false =>
      rw [value_step_of_not_sets sets, ih, List.filter_cons_of_neg (by simp [sets]), List.filter_nil, List.append_nil]
    | true =>
      rw [value_step_of_sets sets, List.filter_cons_of_pos sets, List.filter_nil, List.getLast?_concat]
      rfl

theorem catalog_build {b : Builder} : b.build.builder.catalog = b.catalog := by
  cases outcome : b.build.outcome with
  | error e => rw [builder_of_failed outcome]
  | ok d => rw [builder_of_built outcome]

theorem catalog_step (s : Session) (r : Request) :
    (s.step r).1.builder.catalog = s.builder.catalog ++ (r.release?.map Release.listed).toList := by
  cases r with
  | setTopology word =>
    cases chosen : Topology.ofWord? word <;> simp [step, setTopology, chosen, accept, Request.release?]
  | build => exact catalog_build.trans (List.append_nil _).symm
  | addRelease r => rfl
  | _ => exact (List.append_nil _).symm

/-- The catalog holds the releases in the order they were added. -/
theorem catalog_after (s : Session) (requests : List Request) :
    (s.after requests).builder.catalog = s.builder.catalog ++ (requests.filterMap Request.release?).map Release.listed := by
  induction requests using List.reverseRecOn with
  | nil => exact (List.append_nil _).symm
  | append_singleton requests r ih =>
    rw [after_concat, catalog_step, ih, List.filterMap_append, List.map_append, List.append_assoc]
    cases release : r.release? <;> simp [release]

/-- Only a build uses a builder up or hands out a document. -/
theorem kept_step (ne : r ≠ .build) (s : Session) :
    (s.step r).1.builder.consumed = s.builder.consumed ∧ (s.step r).1.built = s.built := by
  cases r with
  | setTopology word =>
    cases chosen : Topology.ofWord? word <;> simp [step, setTopology, chosen, accept]
  | build => contradiction
  | _ => exact ⟨rfl, rfl⟩

theorem step_build_of_failed {e : BuildError} (failed : s.builder.build.outcome = .error e) :
    s.step .build = (s, .attempted (.error e) s.builder.build.log) := by
  simp only [step, failed, builder_of_failed failed, Except.toOption, Option.toList_none, List.append_nil]

theorem step_build_of_built {d : Document} (built : s.builder.build.outcome = .ok d) :
    s.step .build = ({ builder := { s.builder with consumed := true }, built := s.built ++ [d] },
      .attempted (.ok d) s.builder.build.log) := by
  simp only [step, built, builder_of_built built, Except.toOption, Option.toList_some]

/-- A builder is used up just when a document was handed out. -/
def Honest (s : Session) : Prop :=
  s.builder.consumed = !s.built.isEmpty

theorem Honest.step (honest : s.Honest) (r : Request) : (s.step r).1.Honest := by
  by_cases build : r = .build
  · subst build
    cases outcome : s.builder.build.outcome with
    | error e => rwa [step_build_of_failed outcome]
    | ok d =>
      rw [step_build_of_built outcome]
      simp [Honest]
  · obtain ⟨consumed, built⟩ := kept_step build s
    rwa [Honest, consumed, built]

theorem Honest.after (honest : s.Honest) (requests : List Request) : (s.after requests).Honest := by
  induction requests using List.reverseRecOn with
  | nil => exact honest
  | append_singleton requests r ih =>
    rw [after_concat]
    exact ih.step r

theorem honest_fresh : fresh.Honest := rfl

/-- A builder that is used up hands out nothing more, whatever is asked of it. -/
theorem step_of_consumed (consumed : s.builder.consumed = true) (r : Request) :
    (s.step r).1.builder.consumed = true ∧ (s.step r).1.built = s.built := by
  by_cases build : r = .build
  · subst build
    rw [step_build_of_failed (by rw [build_of_consumed consumed])]
    exact ⟨consumed, rfl⟩
  · exact (kept_step build s).imp_left fun same => same.trans consumed

theorem after_of_consumed (consumed : s.builder.consumed = true) (requests : List Request) :
    (s.after requests).builder.consumed = true ∧ (s.after requests).built = s.built := by
  induction requests using List.reverseRecOn with
  | nil => exact ⟨consumed, rfl⟩
  | append_singleton requests r ih =>
    obtain ⟨still, same⟩ := step_of_consumed ih.1 r
    rw [after_concat]
    exact ⟨still, same.trans ih.2⟩

theorem built_after_of_condenses (condenses : Request.Condenses requests short) : (fresh.after short).built = [] := by
  have silent : ∀ r ∈ short, r ≠ .build := fun r member => by
    rintro rfl
    simpa [Request.setting?, Request.release?] using condenses.only .build member
  clear condenses
  induction short using List.reverseRecOn with
  | nil => rfl
  | append_singleton short r ih =>
    obtain ⟨earlier, last⟩ := List.forall_mem_append.mp silent
    rw [after_concat, (kept_step (last r (List.mem_singleton_self _)) _).2]
    exact ih earlier

/-- As long as nothing was built, only the last values and the releases matter. -/
theorem builder_after_of_condenses (unbuilt : (fresh.after requests).built = [])
    (condenses : Request.Condenses requests short) : (fresh.after short).builder = (fresh.after requests).builder := by
  refine eq_of_value_eq (fun setting => ?_) ?_ ?_
  · have last : ((requests.filter (Request.sets setting)).getLast?.toList).getLast? =
        (requests.filter (Request.sets setting)).getLast? := by
      cases (requests.filter (Request.sets setting)).getLast? <;> rfl
    rw [value_after, value_after, condenses.settings, last]
  · rw [catalog_after, catalog_after, condenses.releases]
  · have consumed : ∀ requests, (fresh.after requests).built = [] → (fresh.after requests).builder.consumed = false :=
      fun requests unbuilt => by
        rw [(honest_fresh.after requests : _ = _), unbuilt]
        rfl
    rw [consumed _ unbuilt, consumed _ (built_after_of_condenses condenses)]

theorem after_append (s : Session) (requests later : List Request) :
    s.after (requests ++ later) = (s.after requests).after later :=
  List.foldl_append

/-- A builder hands out one document. Builds that fail before leave everything as it was, the document is the one
that a builder gives that was told only the last values and the releases, and builds are refused from then on. -/
theorem single_use (before : List Request) (unbuilt : (fresh.after before).built = []) :
    (∃ short, Request.Condenses before short) ∧
    ((∃ e log, (fresh.after before).step .build = (fresh.after before, .attempted (.error e) log)) ∨
      ∃ d log, ((fresh.after before).step .build).2 = .attempted (.ok d) log ∧
        (∀ short, Request.Condenses before short →
          ((fresh.after short).step .build).2 = .attempted (.ok d) log) ∧
        ∀ between, (fresh.after (before ++ .build :: between)).built = [d] ∧
          (fresh.after (before ++ .build :: between)).step .build =
            (fresh.after (before ++ .build :: between), .attempted (.error .consumed) [])) := by
  refine ⟨⟨_, Request.condenses_condense before⟩, ?_⟩
  cases outcome : (fresh.after before).builder.build.outcome with
  | error e => exact .inl ⟨e, _, step_build_of_failed outcome⟩
  | ok d =>
    refine .inr ⟨d, (fresh.after before).builder.build.log, ?_, fun short condenses => ?_, fun between => ?_⟩
    · rw [step_build_of_built outcome]
    · have same := builder_after_of_condenses unbuilt condenses
      rw [← same] at outcome
      rw [step_build_of_built outcome, same]
    · have used : ((fresh.after before).step .build).1.builder.consumed = true ∧
          ((fresh.after before).step .build).1.built = [d] := by
        rw [step_build_of_built outcome, unbuilt]
        exact ⟨rfl, rfl⟩
      have split : fresh.after (before ++ .build :: between) = ((fresh.after before).step .build).1.after between :=
        after_append _ _ _
      obtain ⟨consumed, same⟩ := after_of_consumed used.1 between
      rw [split]
      refine ⟨same.trans used.2, ?_⟩
      have refused := build_of_consumed consumed
      rw [step_build_of_failed (e := .consumed) (by rw [refused]), refused]

/-- Two builds fail, for want of an enabler and because the enabler refuses, and a topology is rejected. -/
def hesitant : List Request :=
  [.setName "b", .build, .setTopology "Sharded", .setEnabler (.refusing "no"), .addRelease { name := "4.4.0" }, .build,
    .setName "a", .isTlsEnabled, .setEnabler .unchanged]

theorem build_hesitant : ∃ d, (fresh.after hesitant).builder.build.outcome = .ok d := by
  obtain ⟨before, written⟩ : ∃ text, Document.canonical {} = .ok text := Document.exists_canonical (by decide)
  exact exists_build rfl rfl rfl rfl written (by simp [Auth.baseline])

theorem condenses_hesitant :
    Request.Condenses hesitant [.addRelease { name := "4.4.0" }, .setEnabler .unchanged, .setName "a"] where
  settings setting := by cases setting <;> rfl
  releases := rfl
  only r member := by
    simp only [List.mem_cons, List.not_mem_nil, or_false] at member
    rcases member with rfl | rfl | rfl <;> simp [Request.setting?, Request.release?]

theorem single_use_hesitant : (fresh.after hesitant).built = [] ∧
    ∃ d log, ((fresh.after hesitant).step .build).2 = .attempted (.ok d) log ∧
      ((fresh.after [.addRelease { name := "4.4.0" }, .setEnabler .unchanged, .setName "a"]).step .build).2 =
        .attempted (.ok d) log ∧
      (fresh.after (hesitant ++ [.build, .setName "c"])).built = [d] ∧
      ((fresh.after (hesitant ++ [.build, .setName "c"])).step .build).2 = .attempted (.error .consumed) [] := by
  have unbuilt : (fresh.after hesitant).built = [] := rfl
  obtain ⟨-, ⟨e, log, failed⟩ | ⟨d, log, built, again, refused⟩⟩ := single_use hesitant unbuilt
  · obtain ⟨d, built⟩ := build_hesitant
    rw [step_build_of_built built] at failed
    simp at failed
  · obtain ⟨same, next⟩ := refused [.setName "c"]
    exact ⟨unbuilt, d, log, built, again _ condenses_hesitant, same, congrArg Prod.snd next⟩

end Session
end Builder
end AgentConfig
