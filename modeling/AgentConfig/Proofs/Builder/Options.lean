import AgentConfig.Proofs.Builder.Failure

namespace AgentConfig

namespace ServerOption

/-- The version of an option about compatibility. -/
def compatibility? : ServerOption → Option String
  | compatibility version => some version
  | tls .. => none

/-- The encryption that an option asks for, if its word is a mode. -/
def encryption? : ServerOption → Option ServerTls
  | compatibility _ => none
  | tls caFile keyFile word =>
    (TlsMode.choices.all.find? (·.word = word)).map fun mode =>
      { mode, caFile, keyFile, allowWithoutCertificates := true }

/-- The option asks for a mode of encryption that does not exist. -/
def IsMistaken : ServerOption → Prop
  | compatibility _ => False
  | tls _ _ word => ∀ mode : TlsMode, mode.word ≠ word

/-- Both options are about compatibility, or both about encryption. -/
def SameKind : ServerOption → ServerOption → Prop
  | compatibility _, compatibility _ => True
  | tls .., tls .. => True
  | _, _ => False

/-- What the last option says that says anything. -/
def last {β : Type} (pick : ServerOption → Option β) (options : List ServerOption) : Option β :=
  (options.filterMap pick).getLast?

variable {β : Type} {pick : ServerOption → Option β} {option option' : ServerOption} {caFile keyFile word : String}
  {found : ServerTls}

theorem isMistaken_iff : (tls caFile keyFile word).IsMistaken ↔ (tls caFile keyFile word).encryption? = none := by
  rw [encryption?, Option.map_eq_none_iff, List.find?_eq_none]
  simp only [decide_eq_true_eq]
  exact ⟨fun unknown mode _ => unknown mode, fun unknown mode => unknown mode (TlsMode.choices.mem_all mode)⟩

theorem encryption?_eq_some (asked : (tls caFile keyFile word).encryption? = some found) : found.mode.word = word ∧
    found = { mode := found.mode, caFile, keyFile, allowWithoutCertificates := true } := by
  obtain ⟨mode, known, rfl⟩ := Option.map_eq_some_iff.mp asked
  exact ⟨by simpa using List.find?_some known, rfl⟩

/-- A later option that says anything hides all before it. -/
theorem last_append (options later : List ServerOption) :
    last pick (options ++ later) = (last pick later).or (last pick options) := by
  rw [last, List.filterMap_append, List.getLast?_append]
  rfl

theorem last_cons (option : ServerOption) (later : List ServerOption) :
    last pick (option :: later) = (last pick later).or (pick option) := by
  rw [← List.singleton_append, last_append]
  congr 1
  cases said : pick option <;> simp [last, said]

end ServerOption

namespace Server

open ServerOption

variable {p : Server} {option option' : ServerOption} {options options' : List ServerOption} {e : Invalid}

/-- The server with a choice about its compatibility and one about its encryption. -/
def choosing (p : Server) (compatibility : String) (tls : Option ServerTls) : Server :=
  { p with
    compatibility
    arguments := { p.arguments with network := { p.arguments.network with tls } } }

/-- An option without a mistake decides about one thing and keeps the other. -/
theorem apply_of_valid (valid : ¬ option.IsMistaken) : p.apply option =
    .ok (p.choosing (option.compatibility?.getD p.compatibility) (option.encryption?.or p.arguments.network.tls)) := by
  cases option with
  | compatibility version => rfl
  | tls caFile keyFile word =>
    obtain ⟨tls, asked⟩ := Option.ne_none_iff_exists'.mp (isMistaken_iff.not.mp valid)
    obtain ⟨same, whole⟩ := encryption?_eq_some asked
    have read : TlsMode.choices.read (.text tls.mode.word) = .ok tls.mode := TlsMode.choices.read_word tls.mode
    rw [same] at read
    rw [asked, Option.some_or, whole]
    simp only [apply, read]
    rfl

/-- An option with a mistake is refused whatever the server. -/
theorem apply_of_mistaken (mistaken : option.IsMistaken) : p.apply option = .error Builder.noMode := by
  cases option with
  | compatibility version => exact absurd mistaken id
  | tls caFile keyFile word =>
    cases read : TlsMode.choices.read (.text word) with
    | ok mode => exact absurd (TlsMode.choices.word_of_read read) (mistaken mode)
    | error problems =>
      obtain ⟨-, rfl⟩ := Builder.read_mode_eq_error read
      simp only [apply, read]
      rfl

theorem applyAll_cons (p : Server) (option : ServerOption) (rest : List ServerOption) :
    p.applyAll (option :: rest) = p.apply option >>= (·.applyAll rest) :=
  rfl

/-- Of options without a mistake the last of each kind decides. -/
theorem applyAll_of_valid (valid : ∀ option ∈ options, ¬ option.IsMistaken) : p.applyAll options =
    .ok (p.choosing ((last compatibility? options).getD p.compatibility)
      ((last encryption? options).or p.arguments.network.tls)) := by
  induction options generalizing p with
  | nil => rfl
  | cons option rest ih =>
    obtain ⟨first, others⟩ := List.forall_mem_cons.mp valid
    rw [applyAll_cons, apply_of_valid first]
    change applyAll _ rest = _
    rw [ih others, last_cons, last_cons, Option.or_assoc]
    -- Only an option about compatibility after the first one hides what the first one says.
    cases last compatibility? rest <;> rfl

/-- A mistake is never made good by the options before or after it. -/
theorem applyAll_of_mistaken (mistaken : ∃ option ∈ options, option.IsMistaken) :
    p.applyAll options = .error Builder.noMode := by
  induction options generalizing p with
  | nil => simp at mistaken
  | cons option rest ih =>
    rw [applyAll_cons]
    by_cases first : option.IsMistaken
    · rw [apply_of_mistaken first]
      rfl
    · rw [apply_of_valid first]
      refine ih ?_
      simpa [first] using mistaken

/-- Options with a mistake among both, or with the same last choices, come to the same. -/
theorem applyAll_congr (mistakes : (∃ option ∈ options, option.IsMistaken) ↔ ∃ option ∈ options', option.IsMistaken)
    (compatibility : (∀ option ∈ options, ¬ option.IsMistaken) → last compatibility? options = last compatibility? options')
    (encryption : (∀ option ∈ options, ¬ option.IsMistaken) → last encryption? options = last encryption? options') :
    p.applyAll options = p.applyAll options' := by
  by_cases mistaken : ∃ option ∈ options, option.IsMistaken
  · rw [applyAll_of_mistaken mistaken, applyAll_of_mistaken (mistakes.mp mistaken)]
  · have valid : ∀ option ∈ options, ¬ option.IsMistaken := by simpa using mistaken
    have valid' : ∀ option ∈ options', ¬ option.IsMistaken := by simpa using mistakes.not.mp mistaken
    rw [applyAll_of_valid valid, applyAll_of_valid valid', compatibility valid, encryption valid]

/-- The order of options of different kinds does not matter. -/
theorem applyAll_swap (before after : List ServerOption) (apart : ¬ option.SameKind option') :
    p.applyAll (before ++ option :: option' :: after) = p.applyAll (before ++ option' :: option :: after) := by
  have swap {β : Type} {pick : ServerOption → Option β} (silent : pick option = none ∨ pick option' = none) :
      last pick (before ++ option :: option' :: after) = last pick (before ++ option' :: option :: after) := by
    simp only [last_append, last_cons, Option.or_assoc]
    rcases silent with silent | silent <;> simp [silent]
  refine applyAll_congr ?_ (fun _ => swap ?_) (fun _ => swap ?_)
  · simp [or_left_comm]
  · cases option <;> cases option' <;> simp_all [SameKind, compatibility?]
  · cases option <;> cases option' <;> simp_all [SameKind, encryption?]

/-- An option without a mistake does not matter in front of another one of its kind. -/
theorem applyAll_overridden (before between after : List ServerOption) (valid : ¬ option.IsMistaken)
    (same : option.SameKind option') : p.applyAll (before ++ option :: between ++ option' :: after) =
      p.applyAll (before ++ between ++ option' :: after) := by
  have hidden {β : Type} {pick : ServerOption → Option β} (hides : pick option = none ∨ ∃ b, pick option' = some b) :
      last pick (before ++ option :: between ++ option' :: after) = last pick (before ++ between ++ option' :: after) := by
    simp only [last_append, last_cons, Option.or_assoc]
    rcases hides with silent | ⟨b, said⟩
    · simp [silent]
    · simp [said]
  refine applyAll_congr ?_ (fun _ => hidden ?_) (fun clean => hidden ?_)
  · simp [or_and_right, exists_or, valid]
  · cases option <;> cases option' <;> simp_all [SameKind, compatibility?]
  · have valid' : ¬ option'.IsMistaken := clean option' (by simp)
    cases option with
    | compatibility version => exact .inl rfl
    | tls caFile keyFile word =>
      cases option' with
      | compatibility version => exact absurd same id
      | tls caFile' keyFile' word' => exact .inr (Option.ne_none_iff_exists'.mp (isMistaken_iff.not.mp valid'))

/-- A server is made just when no option is mistaken, not even one that is overridden. Then the last option of each kind
decides, and everything else is as without options: options of different kinds may change places, and overridden ones
may be left out. -/
theorem last_option_decides (name hostname version replicaSet : String) (options : List ServerOption) :
    let made := create name hostname version replicaSet
    (∀ e, made options = .error e ↔ (∃ option ∈ options, option.IsMistaken) ∧ e = Builder.noMode) ∧
    (∃ plain, made [] = .ok plain ∧ ((∀ option ∈ options, ¬ option.IsMistaken) → made options = .ok { plain with
      compatibility := (last compatibility? options).getD ""
      arguments := { plain.arguments with
        network := { plain.arguments.network with tls := last encryption? options } } })) ∧
    (∀ before after version' caFile keyFile mode,
      made (before ++ .compatibility version' :: .tls caFile keyFile mode :: after) =
        made (before ++ .tls caFile keyFile mode :: .compatibility version' :: after)) ∧
    ∀ before option between option' after, ¬ option.IsMistaken → option.SameKind option' →
      made (before ++ option :: between ++ option' :: after) = made (before ++ between ++ option' :: after) := by
  intro made
  refine ⟨fun e => ?_, ⟨base name hostname version replicaSet, rfl, fun valid => ?_⟩,
    fun before after version' caFile keyFile mode => applyAll_swap before after id,
    fun before option between option' after => applyAll_overridden before between after⟩
  · by_cases mistaken : ∃ option ∈ options, option.IsMistaken
    · simp only [made, create, applyAll_of_mistaken mistaken, mistaken, true_and, Except.error.injEq, eq_comm]
    · have valid : ∀ option ∈ options, ¬ option.IsMistaken := by simpa using mistaken
      simp [made, create, applyAll_of_valid valid, mistaken]
  · have chosen := applyAll_of_valid (p := base name hostname version replicaSet) valid
    rwa [show (base name hostname version replicaSet).arguments.network.tls = none from rfl, Option.or_none] at chosen

/-- Options that take back what was chosen, once with a word that is no mode. -/
def wavering (word : String) : List ServerOption :=
  [.tls "/old" "/old" word, .compatibility "4.0", .tls "/ca" "/pem" "requireSSL", .compatibility "4.4"]

theorem last_option_decides_wavering :
    ((∃ option ∈ wavering "always", option.IsMistaken) ∧
      create "rs-0" "rs-0.d" "4.4.0" "rs" (wavering "always") = .error Builder.noMode) ∧
    (∀ option ∈ wavering "allowSSL", ¬ option.IsMistaken) ∧
    ∃ plain, create "rs-0" "rs-0.d" "4.4.0" "rs" [] = .ok plain ∧
      create "rs-0" "rs-0.d" "4.4.0" "rs" (wavering "allowSSL") = .ok { plain with
        compatibility := "4.4"
        arguments := { plain.arguments with network := { plain.arguments.network with
          tls := some { mode := .require, caFile := "/ca", keyFile := "/pem", allowWithoutCertificates := true } } } } ∧
      create "rs-0" "rs-0.d" "4.4.0" "rs" (wavering "allowSSL") =
        create "rs-0" "rs-0.d" "4.4.0" "rs" (wavering "allowSSL").tail := by
  have mistaken : ∃ option ∈ wavering "always", option.IsMistaken :=
    ⟨_, List.mem_cons_self, fun mode => by cases mode <;> decide⟩
  have valid : ∀ option ∈ wavering "allowSSL", ¬ option.IsMistaken := by
    simp only [wavering, List.forall_mem_cons]
    exact ⟨fun unknown => unknown .allow rfl, id, fun unknown => unknown .require rfl, id, by simp⟩
  obtain ⟨refused, -⟩ := last_option_decides "rs-0" "rs-0.d" "4.4.0" "rs" (wavering "always")
  obtain ⟨-, ⟨plain, without, made⟩, -, overridden⟩ := last_option_decides "rs-0" "rs-0.d" "4.4.0" "rs" (wavering "allowSSL")
  have first : ¬ (ServerOption.tls "/old" "/old" "allowSSL").IsMistaken := valid _ List.mem_cons_self
  exact ⟨⟨mistaken, (refused _).mpr ⟨mistaken, rfl⟩⟩, valid, plain, without, made valid,
    overridden [] (.tls "/old" "/old" "allowSSL") [.compatibility "4.0"] (.tls "/ca" "/pem" "requireSSL")
      [.compatibility "4.4"] first trivial⟩

end Server
end AgentConfig
