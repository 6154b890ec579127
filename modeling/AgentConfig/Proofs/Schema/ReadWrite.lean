import AgentConfig.Proofs.Schema.Sound

namespace AgentConfig

theorem lookup_ofEntries_eq_none {key : String} {entries : List (String × Tree)}
    (absent : ∀ entry ∈ entries, entry.1 ≠ key) : Value.lookup key (Value.ofEntries entries) = none := by
  induction entries with
  | nil => rfl
  | cons entry entries ih =>
    obtain ⟨k, t⟩ := entry
    obtain ⟨other, others⟩ := List.forall_mem_cons.mp absent
    simp [Value.ofEntries, Value.lookup, ih others, other]

theorem lookup_ofEntries_cons {key : String} {t : Tree} {entries : List (String × Tree)}
    (absent : ∀ entry ∈ entries, entry.1 ≠ key) :
    Value.lookup key (Value.ofEntries ((key, t) :: entries)) = some (.ofTree t) := by
  simp [Value.ofEntries, Value.lookup, lookup_ofEntries_eq_none absent]

theorem lookup_ofEntries_skip {key other : String} (ne : key ≠ other) (t : Tree) (entries : List (String × Tree)) :
    Value.lookup key (Value.ofEntries ((other, t) :: entries)) = Value.lookup key (Value.ofEntries entries) := by
  simp only [Value.ofEntries, Value.lookup, ne.symm, if_false]
  cases Value.lookup key (Value.ofEntries entries) <;> rfl

namespace Label

variable {label : Label} {naming : Naming} {entries : List (String × Tree)}

theorem find?_eq_none (name : ∀ entry ∈ entries, entry.1 ≠ label.name)
    (documentName : ∀ entry ∈ entries, entry.1 ≠ label.documentName) :
    label.find? (Value.ofEntries entries) = none := by
  simp [find?, lookup_ofEntries_eq_none name, lookup_ofEntries_eq_none documentName]

theorem find?_cons (naming : Naming) (name : ∀ entry ∈ entries, entry.1 ≠ label.name)
    (documentName : ∀ entry ∈ entries, entry.1 ≠ label.documentName) (t : Tree) :
    ∃ key, label.find? (Value.ofEntries ((label.key naming, t) :: entries)) = some (key, .ofTree t) := by
  cases naming with
  | document => exact ⟨label.documentName, by simp [find?, key, lookup_ofEntries_cons documentName]⟩
  | program =>
    by_cases same : label.documentName = label.name
    · exact ⟨label.documentName, by simp [find?, key, ← same, lookup_ofEntries_cons documentName]⟩
    · exact ⟨label.name, by
        simp [find?, key, lookup_ofEntries_skip same, lookup_ofEntries_eq_none documentName,
          lookup_ofEntries_cons name]⟩

theorem find?_skip {other : Label} (apart : label.Apart other) (t : Tree) :
    label.find? (Value.ofEntries ((other.key naming, t) :: entries)) = label.find? (Value.ofEntries entries) := by
  rw [find?, lookup_ofEntries_skip (apart.documentName_ne naming), lookup_ofEntries_skip (apart.name_ne naming)]
  rfl

end Label

/-- Entries are written under the keys of their fields. -/
theorem Fields.key_of_write {naming : Naming} : ∀ {ρ : Type} (fields : Fields ρ) {r : ρ} {entries : List (String × Tree)},
    fields.write naming r = some entries → ∀ entry ∈ entries, ∃ label ∈ fields.labels, entry.1 = label.key naming
  | _, .nil, _, entries, written, entry, member => by
    obtain rfl : [] = entries := Option.some.inj written
    simp at member
  | _, .cons label shape fallback rest, (a, r), entries, written, entry, member => by
    obtain ⟨t, others, _, remaining, rfl⟩ := Fields.write_cons written
    have later : entry ∈ others → ∃ label' ∈ (Fields.cons label shape fallback rest).labels,
        entry.1 = label'.key naming := fun inOthers => by
      obtain ⟨label', among, key⟩ := rest.key_of_write remaining entry inOthers
      exact ⟨label', List.mem_cons_of_mem _ among, key⟩
    split_ifs at member with empty
    · exact later member
    · rcases List.mem_cons.mp member with rfl | member
      · exact ⟨label, List.mem_cons_self .., rfl⟩
      · exact later member

/-- The data come back if they are finite, and are refused otherwise. -/
def Returns {α : Type} (finite : Prop) (result : Checked α) (a : α) : Prop :=
  finite ∧ result = .ok a ∨ ¬ finite ∧ ∃ problems, result = .error problems

namespace Returns

variable {α β : Type} {p q : Prop} {result : Checked α} {a : α}

theorem ok (holds : p) : Returns p (.ok a) a :=
  .inl ⟨holds, rfl⟩

theorem map (f : α → β) (returns : Returns p result a) : Returns p (result.map f) (f a) := by
  rcases returns with ⟨holds, rfl⟩ | ⟨fails, problems, rfl⟩
  · exact .inl ⟨holds, rfl⟩
  · exact .inr ⟨fails, problems, rfl⟩

theorem within (step : Step) (returns : Returns p result a) : Returns p (result.within step) a := by
  rcases returns with ⟨holds, rfl⟩ | ⟨fails, problems, rfl⟩
  · exact .inl ⟨holds, rfl⟩
  · exact .inr ⟨fails, _, rfl⟩

theorem both {other : Checked β} {b : β} (first : Returns p result a) (second : Returns q other b) :
    Returns (p ∧ q) (result.both other) (a, b) := by
  rcases first with ⟨holds, rfl⟩ | ⟨fails, problems, rfl⟩
  · rcases second with ⟨holds', rfl⟩ | ⟨fails, problems, rfl⟩
    · exact .inl ⟨⟨holds, holds'⟩, rfl⟩
    · exact .inr ⟨fun ⟨_, holds'⟩ => fails holds', problems, rfl⟩
  · refine .inr ⟨fun ⟨holds, _⟩ => fails holds, ?_⟩
    cases other <;> exact ⟨_, rfl⟩

theorem imp (returns : Returns p result a) (same : p ↔ q) : Returns q result a := by
  rwa [Returns, ← same]

end Returns

theorem Choices.read_text {α : Type} (choices : Choices α) (s : String) : choices.read (.text s) =
    match choices.all.find? (choices.word · == s) with
    | some a => .ok a
    | none => .fail (.choice (choices.all.map choices.word)) :=
  rfl

theorem Choices.read_word {α : Type} (choices : Choices α) (a : α) : choices.read (.text (choices.word a)) = .ok a := by
  have found : choices.all.find? (choices.word · == choices.word a) = some a := by
    obtain ⟨b, found⟩ : ∃ b, choices.all.find? (choices.word · == choices.word a) = some b :=
      Option.isSome_iff_exists.mp (List.find?_isSome.mpr ⟨a, choices.mem_all a, beq_self_eq_true _⟩)
    have same := List.find?_some found
    rw [found, choices.word_injective b a (beq_iff_eq.mp same)]
  rw [Choices.read_text, found]

theorem items_returns {α : Type} {item : Shape α} {naming : Naming} {read : Value → Checked α}
    (each : ∀ {a : α} {t : Tree}, item.write naming a = some t → Returns (item.Meets .finite a) (read (.ofTree t)) a)
    {as : List α} {items : List Tree} (written : allSome (as.map (item.write naming)) = some items) (position : Nat) :
    Returns (∀ a ∈ as, item.Meets .finite a) (Checked.items read position (Value.ofTrees items)) as := by
  induction as generalizing items position with
  | nil =>
    obtain rfl : [] = items := Option.some.inj written
    exact .ok (by simp)
  | cons a as ih =>
    rw [List.map_cons] at written
    cases first : item.write naming a with
    | none => simp [first, allSome] at written
    | some t =>
      rw [first, allSome] at written
      obtain ⟨others, remaining, rfl⟩ := Option.map_eq_some_iff.mp written
      have pair := ((each first).within (.index position)).both (ih remaining (position + 1))
      have joined := (pair.map fun p => p.1 :: p.2).imp (q := ∀ b ∈ a :: as, item.Meets .finite b) (by simp)
      rw [Value.ofTrees, Checked.items]
      convert joined using 1
      cases ((read (Value.ofTree t)).within (.index position)).both
        (Checked.items read (position + 1) (Value.ofTrees others)) <;> rfl

mutual
/-- Written data are read back unless a number in them was not finite, which is then refused. -/
theorem Shape.read_write (source : Source) {naming : Naming} : ∀ {α : Type} (shape : Shape α), shape.Sound →
    ∀ {a : α} {t : Tree}, shape.write naming a = some t →
      Returns (shape.Meets .finite a) (shape.read source (.ofTree t)) a
  | _, .text _, _, _, _, written => by
    obtain rfl := Option.some.inj written
    exact .ok trivial
  | _, .secret, _, .text _, _, written => by
    obtain rfl := Option.some.inj written
    exact .ok trivial
  | _, .secret, _, .foreign, _, written => by simp [Shape.write] at written
  | _, .int, _, _, _, written => by
    obtain rfl := Option.some.inj written
    exact .ok trivial
  | _, .bool, _, _, _, written => by
    obtain rfl := Option.some.inj written
    exact .ok trivial
  | _, .float, _, x, _, written => by
    obtain rfl := Option.some.inj written
    by_cases finite : x.isFinite
    · rw [if_pos finite]
      exact .ok finite
    · rw [if_neg finite]
      exact .inr ⟨finite, _, rfl⟩
  | _, .choice choices, _, a, _, written => by
    obtain rfl := Option.some.inj written
    exact .inl ⟨trivial, choices.read_word a⟩
  | _, .nullable inner, sound, none, _, written => by
    obtain rfl := Option.some.inj written
    exact .ok (by simp [Shape.Meets])
  | _, .nullable inner, sound, some a, t, written => by
    have returns := ((inner.read_write source sound.2 written).map some).imp
      (q := (Shape.nullable inner).Meets .finite (some a)) (by simp [Shape.Meets])
    have value : Value.ofTree t ≠ .null := by
      have never : t ≠ .null := by
        rintro rfl
        exact sound.1 naming a written
      cases t <;> simp [Value.ofTree] at never ⊢
    convert returns using 1
    simp only [Shape.read]
  | _, .list item, sound, as, _, written => by
    obtain ⟨items, all, rfl⟩ := Option.map_eq_some_iff.mp written
    exact items_returns (fun each => item.read_write source sound each) all 0
  | _, .record _ fields parts, sound, a, _, written => by
    obtain ⟨entries, all, rfl⟩ := Option.map_eq_some_iff.mp written
    have returns := (fields.read_write source sound all fun _ _ => rfl).map parts.join
    rwa [parts.join_split] at returns

/-- The fields find their entries wherever their labels find what was written for them. -/
theorem Fields.read_write (source : Source) {naming : Naming} : ∀ {ρ : Type} (fields : Fields ρ), fields.Sound →
    ∀ {r : ρ} {entries : List (String × Tree)} {among : List (Value × Value)},
      fields.write naming r = some entries →
      (∀ label ∈ fields.labels, label.find? among = label.find? (Value.ofEntries entries)) →
      Returns (fields.Meets .finite r) (fields.read source among) r
  | _, .nil, _, (), _, _, _, _ => .ok trivial
  | _, .cons label shape fallback rest, isSound, (a, r), entries, among, written, finds => by
    obtain ⟨apart, restores, sound, sounds⟩ := isSound
    obtain ⟨t, others, first, remaining, rfl⟩ := Fields.write_cons written
    -- The other entries stand under keys of other fields, so this field finds its own entry or none.
    have foreignKeys : ∀ entry ∈ others, entry.1 ≠ label.name ∧ entry.1 ≠ label.documentName := fun entry member => by
      obtain ⟨other, labels, key⟩ := rest.key_of_write remaining entry member
      rw [key]
      exact ⟨((apart other labels).name_ne naming).symm, ((apart other labels).documentName_ne naming).symm⟩
    have found := finds label (List.mem_cons_self ..)
    have rests : ∀ other ∈ rest.labels, other.find? among = other.find? (Value.ofEntries others) := fun other member => by
      rw [finds other (List.mem_cons_of_mem _ member)]
      split_ifs
      · rfl
      · exact Label.find?_skip (apart other member).symm t
    have tail := rest.read_write source sounds remaining rests
    -- An entry that was left out is read as its default, which is what the field must restore.
    by_cases omitted : label.omitEmpty && t.isEmpty
    · rw [if_pos omitted, Label.find?_eq_none (fun entry member => (foreignKeys entry member).1)
        (fun entry member => (foreignKeys entry member).2)] at found
      obtain ⟨omit_, empty⟩ := Bool.and_eq_true_iff.mp omitted
      obtain ⟨rfl, finite⟩ := restores omit_ naming a t first empty
      simp only [Fields.read, found]
      exact (Returns.ok finite).both tail
    · rw [if_neg omitted] at found
      obtain ⟨key, find⟩ := Label.find?_cons naming (fun entry member => (foreignKeys entry member).1)
        (fun entry member => (foreignKeys entry member).2) t
      rw [find] at found
      simp only [Fields.read, found]
      exact ((shape.read_write source sound first).within (.key key)).both tail
end

end AgentConfig
