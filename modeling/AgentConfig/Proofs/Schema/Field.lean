import AgentConfig.Proofs.Schema.Respelled

namespace AgentConfig

/-- A field of a record with what stands in it. -/
structure Field : Type 1 where
  Carrier : Type
  label : Label
  shape : Shape Carrier
  fallback : Option Carrier
  value : Carrier

def Fields.filled : {ρ : Type} → Fields ρ → ρ → List Field
  | _, .nil, _ => []
  | _, .cons label shape fallback rest, (a, r) => ⟨_, label, shape, fallback, a⟩ :: rest.filled r

/-- The fields of a record in order, with what stands in them. -/
def Shape.filled : {α : Type} → Shape α → α → List Field
  | _, .record _ fields parts, a => fields.filled (parts.split a)
  | _, _, _ => []

namespace Field

/-- The value in a field comes from its entry, or is the usual one if the field has no entry. -/
def ComesFrom (source : Source) (entries : List (Value × Value)) (field : Field) : Prop :=
  match field.label.find? entries with
  | some (_, v) => field.shape.read source v = .ok field.value
  | none => field.fallback = some field.value

/-- The field is left out of a written record, as nothing stands in it. -/
def IsLeftOut (field : Field) (t : Tree) : Prop :=
  field.label.omitEmpty ∧ t.isEmpty

end Field

theorem Checked.within_eq_ok {α : Type} {step : Step} {result : Checked α} {a : α} :
    result.within step = .ok a ↔ result = .ok a := by
  cases result <;> simp [within]

theorem Checked.both_eq_ok {α β : Type} {first : Checked α} {second : Checked β} {a : α} {b : β} :
    first.both second = .ok (a, b) ↔ first = .ok a ∧ second = .ok b := by
  cases first <;> cases second <;> simp [both]

/-- A record is read just when every field gets its value. -/
theorem Fields.read_eq_ok_iff {source : Source} {entries : List (Value × Value)} :
    ∀ {ρ : Type} (fields : Fields ρ) {r : ρ},
      fields.read source entries = .ok r ↔ ∀ field ∈ fields.filled r, field.ComesFrom source entries
  | _, .nil, () => by simp [Fields.read, filled]
  | _, .cons label shape fallback rest, (a, r) => by
    rw [filled, List.forall_mem_cons, ← rest.read_eq_ok_iff, Field.ComesFrom]
    cases found : label.find? entries with
    | some entry =>
      obtain ⟨key, v⟩ := entry
      simp only [Fields.read, found, Checked.both_eq_ok, Checked.within_eq_ok]
    | none => cases fallback <;> simp [Fields.read, found, Checked.both_eq_ok, Checked.fail, Checked.within]

/-- So is data that is a record. -/
theorem Shape.read_map_eq_ok {α ρ : Type} {title : String} {fields : Fields ρ} {parts : Parts α ρ} {source : Source}
    {entries : List (Value × Value)} {a : α} : (Shape.record title fields parts).read source (.map entries) = .ok a ↔
      ∀ field ∈ (Shape.record title fields parts).filled a, field.ComesFrom source entries := by
  rw [Shape.read, filled, ← fields.read_eq_ok_iff]
  constructor
  · intro read
    obtain ⟨r, all, rfl⟩ := map_eq_ok read
    rw [all, parts.split_join]
  · intro all
    rw [all]
    exact congrArg Except.ok (parts.join_split a)

theorem Fields.label_mem {ρ : Type} : ∀ (fields : Fields ρ) {r : ρ} {field : Field}, field ∈ fields.filled r →
    field.label ∈ fields.labels
  | .cons label shape fallback rest, (a, r), field, member => by
    rcases List.mem_cons.mp member with rfl | later
    · exact List.mem_cons_self
    · exact List.mem_cons_of_mem _ (rest.label_mem later)

/-- What is written for a field stands under its key, unless the field is left out. -/
theorem Fields.exists_write {naming : Naming} : ∀ {ρ : Type} (fields : Fields ρ), fields.Sound →
    ∀ {r : ρ} {entries : List (String × Tree)}, fields.write naming r = some entries → ∀ field ∈ fields.filled r,
      ∃ t, field.shape.write naming field.value = some t ∧
        (¬ field.IsLeftOut t → Tree.last? (field.label.key naming) entries = some t)
  | _, .cons label shape fallback rest, isSound, (a, r), entries, written, field, member => by
    obtain ⟨apart, -, -, sounds⟩ := isSound
    obtain ⟨t, others, first, remaining, rfl⟩ := Fields.write_cons written
    rcases List.mem_cons.mp member with rfl | later
    · refine ⟨t, first, fun present => ?_⟩
      have absent : ∀ entry ∈ others, entry.1 ≠ label.key naming := fun entry among => by
        obtain ⟨other, labels, key⟩ := rest.key_of_write remaining entry among
        rw [key]
        exact ((apart other labels).key_ne naming).symm
      rw [if_neg (by simpa [Field.IsLeftOut] using present), Tree.last?_cons, Tree.last?_eq_none absent]
      simp
    · obtain ⟨u, behind, stands⟩ := rest.exists_write sounds remaining field later
      refine ⟨u, behind, fun present => ?_⟩
      have other : label.key naming ≠ field.label.key naming := (apart _ (rest.label_mem later)).key_ne naming
      split_ifs with empty
      · exact stands present
      · rw [Tree.last?_cons_ne other, stands present]

namespace Tree

/-- What stands in a record at the end of a way of keys. -/
def at? : Tree → List String → Option Tree
  | t, [] => some t
  | .record entries, key :: rest => (last? key entries).bind (at? · rest)
  | _, _ :: _ => none

theorem at?_cons {t u : Tree} {key : String} (stands : t.at? [key] = some u) (rest : List String) :
    t.at? (key :: rest) = u.at? rest := by
  cases t with
  | record entries =>
    obtain ⟨v, found, same⟩ := Option.bind_eq_some_iff.mp stands
    obtain rfl := Option.some.inj same
    rw [at?, found]
    rfl
  | _ => contradiction

end Tree

/-- What is written for a field of a record stands under its key, unless the field is left out. -/
theorem Shape.exists_at? {α : Type} {whole : Shape α} (sound : whole.Sound) {naming : Naming} {a : α} {t : Tree}
    (written : whole.write naming a = some t) {field : Field} (member : field ∈ whole.filled a) :
    ∃ u, field.shape.write naming field.value = some u ∧
      (¬ field.IsLeftOut u → t.at? [field.label.key naming] = some u) := by
  cases whole with
  | record title fields parts =>
    obtain ⟨entries, all, rfl⟩ := Option.map_eq_some_iff.mp written
    obtain ⟨u, inside, stands⟩ := fields.exists_write sound all field member
    refine ⟨u, inside, fun present => ?_⟩
    rw [Tree.at?, stands present]
    rfl
  | _ => exact absurd member List.not_mem_nil

/-- A field that is always written stands under its key. -/
theorem Shape.at?_kept {α : Type} {whole : Shape α} (sound : whole.Sound) {naming : Naming} {a : α} {t : Tree}
    (written : whole.write naming a = some t) {field : Field} (member : field ∈ whole.filled a)
    (kept : field.label.omitEmpty = false) : t.at? [field.label.key naming] = field.shape.write naming field.value := by
  obtain ⟨u, inside, stands⟩ := exists_at? sound written member
  rw [inside, stands fun left => Bool.false_ne_true (kept.symm.trans left.1)]

/-- What is written for a field of a record without numbers that may be infinite is read back. -/
theorem Fields.read_filled (source : Source) {naming : Naming} : ∀ {ρ : Type} (fields : Fields ρ), fields.Sound →
    .float ∉ fields.kinds → ∀ {r : ρ}, ∀ field ∈ fields.filled r, ∀ {t : Tree},
      field.shape.write naming field.value = some t → field.shape.read source (.ofTree t) = .ok field.value
  | _, .nil, _, _, (), field, member, _, _ => absurd member List.not_mem_nil
  | _, .cons label shape fallback rest, isSound, finite, (a, r), field, member, t, written => by
    obtain ⟨-, -, sound, sounds⟩ := isSound
    obtain ⟨first, others⟩ := List.mem_append.not.mp finite |> not_or.mp
    rcases List.mem_cons.mp member with rfl | later
    · rcases shape.read_write source sound written with ⟨-, read⟩ | ⟨infinite, -⟩
      · exact read
      · exact absurd (shape.meets_finite first a) infinite
    · exact rest.read_filled source sounds others field later written

theorem Shape.read_filled (source : Source) {α : Type} {whole : Shape α} (sound : whole.Sound)
    (finite : .float ∉ whole.kinds) {a : α} {field : Field} (member : field ∈ whole.filled a) {naming : Naming}
    {t : Tree} (written : field.shape.write naming field.value = some t) :
    field.shape.read source (.ofTree t) = .ok field.value := by
  cases whole with
  | record title fields parts => exact fields.read_filled source sound finite field member written
  | _ => exact absurd member List.not_mem_nil

end AgentConfig
