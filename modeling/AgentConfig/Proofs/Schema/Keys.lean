import AgentConfig.Proofs.Schema.Field

namespace AgentConfig

/-- The labels of the fields of a record, in order. -/
def Shape.labels : {α : Type} → Shape α → List Label
  | _, .record _ fields _ => fields.labels
  | _, _ => []

/-- Whether a value is null, the empty text or the empty list. -/
def Shape.isNothing : {α : Type} → Shape α → α → Bool
  | _, .text _, s => s.isEmpty
  | _, .secret, s => s == .text ""
  | _, .nullable inner, a =>
    match a with
    | none => true
    | some a => inner.isNothing a
  | _, .list _, as => as.isEmpty
  | _, _, _ => false

/-- Whether the field is one of those that are left out when empty, and is empty. -/
def Field.isDropped (field : Field) : Bool :=
  field.label.omitEmpty && field.shape.isNothing field.value

/-- The keys that a record ought to be written with: those of all its fields in order, but for the ones that are
dropped. -/
def Shape.declaredKeys {α : Type} (naming : Naming) (shape : Shape α) (a : α) : List String :=
  ((shape.filled a).filter (!·.isDropped)).map (·.label.key naming)

mutual
/-- Fields that are left out when empty are empty as long as nothing is given for them. -/
def Shape.emptyByDefault : {α : Type} → Shape α → Bool
  | _, .nullable inner => inner.emptyByDefault
  | _, .list item => item.emptyByDefault
  | _, .record _ fields _ => fields.emptyByDefault
  | _, _ => true

def Fields.emptyByDefault : {ρ : Type} → Fields ρ → Bool
  | _, .nil => true
  | _, .cons label shape fallback rest =>
    (!label.omitEmpty || fallback.any shape.isNothing) && shape.emptyByDefault && rest.emptyByDefault
end

variable {naming : Naming}

/-- Nothing is written as nothing. -/
theorem Shape.isEmpty_of_isNothing : ∀ {α : Type} (shape : Shape α) {a : α} {t : Tree},
    shape.write naming a = some t → shape.isNothing a → t.isEmpty
  | _, .text _, _, _, written, nothing => by
    obtain rfl := Option.some.inj written
    exact nothing
  | _, .secret, _, _, written, nothing => by
    obtain rfl := beq_iff_eq.mp nothing
    obtain rfl := Option.some.inj written
    rfl
  | _, .nullable _, none, _, written, _ => by
    obtain rfl := Option.some.inj written
    rfl
  | _, .nullable inner, some _, _, written, nothing => inner.isEmpty_of_isNothing written nothing
  | _, .list _, as, _, written, nothing => by
    obtain rfl : as = [] := List.isEmpty_iff.mp nothing
    obtain rfl := Option.some.inj written
    rfl
  | _, .int, _, _, _, nothing | _, .bool, _, _, _, nothing | _, .float, _, _, _, nothing
  | _, .choice _, _, _, _, nothing | _, .record .., _, _, _, nothing => by contradiction

/-- A field is left out of what is written just when it is dropped. -/
theorem Field.isDropped_eq {α : Type} {label : Label} {shape : Shape α} {fallback : Option α} {a : α} {t : Tree}
    (restores : label.omitEmpty → shape.Restores fallback) (void : !label.omitEmpty || fallback.any shape.isNothing)
    (written : shape.write naming a = some t) :
    (label.omitEmpty && t.isEmpty) = Field.isDropped ⟨_, label, shape, fallback, a⟩ := by
  rw [isDropped]
  cases omitted : label.omitEmpty with
  | false => rfl
  | true =>
    rw [Bool.true_and, Bool.true_and, Bool.eq_iff_iff]
    refine ⟨fun empty => ?_, shape.isEmpty_of_isNothing written⟩
    -- What comes back as the value that the field has by default is that value.
    obtain ⟨rfl, -⟩ := restores omitted naming a t written empty
    simpa [omitted] using void

/-- A record is written with the keys that it declares. -/
theorem Fields.keys_of_write : ∀ {ρ : Type} (fields : Fields ρ), fields.Sound → fields.emptyByDefault →
    ∀ {r : ρ} {entries : List (String × Tree)}, fields.write naming r = some entries →
      entries.map Prod.fst = ((fields.filled r).filter (!·.isDropped)).map (·.label.key naming)
  | _, .nil, _, _, _, _, written => by
    obtain rfl := Option.some.inj written
    rfl
  | _, .cons label shape fallback rest, isSound, byDefault, (a, r), _, written => by
    obtain ⟨-, restores, -, sounds⟩ := isSound
    simp only [emptyByDefault, Bool.and_eq_true] at byDefault
    obtain ⟨⟨void, -⟩, voids⟩ := byDefault
    obtain ⟨t, others, first, remaining, rfl⟩ := Fields.write_cons written
    have later := rest.keys_of_write sounds voids remaining
    rw [Field.isDropped_eq restores void first, filled]
    cases dropped : Field.isDropped ⟨_, label, shape, fallback, a⟩ with
    | true => simpa [dropped] using later
    | false => simpa [dropped] using later

/-- No key is written twice. -/
theorem Fields.nodup_keys : ∀ {ρ : Type} (fields : Fields ρ), fields.Sound → ∀ {r : ρ} {entries : List (String × Tree)},
    fields.write naming r = some entries → (entries.map Prod.fst).Nodup
  | _, .nil, _, _, _, written => by
    obtain rfl := Option.some.inj written
    exact List.nodup_nil
  | _, .cons label _ _ rest, isSound, (_, _), _, written => by
    obtain ⟨t, others, -, remaining, rfl⟩ := Fields.write_cons written
    have later := rest.nodup_keys isSound.2.2.2 remaining
    split_ifs
    · exact later
    · refine List.nodup_cons.mpr ⟨fun again => ?_, later⟩
      obtain ⟨entry, member, same⟩ := List.mem_map.mp again
      obtain ⟨other, among, key⟩ := rest.key_of_write remaining entry member
      exact (isSound.1 other among).key_ne naming (same.symm.trans key)

/-- What stands under the key of a field is what is written for the field. -/
theorem Fields.write_of_mem : ∀ {ρ : Type} (fields : Fields ρ), fields.Sound → ∀ {r : ρ} {entries : List (String × Tree)},
    fields.write naming r = some entries → ∀ field ∈ fields.filled r, ∀ {t : Tree},
      (field.label.key naming, t) ∈ entries → field.shape.write naming field.value = some t
  | _, .nil, _, (), _, _, field, member, _, _ => absurd member List.not_mem_nil
  | _, .cons label shape fallback rest, isSound, (a, r), _, written, field, member, t, stands => by
    obtain ⟨u, others, first, remaining, rfl⟩ := Fields.write_cons written
    have cases : (field.label.key naming, t) = (label.key naming, u) ∨ (field.label.key naming, t) ∈ others := by
      split_ifs at stands
      · exact .inr stands
      · exact List.mem_cons.mp stands
    rcases List.mem_cons.mp member with rfl | later
    · rcases cases with same | behind
      · exact (Prod.mk.inj same).2 ▸ first
      · obtain ⟨other, among, key⟩ := rest.key_of_write remaining _ behind
        exact absurd key ((isSound.1 other among).key_ne naming)
    · rcases cases with same | behind
      · exact absurd (Prod.mk.inj same).1.symm ((isSound.1 _ (rest.label_mem later)).key_ne naming)
      · exact rest.write_of_mem isSound.2.2.2 remaining field later behind

/-- The fields of a sound record are sound. -/
theorem Fields.sound_of_filled : ∀ {ρ : Type} (fields : Fields ρ), fields.Sound → fields.emptyByDefault →
    ∀ {r : ρ}, ∀ field ∈ fields.filled r, field.shape.Sound ∧ field.shape.emptyByDefault
  | _, .nil, _, _, (), field, member => absurd member List.not_mem_nil
  | _, .cons _ _ _ rest, isSound, byDefault, (_, _), field, member => by
    simp only [emptyByDefault, Bool.and_eq_true] at byDefault
    rcases List.mem_cons.mp member with rfl | later
    · exact ⟨isSound.2.2.1, byDefault.1.2⟩
    · exact rest.sound_of_filled isSound.2.2.2 byDefault.2 field later

/-- A part of some data, the description of it and what is written for it. -/
structure Portion : Type 1 where
  Carrier : Type
  shape : Shape Carrier
  value : Carrier
  tree : Tree

namespace Portion

/-- One portion stands in another, as what is there of data that might be missing, as an item at its place, or as a
field under its key. -/
inductive In (naming : Naming) : Portion → Portion → Prop
  | given {α : Type} {inner : Shape α} {a : α} {t : Tree} : In naming ⟨_, inner, a, t⟩ ⟨_, .nullable inner, some a, t⟩
  | item {α : Type} {item : Shape α} {as : List α} {items : List Tree} {i : Nat} {a : α} {t : Tree}
      (value : as[i]? = some a) (tree : items[i]? = some t) :
      In naming ⟨_, item, a, t⟩ ⟨_, .list item, as, .list items⟩
  | field {α ρ : Type} {title : String} {fields : Fields ρ} {parts : Parts α ρ} {a : α} {entries : List (String × Tree)}
      {field : Field} {t : Tree} (member : field ∈ (Shape.record title fields parts).filled a)
      (stands : (field.label.key naming, t) ∈ entries) :
      In naming ⟨_, field.shape, field.value, t⟩ ⟨_, .record title fields parts, a, .record entries⟩

/-- A record is written as an object with just the keys that it declares, each of them once, and a list as a list with an
item for each of its own. -/
def IsLaidOut (naming : Naming) : Portion → Prop
  | ⟨_, .record title fields parts, a, t⟩ => ∃ entries, t = .record entries ∧
    entries.map Prod.fst = (Shape.record title fields parts).declaredKeys naming a ∧ (entries.map Prod.fst).Nodup
  | ⟨_, .list _, as, t⟩ => ∃ items, t = .list items ∧ items.length = as.length
  | _ => True

/-- The portion is described soundly, and its tree is what is written for it. -/
structure Written (naming : Naming) (p : Portion) : Prop where
  sound : p.shape.Sound
  byDefault : p.shape.emptyByDefault
  write : p.shape.write naming p.value = some p.tree

variable {p q : Portion}

theorem Written.isLaidOut (written : p.Written naming) : p.IsLaidOut naming := by
  obtain ⟨_, shape, a, t⟩ := p
  obtain ⟨sound, byDefault, write⟩ := written
  cases shape with
  | list item =>
    obtain ⟨items, all, rfl⟩ := Option.map_eq_some_iff.mp write
    exact ⟨items, rfl, by simpa using (congrArg List.length (allSome_eq_some all)).symm⟩
  | record title fields parts =>
    obtain ⟨entries, all, rfl⟩ := Option.map_eq_some_iff.mp write
    exact ⟨entries, rfl, fields.keys_of_write sound byDefault all, fields.nodup_keys sound all⟩
  | _ => trivial

theorem Written.inside (written : q.Written naming) (inside : In naming p q) : p.Written naming := by
  obtain ⟨sound, byDefault, write⟩ := written
  cases inside with
  | given => exact ⟨sound.2, byDefault, write⟩
  | @item _ item as items i a t value tree =>
    obtain ⟨items', all, same⟩ := Option.map_eq_some_iff.mp write
    obtain rfl := Tree.list.inj same
    have place := congrArg (·[i]?) (allSome_eq_some all)
    simp only [List.getElem?_map, value, tree, Option.map_some, Option.some.injEq] at place
    exact ⟨sound, byDefault, place⟩
  | @field _ _ title fields parts a entries field t member stands =>
    obtain ⟨entries', all, same⟩ := Option.map_eq_some_iff.mp write
    obtain rfl := Tree.record.inj same
    obtain ⟨sound', byDefault'⟩ := fields.sound_of_filled sound byDefault field member
    exact ⟨sound', byDefault', fields.write_of_mem sound all field member stands⟩

/-- What is written for data is written for them at every depth. -/
theorem Written.within (written : q.Written naming) (within : Relation.ReflTransGen (In naming) p q) : p.Written naming := by
  induction within using Relation.ReflTransGen.head_induction_on with
  | refl => exact written
  | head inside _ ih => exact ih.inside inside

end Portion
end AgentConfig
