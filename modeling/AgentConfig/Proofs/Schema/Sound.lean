import AgentConfig.Schema.Read
import AgentConfig.Schema.Write
import Mathlib.Tactic

namespace AgentConfig

/-- What is asked of the integers, the numbers and the secrets in data. -/
structure Demands where
  int : Int → Prop
  float : Binary64 → Prop
  secret : Secret → Prop

namespace Demands

def anything : Demands where
  int _ := True
  float _ := True
  secret _ := True

/-- No number is infinite or NaN. -/
def finite : Demands where
  int _ := True
  float x := x.isFinite
  secret _ := True

/-- No secret is a foreign object, so that all of the data can be written. -/
def written : Demands where
  int _ := True
  float _ := True
  secret s := s ≠ .foreign

/-- What both demand. -/
def both (d e : Demands) : Demands where
  int n := d.int n ∧ e.int n
  float x := d.float x ∧ e.float x
  secret s := d.secret s ∧ e.secret s

end Demands

mutual
/-- Whether all parts of the data are as demanded. -/
def Shape.Meets (demands : Demands) : {α : Type} → Shape α → α → Prop
  | _, .text _, _ | _, .bool, _ | _, .choice _, _ => True
  | _, .secret, s => demands.secret s
  | _, .int, n => demands.int n
  | _, .float, x => demands.float x
  | _, .nullable inner, a => ∀ b ∈ a, inner.Meets demands b
  | _, .list item, as => ∀ a ∈ as, item.Meets demands a
  | _, .record _ fields parts, a => fields.Meets demands (parts.split a)

def Fields.Meets (demands : Demands) : {ρ : Type} → Fields ρ → ρ → Prop
  | _, .nil, _ => True
  | _, .cons _ shape _ rest, (a, r) => shape.Meets demands a ∧ rest.Meets demands r
end

mutual
theorem Shape.Meets.imp {d e : Demands} (int : ∀ n, d.int n → e.int n) (float : ∀ x, d.float x → e.float x)
    (secret : ∀ s, d.secret s → e.secret s) : ∀ {α : Type} (shape : Shape α) {a : α}, shape.Meets d a → shape.Meets e a
  | _, .text _, _, _ | _, .bool, _, _ | _, .choice _, _, _ => trivial
  | _, .secret, _, meets => secret _ meets
  | _, .int, _, meets => int _ meets
  | _, .float, _, meets => float _ meets
  | _, .nullable inner, _, meets => fun b given => Shape.Meets.imp int float secret inner (meets b given)
  | _, .list item, _, meets => fun a member => Shape.Meets.imp int float secret item (meets a member)
  | _, .record _ fields _, _, meets => Fields.Meets.imp int float secret fields meets

theorem Fields.Meets.imp {d e : Demands} (int : ∀ n, d.int n → e.int n) (float : ∀ x, d.float x → e.float x)
    (secret : ∀ s, d.secret s → e.secret s) : ∀ {ρ : Type} (fields : Fields ρ) {r : ρ}, fields.Meets d r → fields.Meets e r
  | _, .nil, _, _ => trivial
  | _, .cons _ shape _ rest, (_, _), meets =>
    ⟨Shape.Meets.imp int float secret shape meets.1, Fields.Meets.imp int float secret rest meets.2⟩
end

mutual
theorem Shape.Meets.both {d e : Demands} : ∀ {α : Type} (shape : Shape α) {a : α}, shape.Meets d a → shape.Meets e a →
    shape.Meets (d.both e) a
  | _, .text _, _, _, _ | _, .bool, _, _, _ | _, .choice _, _, _, _ => trivial
  | _, .secret, _, first, second | _, .int, _, first, second | _, .float, _, first, second => ⟨first, second⟩
  | _, .nullable inner, _, first, second => fun b given => Shape.Meets.both inner (first b given) (second b given)
  | _, .list item, _, first, second => fun a member => Shape.Meets.both item (first a member) (second a member)
  | _, .record _ fields _, _, first, second => Fields.Meets.both fields first second

theorem Fields.Meets.both {d e : Demands} : ∀ {ρ : Type} (fields : Fields ρ) {r : ρ}, fields.Meets d r → fields.Meets e r →
    fields.Meets (d.both e) r
  | _, .nil, _, _, _ => trivial
  | _, .cons _ shape _ rest, (_, _), first, second =>
    ⟨Shape.Meets.both shape first.1 second.1, Fields.Meets.both rest first.2 second.2⟩
end

/-- The kinds of data that something may be demanded of. -/
inductive Kind where
  | int
  | float
  | secret
  deriving DecidableEq

/-- Nothing is demanded of data of the kind. -/
def Demands.Free (demands : Demands) : Kind → Prop
  | .int => ∀ n, demands.int n
  | .float => ∀ x, demands.float x
  | .secret => ∀ s, demands.secret s

mutual
/-- The kinds of data in a shape. -/
def Shape.kinds : {α : Type} → Shape α → List Kind
  | _, .secret => [.secret]
  | _, .int => [.int]
  | _, .float => [.float]
  | _, .nullable inner => inner.kinds
  | _, .list item => item.kinds
  | _, .record _ fields _ => fields.kinds
  | _, _ => []

def Fields.kinds : {ρ : Type} → Fields ρ → List Kind
  | _, .nil => []
  | _, .cons _ shape _ rest => shape.kinds ++ rest.kinds
end

mutual
theorem Shape.meets_of_free {demands : Demands} : ∀ {α : Type} (shape : Shape α),
    (∀ kind ∈ shape.kinds, demands.Free kind) → ∀ a, shape.Meets demands a
  | _, .text _, _, _ | _, .bool, _, _ | _, .choice _, _, _ => trivial
  | _, .secret, free, s => free .secret (List.mem_singleton_self _) s
  | _, .int, free, n => free .int (List.mem_singleton_self _) n
  | _, .float, free, x => free .float (List.mem_singleton_self _) x
  | _, .nullable inner, free, _ => fun b _ => inner.meets_of_free free b
  | _, .list item, free, _ => fun a _ => item.meets_of_free free a
  | _, .record _ fields parts, free, a => fields.meets_of_free free (parts.split a)

theorem Fields.meets_of_free {demands : Demands} : ∀ {ρ : Type} (fields : Fields ρ),
    (∀ kind ∈ fields.kinds, demands.Free kind) → ∀ r, fields.Meets demands r
  | _, .nil, _, _ => trivial
  | _, .cons _ shape _ rest, free, (a, r) =>
    ⟨shape.meets_of_free (fun kind member => free kind (List.mem_append_left _ member)) a,
      rest.meets_of_free (fun kind member => free kind (List.mem_append_right _ member)) r⟩
end

section

variable {α : Type} (shape : Shape α)

theorem Shape.meets_anything (a : α) : shape.Meets .anything a :=
  shape.meets_of_free (fun kind _ => by cases kind <;> exact fun _ => trivial) a

theorem Shape.meets_written (without : .secret ∉ shape.kinds) (a : α) : shape.Meets .written a :=
  shape.meets_of_free (fun kind member => by
    cases kind with
    | secret => exact absurd member without
    | _ => exact fun _ => trivial) a

theorem Shape.meets_finite (without : .float ∉ shape.kinds) (a : α) : shape.Meets .finite a :=
  shape.meets_of_free (fun kind member => by
    cases kind with
    | float => exact absurd member without
    | _ => exact fun _ => trivial) a

end

/-- No name of one label is a name of the other. -/
def Label.Apart (a b : Label) : Prop :=
  a.name ≠ b.name ∧ a.name ≠ b.documentName ∧ a.documentName ≠ b.name ∧ a.documentName ≠ b.documentName

instance (a b : Label) : Decidable (a.Apart b) :=
  inferInstanceAs (Decidable (_ ∧ _))

theorem Label.Apart.symm {a b : Label} (apart : a.Apart b) : b.Apart a :=
  ⟨apart.1.symm, apart.2.2.1.symm, apart.2.1.symm, apart.2.2.2.symm⟩

theorem Label.Apart.name_ne {a b : Label} (apart : a.Apart b) (naming : Naming) : a.name ≠ b.key naming := by
  cases naming
  · exact apart.2.1
  · exact apart.1

theorem Label.Apart.documentName_ne {a b : Label} (apart : a.Apart b) (naming : Naming) :
    a.documentName ≠ b.key naming := by
  cases naming
  · exact apart.2.2.2
  · exact apart.2.2.1

theorem Label.Apart.key_ne {a b : Label} (apart : a.Apart b) (naming : Naming) : a.key naming ≠ b.key naming := by
  cases naming
  · exact apart.documentName_ne .document
  · exact apart.name_ne .program

/-- A field that is left out when empty comes back, as its fallback, just then. -/
def Shape.Restores {α : Type} (shape : Shape α) (fallback : Option α) : Prop :=
  ∀ naming a t, shape.write naming a = some t → t.isEmpty → fallback = some a ∧ shape.Meets .finite a

/-- Data of the shape are never written as nothing at all. -/
def Shape.Solid {α : Type} (shape : Shape α) : Prop :=
  ∀ naming a t, shape.write naming a = some t → t.isEmpty = false

mutual
/-- What a description owes to its readers: the labels of a record cannot be taken for each other, fields that
are left out come back, and what may be null is otherwise never written as null. -/
def Shape.Sound : {α : Type} → Shape α → Prop
  | _, .nullable inner => (∀ naming a, inner.write naming a ≠ some .null) ∧ inner.Sound
  | _, .list item => item.Sound
  | _, .record _ fields _ => fields.Sound
  | _, _ => True

def Fields.Sound : {ρ : Type} → Fields ρ → Prop
  | _, .nil => True
  | _, .cons label shape fallback rest =>
    (∀ other ∈ rest.labels, label.Apart other) ∧ (label.omitEmpty → shape.Restores fallback) ∧ shape.Sound ∧ rest.Sound
end

theorem restores_text (numbers : Bool) : (Shape.text numbers).Restores (some "") := by
  rintro naming a _ ⟨⟩ empty
  exact ⟨congrArg some (String.isEmpty_iff.mp empty).symm, trivial⟩

theorem restores_secret : Shape.secret.Restores (some (.text "")) := by
  rintro naming (a | _) t written empty
  · obtain rfl := Option.some.inj written
    exact ⟨congrArg (fun s => some (Secret.text s)) (String.isEmpty_iff.mp empty).symm, trivial⟩
  · simp [Shape.write] at written

theorem allSome_eq_some {α : Type} {as : List (Option α)} {bs : List α} (all : allSome as = some bs) :
    as = bs.map some := by
  induction as generalizing bs with
  | nil =>
    obtain rfl : [] = bs := Option.some.inj all
    rfl
  | cons a as ih =>
    cases a with
    | none => simp [allSome] at all
    | some a =>
      obtain ⟨cs, others, rfl⟩ := Option.map_eq_some_iff.mp all
      rw [ih others, List.map_cons]

section

variable {α β : Type} {f : α → Option β} {as : List α} {bs : List β}

theorem exists_of_mem_allSome (all : allSome (as.map f) = some bs) {b : β} (member : b ∈ bs) : ∃ a ∈ as, f a = some b := by
  have results := allSome_eq_some all
  exact List.mem_map.mp (results ▸ List.mem_map_of_mem member)

theorem mem_allSome_of_mem (all : allSome (as.map f) = some bs) {a : α} (member : a ∈ as) : ∃ b ∈ bs, f a = some b := by
  have results := allSome_eq_some all
  obtain ⟨b, inside, same⟩ := List.mem_map.mp (results ▸ List.mem_map_of_mem (f := f) member)
  exact ⟨b, inside, same.symm⟩

end

theorem restores_list {α : Type} (item : Shape α) : (Shape.list item).Restores (some []) := by
  intro naming as t written empty
  obtain ⟨items, all, rfl⟩ := Option.map_eq_some_iff.mp written
  obtain rfl : items = [] := List.isEmpty_iff.mp empty
  obtain rfl : as = [] := List.map_eq_nil_iff.mp (allSome_eq_some all)
  exact ⟨rfl, by simp [Shape.Meets]⟩

theorem restores_nullable {α : Type} {inner : Shape α} (solid : inner.Solid) :
    (Shape.nullable inner).Restores (some none) := by
  rintro naming (_ | a) t written empty
  · exact ⟨rfl, by simp [Shape.Meets]⟩
  · rw [solid naming a t written] at empty
    contradiction

/-- What the entries of a record consist of: that of the first field, unless it is left out, and the others. -/
theorem Fields.write_cons {α ρ : Type} {label : Label} {shape : Shape α} {fallback : Option α} {rest : Fields ρ}
    {naming : Naming} {a : α} {r : ρ} {entries : List (String × Tree)}
    (written : (Fields.cons label shape fallback rest).write naming (a, r) = some entries) :
    ∃ t others, shape.write naming a = some t ∧ rest.write naming r = some others ∧
      entries = if label.omitEmpty && t.isEmpty then others else (label.key naming, t) :: others := by
  simp only [Fields.write] at written
  split at written
  · rename_i t others first remaining
    exact ⟨t, others, first, remaining, (Option.some.inj written).symm⟩
  · contradiction

theorem Fields.write_ne_nil {naming : Naming} : ∀ {ρ : Type} (fields : Fields ρ) {r : ρ} {entries : List (String × Tree)},
    (∃ label ∈ fields.labels, label.omitEmpty = false) → fields.write naming r = some entries → entries ≠ []
  | _, .nil, _, _, ⟨label, member, _⟩, _ => by simp [Fields.labels] at member
  | _, .cons first shape fallback rest, (a, r), entries, ⟨label, member, always⟩, written => by
    obtain ⟨t, others, _, remaining, rfl⟩ := Fields.write_cons written
    split_ifs with empty
    · rcases List.mem_cons.mp member with rfl | member
      · simp [always] at empty
      · exact rest.write_ne_nil ⟨label, member, always⟩ remaining
    · simp

/-- A record with a field that is always written is never empty. -/
theorem solid_record {α ρ : Type} {title : String} {fields : Fields ρ} {parts : Parts α ρ}
    (kept : ∃ label ∈ fields.labels, label.omitEmpty = false) : (Shape.record title fields parts).Solid := by
  intro naming a t written
  obtain ⟨entries, all, rfl⟩ := Option.map_eq_some_iff.mp written
  have nonempty := fields.write_ne_nil kept all
  cases entries
  · contradiction
  · rfl

theorem Shape.Solid.write_ne_null {α : Type} {shape : Shape α} (solid : shape.Solid) (naming : Naming) (a : α) :
    shape.write naming a ≠ some .null :=
  fun written => by simpa [Tree.isEmpty] using solid naming a _ written

theorem write_list_ne_null {α : Type} (item : Shape α) (naming : Naming) (as : List α) :
    (Shape.list item).write naming as ≠ some .null :=
  fun written => by simp [Shape.write] at written

end AgentConfig
