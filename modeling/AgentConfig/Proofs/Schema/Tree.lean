import AgentConfig.Proofs.Json.Reader
import AgentConfig.Proofs.Schema.Sound

namespace AgentConfig

mutual
theorem Shape.write_isSome {d : Demands} (clean : ∀ s, d.secret s → s ≠ .foreign) (naming : Naming) :
    ∀ {α : Type} (shape : Shape α) {a : α}, shape.Meets d a → ∃ t, shape.write naming a = some t
  | _, .text _, _, _ | _, .int, _, _ | _, .bool, _, _ | _, .float, _, _ | _, .choice _, _, _ => ⟨_, rfl⟩
  | _, .secret, .text _, _ => ⟨_, rfl⟩
  | _, .secret, .foreign, meets => absurd rfl (clean _ meets)
  | _, .nullable _, none, _ => ⟨_, rfl⟩
  | _, .nullable inner, some a, meets => inner.write_isSome clean naming (meets a rfl)
  | _, .list item, as, meets => by
    suffices all : ∃ items, allSome (as.map (item.write naming)) = some items by
      obtain ⟨items, all⟩ := all
      exact ⟨.list items, by rw [Shape.write, all]; rfl⟩
    have each : ∀ a ∈ as, ∃ t, item.write naming a = some t := fun a member =>
      item.write_isSome clean naming (meets a member)
    clear meets
    induction as with
    | nil => exact ⟨[], rfl⟩
    | cons a as ih =>
      obtain ⟨⟨t, first⟩, others⟩ := List.forall_mem_cons.mp each
      obtain ⟨items, all⟩ := ih others
      exact ⟨t :: items, by rw [List.map_cons, first, allSome, all]; rfl⟩
  | _, .record _ fields _, _, meets => by
    obtain ⟨entries, all⟩ := fields.write_isSome clean naming meets
    exact ⟨.record entries, by rw [Shape.write, all]; rfl⟩

theorem Fields.write_isSome {d : Demands} (clean : ∀ s, d.secret s → s ≠ .foreign) (naming : Naming) :
    ∀ {ρ : Type} (fields : Fields ρ) {r : ρ}, fields.Meets d r → ∃ entries, fields.write naming r = some entries
  | _, .nil, _, _ => ⟨[], rfl⟩
  | _, .cons _ shape _ rest, (_, _), meets => by
    obtain ⟨t, first⟩ := shape.write_isSome clean naming meets.1
    obtain ⟨entries, others⟩ := rest.write_isSome clean naming meets.2
    simp only [Fields.write, first, others]
    exact ⟨_, rfl⟩
end

/-- What is known of a leaf of written data. -/
def Demands.Admits (d : Demands) (leaf : Tree) : Prop :=
  (∀ n, leaf = .int n → d.int n) ∧ ∀ x, leaf = .float x → x.isFinite

/-- The leaves of a list are those of its items. -/
theorem Tree.mem_itemLeaves {leaf : Tree} {items : List Tree} :
    leaf ∈ itemLeaves items ↔ ∃ t ∈ items, leaf ∈ t.leaves := by
  induction items with
  | nil => simp [itemLeaves]
  | cons t items ih => simp [itemLeaves, ih]

theorem Tree.mem_entryLeaves {leaf : Tree} {entries : List (String × Tree)} :
    leaf ∈ entryLeaves entries ↔ ∃ entry ∈ entries, leaf ∈ entry.2.leaves := by
  induction entries with
  | nil => simp [entryLeaves]
  | cons entry entries ih => simp [entryLeaves, ih]

/-- Nothing at all holds no integer. -/
theorem Tree.int_notMem_of_isEmpty {t : Tree} (empty : t.isEmpty) (n : Int) : .int n ∉ t.leaves := by
  cases t with
  | list items =>
    obtain rfl := List.isEmpty_iff.mp empty
    simp [leaves, itemLeaves]
  | record entries =>
    obtain rfl := List.isEmpty_iff.mp empty
    simp [leaves, entryLeaves]
  | null => simp [leaves]
  | text s => simp [leaves]
  | _ => contradiction

mutual
/-- The numbers in written data are finite, and the integers are those of the data. -/
theorem Shape.leaves_write {d : Demands} {naming : Naming} : ∀ {α : Type} (shape : Shape α) {a : α} {t : Tree},
    shape.Meets d a → shape.write naming a = some t → ∀ leaf ∈ t.leaves, d.Admits leaf
  | _, .text _, _, _, _, written, leaf, member | _, .bool, _, _, _, written, leaf, member
  | _, .choice _, _, _, _, written, leaf, member | _, .secret, .text _, _, _, written, leaf, member => by
    obtain rfl := Option.some.inj written
    obtain rfl := List.mem_singleton.mp member
    exact ⟨by simp, by simp⟩
  | _, .secret, .foreign, _, _, written, _, _ => by simp [Shape.write] at written
  | _, .int, n, _, meets, written, leaf, member => by
    obtain rfl := Option.some.inj written
    obtain rfl := List.mem_singleton.mp member
    exact ⟨by rintro _ ⟨⟩; exact meets, by simp⟩
  | _, .float, x, _, _, written, leaf, member => by
    obtain rfl := Option.some.inj written
    split_ifs at member with finite
    · obtain rfl := List.mem_singleton.mp member
      exact ⟨by simp, by rintro _ ⟨⟩; exact finite⟩
    · obtain rfl := List.mem_singleton.mp member
      exact ⟨by simp, by simp⟩
  | _, .nullable _, none, _, _, written, leaf, member => by
    obtain rfl := Option.some.inj written
    obtain rfl := List.mem_singleton.mp member
    exact ⟨by simp, by simp⟩
  | _, .nullable inner, some a, _, meets, written, leaf, member =>
    inner.leaves_write (meets a rfl) written leaf member
  | _, .list item, as, _, meets, written, leaf, member => by
    obtain ⟨items, all, rfl⟩ := Option.map_eq_some_iff.mp written
    obtain ⟨t, inItems, inside⟩ := Tree.mem_itemLeaves.mp member
    obtain ⟨a, inList, first⟩ := exists_of_mem_allSome all inItems
    exact item.leaves_write (meets a inList) first leaf inside
  | _, .record _ fields _, _, _, meets, written, leaf, member => by
    obtain ⟨entries, all, rfl⟩ := Option.map_eq_some_iff.mp written
    exact fields.leaves_write meets all leaf member

theorem Fields.leaves_write {d : Demands} {naming : Naming} :
    ∀ {ρ : Type} (fields : Fields ρ) {r : ρ} {entries : List (String × Tree)}, fields.Meets d r →
      fields.write naming r = some entries → ∀ leaf ∈ Tree.entryLeaves entries, d.Admits leaf
  | _, .nil, _, entries, _, written, leaf, member => by
    obtain rfl : [] = entries := Option.some.inj written
    simp [Tree.entryLeaves] at member
  | _, .cons _ shape _ rest, (_, _), _, meets, written, leaf, member => by
    obtain ⟨t, others, first, remaining, rfl⟩ := Fields.write_cons written
    split_ifs at member
    · exact rest.leaves_write meets.2 remaining leaf member
    · rcases List.mem_append.mp member with member | member
      · exact shape.leaves_write meets.1 first leaf member
      · exact rest.leaves_write meets.2 remaining leaf member
end

/-- Something is asked of the integers alone. -/
def Demands.ints (p : Int → Prop) : Demands where
  int := p
  float _ := True
  secret _ := True

mutual
/-- What holds for all integers in written data holds for those in the data, since none are left out. -/
theorem Shape.meets_ints {p : Int → Prop} {naming : Naming} : ∀ {α : Type} (shape : Shape α) {a : α} {t : Tree},
    shape.write naming a = some t → (∀ n, .int n ∈ t.leaves → p n) → shape.Meets (.ints p) a
  | _, .text _, _, _, _, _ | _, .bool, _, _, _, _ | _, .choice _, _, _, _, _ | _, .secret, _, _, _, _
  | _, .float, _, _, _, _ => trivial
  | _, .int, n, _, written, known => by
    obtain rfl := Option.some.inj written
    exact known n (List.mem_singleton_self _)
  | _, .nullable inner, none, _, _, _ => fun _ given => by contradiction
  | _, .nullable inner, some a, _, written, known => fun b given => by
    obtain rfl := Option.some.inj given
    exact inner.meets_ints written known
  | _, .list item, as, _, written, known => fun a member => by
    obtain ⟨items, all, rfl⟩ := Option.map_eq_some_iff.mp written
    obtain ⟨t, inItems, first⟩ := mem_allSome_of_mem all member
    exact item.meets_ints first fun n inside => known n (Tree.mem_itemLeaves.mpr ⟨t, inItems, inside⟩)
  | _, .record _ fields _, _, _, written, known => by
    obtain ⟨entries, all, rfl⟩ := Option.map_eq_some_iff.mp written
    exact fields.meets_ints all known

theorem Fields.meets_ints {p : Int → Prop} {naming : Naming} :
    ∀ {ρ : Type} (fields : Fields ρ) {r : ρ} {entries : List (String × Tree)}, fields.write naming r = some entries →
      (∀ n, .int n ∈ Tree.entryLeaves entries → p n) → fields.Meets (.ints p) r
  | _, .nil, _, _, _, _ => trivial
  | _, .cons _ shape _ rest, (_, _), _, written, known => by
    obtain ⟨t, others, first, remaining, rfl⟩ := Fields.write_cons written
    split_ifs at known with empty
    · have none := Tree.int_notMem_of_isEmpty (Bool.and_eq_true_iff.mp empty).2
      exact ⟨shape.meets_ints first fun n inside => absurd inside (none n), rest.meets_ints remaining known⟩
    · exact ⟨shape.meets_ints first fun n inside => known n (List.mem_append_left _ inside),
        rest.meets_ints remaining fun n inside => known n (List.mem_append_right _ inside)⟩
end

theorem Shape.meets_ints_of_notMem {α : Type} (shape : Shape α) {p : Int → Prop} (without : .int ∉ shape.kinds) (a : α) :
    shape.Meets (.ints p) a :=
  shape.meets_of_free (fun kind member => by
    cases kind with
    | int => exact absurd member without
    | _ => exact fun _ => trivial) a

mutual
/-- Nothing is missing from the data where something may be, and no number is infinite or NaN. -/
def Shape.Complete : {α : Type} → Shape α → α → Prop
  | _, .float, x => x.isFinite
  | _, .nullable inner, a => ∃ b ∈ a, inner.Complete b
  | _, .list item, as => ∀ a ∈ as, item.Complete a
  | _, .record _ fields parts, a => fields.Complete (parts.split a)
  | _, _, _ => True

def Fields.Complete : {ρ : Type} → Fields ρ → ρ → Prop
  | _, .nil, _ => True
  | _, .cons _ shape _ rest, (a, r) => shape.Complete a ∧ rest.Complete r
end

mutual
/-- Complete data are written without null. -/
theorem Shape.null_notMem_leaves {naming : Naming} : ∀ {α : Type} (shape : Shape α) {a : α} {t : Tree},
    shape.Complete a → shape.write naming a = some t → .null ∉ t.leaves
  | _, .text _, _, _, _, written | _, .bool, _, _, _, written | _, .choice _, _, _, _, written
  | _, .int, _, _, _, written | _, .secret, .text _, _, _, written => by
    obtain rfl := Option.some.inj written
    simp [Tree.leaves]
  | _, .secret, .foreign, _, _, written => by simp [Shape.write] at written
  | _, .float, x, _, finite, written => by
    have finite : x.isFinite := finite
    obtain rfl := Option.some.inj written
    rw [if_pos finite]
    simp [Tree.leaves]
  | _, .nullable _, none, _, complete, _ => by
    obtain ⟨b, given, -⟩ := complete
    contradiction
  | _, .nullable inner, some a, _, complete, written => by
    obtain ⟨b, given, inside⟩ := complete
    obtain rfl := Option.some.inj given
    exact inner.null_notMem_leaves inside written
  | _, .list item, as, _, complete, written => by
    obtain ⟨items, all, rfl⟩ := Option.map_eq_some_iff.mp written
    intro member
    obtain ⟨t, inItems, inside⟩ := Tree.mem_itemLeaves.mp member
    obtain ⟨a, inList, first⟩ := exists_of_mem_allSome all inItems
    exact item.null_notMem_leaves (complete a inList) first inside
  | _, .record _ fields _, _, _, complete, written => by
    obtain ⟨entries, all, rfl⟩ := Option.map_eq_some_iff.mp written
    exact fields.null_notMem_entryLeaves complete all

theorem Fields.null_notMem_entryLeaves {naming : Naming} :
    ∀ {ρ : Type} (fields : Fields ρ) {r : ρ} {entries : List (String × Tree)}, fields.Complete r →
      fields.write naming r = some entries → .null ∉ Tree.entryLeaves entries
  | _, .nil, _, entries, _, written => by
    obtain rfl : [] = entries := Option.some.inj written
    simp [Tree.entryLeaves]
  | _, .cons _ shape _ rest, (_, _), _, complete, written => by
    obtain ⟨t, others, first, remaining, rfl⟩ := Fields.write_cons written
    have later := rest.null_notMem_entryLeaves complete.2 remaining
    split_ifs
    · exact later
    · exact List.not_mem_append (shape.null_notMem_leaves complete.1 first) later
end

mutual
/-- How deep the data of a shape are nested at most. -/
def Shape.depth : {α : Type} → Shape α → Nat
  | _, .nullable inner => inner.depth
  | _, .list item => item.depth + 1
  | _, .record _ fields _ => fields.depth + 1
  | _, _ => 0

def Fields.depth : {ρ : Type} → Fields ρ → Nat
  | _, .nil => 0
  | _, .cons _ shape _ rest => max shape.depth rest.depth
end

theorem Tree.depth_list (items : List Tree) : (Tree.list items).depth ≤ itemDepth items + 1 := by
  cases items <;> simp [Tree.depth, Tree.itemDepth]

theorem Tree.itemDepth_le {items : List Tree} {n : Nat} (each : ∀ t ∈ items, t.depth ≤ n) : itemDepth items ≤ n := by
  induction items with
  | nil => exact Nat.zero_le n
  | cons t items ih =>
    obtain ⟨first, others⟩ := List.forall_mem_cons.mp each
    exact max_le first (ih others)

theorem Tree.depth_record (entries : List (String × Tree)) : (Tree.record entries).depth ≤ entryDepth entries + 1 := by
  cases entries <;> simp [Tree.depth, Tree.entryDepth]

mutual
theorem Shape.depth_write {naming : Naming} : ∀ {α : Type} (shape : Shape α) {a : α} {t : Tree},
    shape.write naming a = some t → t.depth ≤ shape.depth
  | _, .text _, _, _, written | _, .bool, _, _, written | _, .choice _, _, _, written | _, .int, _, _, written
  | _, .secret, .text _, _, written => by
    obtain rfl := Option.some.inj written
    exact le_rfl
  | _, .secret, .foreign, _, written => by simp [Shape.write] at written
  | _, .float, x, _, written => by
    obtain rfl := Option.some.inj written
    split_ifs <;> exact le_rfl
  | _, .nullable inner, none, _, written => by
    obtain rfl := Option.some.inj written
    exact Nat.zero_le _
  | _, .nullable inner, some a, _, written => inner.depth_write written
  | _, .list item, as, _, written => by
    obtain ⟨items, all, rfl⟩ := Option.map_eq_some_iff.mp written
    have bound : Tree.itemDepth items ≤ item.depth := Tree.itemDepth_le fun t inItems => by
      obtain ⟨a, -, first⟩ := exists_of_mem_allSome all inItems
      exact item.depth_write first
    exact (Tree.depth_list items).trans (Nat.succ_le_succ bound)
  | _, .record _ fields _, _, _, written => by
    obtain ⟨entries, all, rfl⟩ := Option.map_eq_some_iff.mp written
    exact (Tree.depth_record entries).trans (Nat.succ_le_succ (fields.depth_write all))

theorem Fields.depth_write {naming : Naming} : ∀ {ρ : Type} (fields : Fields ρ) {r : ρ} {entries : List (String × Tree)},
    fields.write naming r = some entries → Tree.entryDepth entries ≤ fields.depth
  | _, .nil, _, entries, written => by
    obtain rfl : [] = entries := Option.some.inj written
    exact le_rfl
  | _, .cons _ shape _ rest, (_, _), _, written => by
    obtain ⟨t, others, first, remaining, rfl⟩ := Fields.write_cons written
    have later := (rest.depth_write remaining).trans (le_max_right shape.depth rest.depth)
    split_ifs
    · exact later
    · exact max_le ((shape.depth_write first).trans (le_max_left _ _)) later
end

end AgentConfig
