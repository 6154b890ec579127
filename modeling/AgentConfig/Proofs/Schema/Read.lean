import AgentConfig.Proofs.Except
import AgentConfig.Proofs.Schema.Tree

namespace AgentConfig

namespace Checked

variable {α β : Type}

theorem toOption_within (step : Step) (result : Checked α) : (result.within step).toOption = result.toOption := by
  cases result <;> rfl

theorem toOption_both (first : Checked α) (second : Checked β) :
    (first.both second).toOption = first.toOption.bind fun a => second.toOption.map (a, ·) := by
  cases first <;> cases second <;> rfl

theorem toOption_eq_some {result : Checked α} {a : α} : result.toOption = some a ↔ result = .ok a := by
  cases result <;> simp [Except.toOption]

theorem toOption_map (f : α → β) (result : Checked α) : (result.map f).toOption = result.toOption.map f := by
  cases result <;> rfl

theorem items_cons (read : Value → Checked α) (position : Nat) (v : Value) (rest : List Value) :
    items read position (v :: rest) =
      (((read v).within (.index position)).both (items read (position + 1) rest)).map fun p => p.1 :: p.2 := by
  rw [items]
  cases ((read v).within (.index position)).both (items read (position + 1) rest) <;> rfl

theorem toOption_items (read : Value → Checked α) (position : Nat) (vs : List Value) :
    (items read position vs).toOption = allSome (vs.map fun v => (read v).toOption) := by
  induction vs generalizing position with
  | nil => rfl
  | cons v rest ih =>
    rw [items_cons, toOption_map, toOption_both, toOption_within, ih, List.map_cons]
    cases (read v).toOption with
    | none => rfl
    | some a =>
      rw [allSome]
      cases allSome (rest.map fun v => (read v).toOption) <;> rfl

end Checked

namespace Value

theorem ofTrees_eq_map (items : List Tree) : ofTrees items = items.map ofTree := by
  induction items with
  | nil => rfl
  | cons t rest ih => rw [ofTrees, ih, List.map_cons]

end Value

/-- The value under a key; of several the last. -/
def Tree.last? (key : String) (entries : List (String × Tree)) : Option Tree :=
  (entries.filter (·.1 = key)).getLast?.map (·.2)

theorem Tree.mem_of_last? {key : String} {t : Tree} {entries : List (String × Tree)}
    (found : last? key entries = some t) : (key, t) ∈ entries := by
  obtain ⟨⟨name, u⟩, last, rfl⟩ := Option.map_eq_some_iff.mp found
  obtain ⟨member, same⟩ := List.mem_filter.mp (List.mem_of_getLast? last)
  obtain rfl : name = key := of_decide_eq_true same
  exact member

theorem Value.lookup_ofEntries (key : String) (entries : List (String × Tree)) :
    lookup key (ofEntries entries) = (Tree.last? key entries).map ofTree := by
  induction entries with
  | nil => rfl
  | cons entry rest ih =>
    obtain ⟨name, t⟩ := entry
    rw [ofEntries, lookup, ih, Tree.last?, Tree.last?]
    by_cases same : name = key
    · rw [List.filter_cons_of_pos (by simpa using same)]
      cases later : rest.filter (·.1 = key) with
      | nil => simp [same]
      | cons first others =>
        rw [List.getLast?_cons_cons]
        cases last : (first :: others).getLast? with
        | none => simp at last
        | some entry => rfl
    · rw [List.filter_cons_of_neg (by simpa using same)]
      cases (rest.filter (·.1 = key)).getLast? <;> simp [same]

/-- The value that a field gets, under either of its names. -/
def Label.tree? (label : Label) (entries : List (String × Tree)) : Option Tree :=
  (Tree.last? label.documentName entries).or (Tree.last? label.name entries)

theorem Label.find?_ofEntries (label : Label) (entries : List (String × Tree)) :
    (label.find? (Value.ofEntries entries)).map Prod.snd = (label.tree? entries).map Value.ofTree := by
  rw [find?, tree?, Value.lookup_ofEntries, Value.lookup_ofEntries]
  cases Tree.last? label.documentName entries with
  | some t => rfl
  | none => cases Tree.last? label.name entries <;> rfl

theorem Label.exists_of_tree? {label : Label} {t : Tree} {entries : List (String × Tree)}
    (found : label.tree? entries = some t) : ∃ key, (key, t) ∈ entries := by
  rcases Option.or_eq_some_iff.mp found with found | ⟨-, found⟩
  · exact ⟨_, Tree.mem_of_last? found⟩
  · exact ⟨_, Tree.mem_of_last? found⟩

section

variable {α ρ : Type} {source : Source} {label : Label} {shape : Shape α} {fallback : Option α} {rest : Fields ρ}
  {entries : List (String × Tree)}

/-- What a field comes to, apart from the problems: what is read from its value or, without one, its fallback. -/
def Shape.readField (shape : Shape α) (source : Source) (label : Label) (fallback : Option α)
    (entries : List (String × Tree)) : Option α :=
  (label.tree? entries).elim fallback fun t => (shape.read source (.ofTree t)).toOption

/-- Apart from the problems, a record is read field by field. -/
theorem Fields.toOption_read_cons : ((Fields.cons label shape fallback rest).read source (Value.ofEntries entries)).toOption =
    (shape.readField source label fallback entries).bind fun a =>
      (rest.read source (Value.ofEntries entries)).toOption.map (a, ·) := by
  have value := label.find?_ofEntries entries
  rw [Shape.readField]
  cases found : label.find? (Value.ofEntries entries) with
  | some entry =>
    obtain ⟨key, v⟩ := entry
    rw [found, Option.map_some] at value
    obtain ⟨t, given, rfl⟩ := Option.map_eq_some_iff.mp value.symm
    simp only [Fields.read, found, Checked.toOption_both, Checked.toOption_within, given, Option.elim]
  | none =>
    rw [found, Option.map_none, eq_comm, Option.map_eq_none_iff] at value
    rw [value]
    cases fallback <;> simp only [Fields.read, found, Checked.toOption_both] <;> rfl

/-- A field has the value that was found for it or, without one, its usual value. -/
theorem Fields.read_cons {a : α} {r : ρ}
    (read : (Fields.cons label shape fallback rest).read source (Value.ofEntries entries) = .ok (a, r)) :
    ((∃ t, label.tree? entries = some t ∧ shape.read source (.ofTree t) = .ok a) ∨ fallback = some a) ∧
      rest.read source (Value.ofEntries entries) = .ok r := by
  have fields := congrArg Except.toOption read
  rw [toOption_read_cons] at fields
  obtain ⟨b, first, remaining⟩ := Option.bind_eq_some_iff.mp fields
  obtain ⟨others, behind, same⟩ := Option.map_eq_some_iff.mp remaining
  obtain ⟨rfl, rfl⟩ := Prod.mk.inj same
  refine ⟨?_, Checked.toOption_eq_some.mp behind⟩
  rw [Shape.readField] at first
  cases found : label.tree? entries with
  | none =>
    rw [found] at first
    exact .inr first
  | some t =>
    rw [found] at first
    exact .inl ⟨t, rfl, Checked.toOption_eq_some.mp first⟩

end

mutual
/-- Whether the values that fields have when nothing is given are as demanded. -/
def Shape.UsualMeets (demands : Demands) : {α : Type} → Shape α → Prop
  | _, .nullable inner => inner.UsualMeets demands
  | _, .list item => item.UsualMeets demands
  | _, .record _ fields _ => fields.UsualMeets demands
  | _, _ => True

def Fields.UsualMeets (demands : Demands) : {ρ : Type} → Fields ρ → Prop
  | _, .nil => True
  | _, .cons _ shape fallback rest =>
    (∀ a ∈ fallback, shape.Meets demands a) ∧ shape.UsualMeets demands ∧ rest.UsualMeets demands
end

/-- What a leaf may be read as is as demanded. -/
structure Demands.Accepts (d : Demands) (source : Source) (leaf : Tree) : Prop where
  int : ∀ n, (Value.ofTree leaf).readInt = .ok n → d.int n
  float : ∀ x, (Value.ofTree leaf).readFloat source = .ok x → d.float x
  secret : ∀ s, d.secret (.text s)

theorem Demands.accepts_written (source : Source) (leaf : Tree) : Demands.written.Accepts source leaf where
  int _ _ := trivial
  float _ _ := trivial
  secret s := by simp [written]

mutual
/-- What is read is as demanded, if all leaves are and also what stands where nothing is given. -/
theorem Shape.meets_of_read {d : Demands} {source : Source} : ∀ {α : Type} (shape : Shape α), shape.UsualMeets d →
    ∀ {t : Tree} {a : α}, (∀ leaf ∈ t.leaves, d.Accepts source leaf) → shape.read source (.ofTree t) = .ok a →
      shape.Meets d a
  | _, .text _, _, _, _, _, _ | _, .bool, _, _, _, _, _ | _, .choice _, _, _, _, _, _ => trivial
  | _, .secret, _, t, _, leaves, read => by
    obtain ⟨s, stands, rfl⟩ := map_eq_ok read
    cases t with
    | text _ => exact (leaves _ (List.mem_singleton_self _)).secret s
    | _ => contradiction
  | _, .int, _, t, _, leaves, read => by
    cases t with
    | list _ | record _ => contradiction
    | _ => exact (leaves _ (List.mem_singleton_self _)).int _ read
  | _, .float, _, t, _, leaves, read => by
    cases t with
    | list _ | record _ => contradiction
    | _ => exact (leaves _ (List.mem_singleton_self _)).float _ read
  | _, .nullable inner, usual, t, a, leaves, read => by
    rintro b rfl
    cases t with
    | null => simp [Shape.read, Value.ofTree] at read
    | _ =>
      obtain ⟨c, inside, same⟩ := map_eq_ok read
      obtain rfl := Option.some.inj same
      exact inner.meets_of_read usual leaves inside
  | _, .list item, usual, t, as, leaves, read => by
    intro a member
    cases t with
    | list items =>
      have results := congrArg Except.toOption read
      simp only [Shape.read, Value.ofTree, Checked.toOption_items, Value.ofTrees_eq_map, List.map_map] at results
      obtain ⟨t, among, found⟩ := exists_of_mem_allSome results member
      exact item.meets_of_read usual (fun leaf inside => leaves leaf (Tree.mem_itemLeaves.mpr ⟨t, among, inside⟩))
        (Checked.toOption_eq_some.mp found)
    | _ => contradiction
  | _, .record _ fields parts, usual, t, a, leaves, read => by
    cases t with
    | record entries =>
      obtain ⟨r, found, rfl⟩ := map_eq_ok read
      rw [Shape.Meets, parts.split_join]
      exact fields.meets_of_read usual leaves found
    | _ => contradiction

theorem Fields.meets_of_read {d : Demands} {source : Source} : ∀ {ρ : Type} (fields : Fields ρ), fields.UsualMeets d →
    ∀ {entries : List (String × Tree)} {r : ρ}, (∀ leaf ∈ Tree.entryLeaves entries, d.Accepts source leaf) →
      fields.read source (Value.ofEntries entries) = .ok r → fields.Meets d r
  | _, .nil, _, _, _, _, _ => trivial
  | _, .cons label shape fallback rest, usual, entries, (a, r), leaves, read => by
    obtain ⟨first, others⟩ := Fields.read_cons read
    refine ⟨?_, rest.meets_of_read usual.2.2 leaves others⟩
    rcases first with ⟨t, stands, found⟩ | given
    · obtain ⟨key, member⟩ := Label.exists_of_tree? stands
      exact shape.meets_of_read usual.2.1 (fun leaf inside => leaves leaf (Tree.mem_entryLeaves.mpr ⟨_, member, inside⟩)) found
    · exact usual.1 a given
end

theorem Shape.toOption_check {α : Type} (shape : Shape α) (source : Source) (v : Value) :
    (shape.check source v).toOption = (shape.read source v).toOption := by
  rw [check]
  cases shape.read source v <;> rfl

theorem Shape.check_eq_ok {α : Type} {shape : Shape α} {source : Source} {v : Value} {a : α} :
    shape.check source v = .ok a ↔ shape.read source v = .ok a := by
  rw [check]
  cases shape.read source v <;> simp

end AgentConfig
