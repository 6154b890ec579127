import AgentConfig.Proofs.Schema.Read
import AgentConfig.Proofs.Schema.ReadWrite

namespace AgentConfig

namespace Tree

variable {key name : String} {t u : Tree} {entries entries' before after : List (String × Tree)}

theorem last?_append (key : String) (before after : List (String × Tree)) :
    last? key (before ++ after) = (last? key after).or (last? key before) := by
  rw [last?, last?, last?, List.filter_append, List.getLast?_append, Option.map_or]

theorem last?_cons (key name : String) (t : Tree) (rest : List (String × Tree)) :
    last? key ((name, t) :: rest) = (last? key rest).or (if name = key then some t else none) := by
  rw [← List.singleton_append, last?_append]
  congr 1
  by_cases same : name = key <;> simp [last?, same]

theorem last?_cons_ne (ne : name ≠ key) (t : Tree) (rest : List (String × Tree)) :
    last? key ((name, t) :: rest) = last? key rest := by
  rw [last?_cons, if_neg ne, Option.or_none]

theorem last?_eq_none (absent : ∀ entry ∈ entries, entry.1 ≠ key) : last? key entries = none := by
  have empty : entries.filter (·.1 = key) = [] := List.filter_eq_nil_iff.mpr fun entry member => by
    simpa using absent entry member
  rw [last?, empty]
  rfl

/-- An entry under another key does not matter. -/
theorem last?_skip (ne : name ≠ key) : last? key (before ++ (name, t) :: after) = last? key (before ++ after) := by
  rw [last?_append, last?_cons_ne ne, ← last?_append]

/-- The only entry under a key gives its value. -/
theorem last?_only (absent : ∀ entry ∈ before ++ after, entry.1 ≠ key) :
    last? key (before ++ (key, t) :: after) = some t := by
  obtain ⟨front, behind⟩ := List.forall_mem_append.mp absent
  rw [last?_append, last?_cons, last?_eq_none front, last?_eq_none behind, if_pos rfl]
  rfl

/-- The order of entries under different keys does not matter. -/
theorem last?_perm (nodup : (entries.map Prod.fst).Nodup) (perm : entries.Perm entries') (key : String) :
    last? key entries = last? key entries' := by
  have filtered : (entries.filter (·.1 = key)).Perm (entries'.filter (·.1 = key)) := perm.filter _
  have distinct : ((entries.filter (·.1 = key)).map Prod.fst).Nodup := nodup.sublist (List.filter_sublist.map _)
  have under : ∀ entry ∈ entries.filter (·.1 = key), entry.1 = key := fun entry member => by
    simpa using (List.mem_filter.mp member).2
  rw [last?, last?]
  cases found : entries.filter (·.1 = key) with
  | nil =>
    rw [found] at filtered
    rw [← filtered.nil_eq]
  | cons entry rest =>
    rw [found] at filtered distinct under
    -- A second entry would have the same key.
    obtain rfl : rest = [] := by
      cases rest with
      | nil => rfl
      | cons other rest =>
        obtain ⟨first, second, -⟩ := by simpa using under
        simp [first, second] at distinct
    rw [List.singleton_perm.mp filtered]

/-- Putting another value under a key changes at most what stands under this key. -/
theorem last?_replace (key name : String) (before after : List (String × Tree)) (t u : Tree) :
    last? name (before ++ (key, u) :: after) = last? name (before ++ (key, t) :: after) ∨
      last? name (before ++ (key, t) :: after) = some t ∧ last? name (before ++ (key, u) :: after) = some u := by
  rw [last?_append, last?_append, last?_cons, last?_cons]
  cases last? name after with
  | some v => exact .inl rfl
  | none =>
    by_cases same : key = name
    · exact .inr ⟨by simp [same], by simp [same]⟩
    · exact .inl (by simp [same])

end Tree

namespace Label

variable {label : Label} {key : String} {t u : Tree} {entries entries' before after : List (String × Tree)}

/-- A key that a field goes by. -/
def Has (label : Label) (key : String) : Prop :=
  key = label.documentName ∨ key = label.name

/-- No entry is one for the field. -/
def Absent (label : Label) (entries : List (String × Tree)) : Prop :=
  ∀ entry ∈ entries, ¬ label.Has entry.1

theorem tree?_absent (absent : label.Absent entries) : label.tree? entries = none := by
  rw [tree?, Tree.last?_eq_none fun entry member same => absent entry member (.inl same),
    Tree.last?_eq_none fun entry member same => absent entry member (.inr same)]
  rfl

theorem tree?_perm (nodup : (entries.map Prod.fst).Nodup) (perm : entries.Perm entries') (label : Label) :
    label.tree? entries = label.tree? entries' := by
  rw [tree?, tree?, Tree.last?_perm nodup perm, Tree.last?_perm nodup perm]

theorem tree?_skip (other : ¬ label.Has key) :
    label.tree? (before ++ (key, t) :: after) = label.tree? (before ++ after) := by
  obtain ⟨documentName, name⟩ := not_or.mp other
  rw [tree?, tree?, Tree.last?_skip documentName, Tree.last?_skip name]

theorem tree?_only (has : label.Has key) (absent : label.Absent (before ++ after)) :
    label.tree? (before ++ (key, t) :: after) = some t := by
  have name : ∀ entry ∈ before ++ after, entry.1 ≠ label.name := fun entry member same => absent entry member (.inr same)
  have documentName : ∀ entry ∈ before ++ after, entry.1 ≠ label.documentName := fun entry member same =>
    absent entry member (.inl same)
  rcases has with rfl | rfl
  · rw [tree?, Tree.last?_only documentName]
    rfl
  · by_cases same : label.name = label.documentName
    · rw [tree?, same, Tree.last?_only documentName]
      rfl
    · rw [tree?, Tree.last?_skip same, Tree.last?_eq_none documentName, Tree.last?_only name]
      rfl

theorem tree?_replace (label : Label) (key : String) (before after : List (String × Tree)) (t u : Tree) :
    label.tree? (before ++ (key, u) :: after) = label.tree? (before ++ (key, t) :: after) ∨
      label.tree? (before ++ (key, t) :: after) = some t ∧ label.tree? (before ++ (key, u) :: after) = some u := by
  unfold tree?
  rcases Tree.last?_replace key label.documentName before after t u with same | ⟨first, second⟩
  · rw [same]
    cases Tree.last? label.documentName (before ++ (key, t) :: after) with
    | some v => exact .inl rfl
    | none => exact Tree.last?_replace key label.name before after t u
  · exact .inr ⟨by rw [first]; rfl, by rw [second]; rfl⟩

theorem Apart.not_has {other : Label} (apart : label.Apart other) (has : label.Has key) : ¬ other.Has key := by
  rintro (same | same) <;> rcases has with rfl | rfl
  · exact apart.2.2.2 same
  · exact apart.2.1 same
  · exact apart.2.2.1 same
  · exact apart.1 same

end Label

/-- The same data with the entries of a record, at any place, in another order. -/
inductive Tree.Reordered : Tree → Tree → Prop
  | entries {entries entries' : List (String × Tree)} (nodup : (entries.map Prod.fst).Nodup)
      (perm : entries.Perm entries') : Reordered (.record entries) (.record entries')
  | item {t u : Tree} (before after : List Tree) (inside : Reordered t u) :
      Reordered (.list (before ++ t :: after)) (.list (before ++ u :: after))
  | entry {t u : Tree} (key : String) (before after : List (String × Tree)) (inside : Reordered t u) :
      Reordered (.record (before ++ (key, t) :: after)) (.record (before ++ (key, u) :: after))

/-- A field of a record, with its shape and the value it has when nothing is given for it. -/
inductive Fields.Has {α : Type} (label : Label) (shape : Shape α) (fallback : Option α) : {ρ : Type} → Fields ρ → Prop
  | head {ρ : Type} (rest : Fields ρ) : Has label shape fallback (.cons label shape fallback rest)
  | tail {β ρ : Type} (label' : Label) (shape' : Shape β) (fallback' : Option β) {rest : Fields ρ}
      (has : Has label shape fallback rest) : Has label shape fallback (.cons label' shape' fallback' rest)

theorem Fields.Has.label_mem {α ρ : Type} {label : Label} {shape : Shape α} {fallback : Option α} {fields : Fields ρ}
    (has : fields.Has label shape fallback) : label ∈ fields.labels := by
  induction has with
  | head rest => exact List.mem_cons_self ..
  | tail label' _ _ _ ih => exact List.mem_cons_of_mem _ ih

theorem Fields.Has.sound {α ρ : Type} {label : Label} {shape : Shape α} {fallback : Option α} {fields : Fields ρ}
    (has : fields.Has label shape fallback) (sound : fields.Sound) : shape.Sound := by
  induction has with
  | head rest => exact sound.2.2.1
  | tail _ _ _ _ ih => exact ih sound.2.2.2

theorem Fields.Has.restores {α ρ : Type} {label : Label} {shape : Shape α} {fallback : Option α} {fields : Fields ρ}
    (has : fields.Has label shape fallback) (sound : fields.Sound) (omitted : label.omitEmpty) :
    shape.Restores fallback := by
  induction has with
  | head rest => exact sound.2.1 omitted
  | tail _ _ _ _ ih => exact ih sound.2.2.2

/-- Two labels of a record are the same or cannot be taken for each other. -/
theorem Fields.apart_of_sound {ρ : Type} (fields : Fields ρ) (sound : fields.Sound) {label other : Label}
    (among : label ∈ fields.labels) (among' : other ∈ fields.labels) : label = other ∨ label.Apart other := by
  match fields with
  | .nil => contradiction
  | .cons first _ _ rest =>
    rcases List.mem_cons.mp among with rfl | later <;> rcases List.mem_cons.mp among' with rfl | later'
    · exact .inl rfl
    · exact .inr (sound.1 other later')
    · exact .inr (sound.1 label later).symm
    · exact rest.apart_of_sound sound.2.2.2 later later'

/-- One change to how data of a shape are spelled: another order of entries, an entry that belongs to no field, the
name of a field in place of its name in documents, a field written out with the value it has anyway, or a field that
is left out when empty written out as empty. -/
inductive Shape.Respelled : {α : Type} → Shape α → Tree → Tree → Prop
  | order {α : Type} (shape : Shape α) {t u : Tree} (reordered : t.Reordered u) : Respelled shape t u
  | nullable {α : Type} {inner : Shape α} {t u : Tree} (inside : Respelled inner t u) : Respelled (.nullable inner) t u
  | item {α : Type} {item : Shape α} {t u : Tree} (before after : List Tree) (inside : Respelled item t u) :
      Respelled (.list item) (.list (before ++ t :: after)) (.list (before ++ u :: after))
  | field {α ρ σ : Type} {title : String} {fields : Fields ρ} {parts : Parts σ ρ} {label : Label} {shape : Shape α}
      {fallback : Option α} {key : String} {t u : Tree} (before after : List (String × Tree))
      (has : fields.Has label shape fallback) (named : label.Has key) (inside : Respelled shape t u) :
      Respelled (.record title fields parts) (.record (before ++ (key, t) :: after))
        (.record (before ++ (key, u) :: after))
  | foreign {ρ σ : Type} {title : String} {fields : Fields ρ} {parts : Parts σ ρ} {key : String} (t : Tree)
      (before after : List (String × Tree)) (foreign : ∀ label ∈ fields.labels, ¬ label.Has key) :
      Respelled (.record title fields parts) (.record (before ++ after)) (.record (before ++ (key, t) :: after))
  | name {ρ σ : Type} {title : String} {fields : Fields ρ} {parts : Parts σ ρ} {label : Label} (t : Tree)
      (before after : List (String × Tree)) (among : label ∈ fields.labels) (absent : label.Absent (before ++ after)) :
      Respelled (.record title fields parts) (.record (before ++ (label.documentName, t) :: after))
        (.record (before ++ (label.name, t) :: after))
  | usual {α ρ σ : Type} {title : String} {fields : Fields ρ} {parts : Parts σ ρ} {label : Label} {shape : Shape α}
      {a : α} {key : String} {t : Tree} (before after : List (String × Tree)) (has : fields.Has label shape (some a))
      (named : label.Has key) (absent : label.Absent (before ++ after)) (read : shape.read .json (.ofTree t) = .ok a) :
      Respelled (.record title fields parts) (.record (before ++ after)) (.record (before ++ (key, t) :: after))
  | empty {α ρ σ : Type} {title : String} {fields : Fields ρ} {parts : Parts σ ρ} {label : Label} {shape : Shape α}
      {fallback : Option α} {naming : Naming} {a : α} {key : String} {t : Tree} (before after : List (String × Tree))
      (has : fields.Has label shape fallback) (omitted : label.omitEmpty) (named : label.Has key)
      (absent : label.Absent (before ++ after)) (written : shape.write naming a = some t) (empty : t.isEmpty) :
      Respelled (.record title fields parts) (.record (before ++ after)) (.record (before ++ (key, t) :: after))

variable {source : Source} {entries entries' : List (String × Tree)}

/-- Both trees are accepted as the same data or both are refused, whatever is expected. -/
def Tree.SameRead (source : Source) (t u : Tree) : Prop :=
  ∀ {α : Type} (shape : Shape α), (shape.read source (.ofTree t)).toOption = (shape.read source (.ofTree u)).toOption

/-- Two records are read alike if each field has the same value or values that are read alike. -/
theorem Fields.toOption_read_congr {ρ : Type} (fields : Fields ρ)
    (same : ∀ label ∈ fields.labels, label.tree? entries = label.tree? entries' ∨
      ∃ t u, label.tree? entries = some t ∧ label.tree? entries' = some u ∧ t.SameRead source u) :
    (fields.read source (Value.ofEntries entries)).toOption = (fields.read source (Value.ofEntries entries')).toOption := by
  match fields with
  | .nil => rfl
  | .cons label shape fallback rest =>
    have first : shape.readField source label fallback entries = shape.readField source label fallback entries' := by
      unfold Shape.readField
      rcases same label (List.mem_cons_self ..) with same | ⟨t, u, before, after, alike⟩
      · rw [same]
      · rw [before, after]
        exact alike shape
    have others := rest.toOption_read_congr fun label among => same label (List.mem_cons_of_mem _ among)
    rw [toOption_read_cons, toOption_read_cons, first, others]

/-- Two records are read alike if one field of both comes to the same and the others have the same values. -/
theorem Fields.toOption_read_has {α ρ : Type} {label : Label} {shape : Shape α} {fallback : Option α} {fields : Fields ρ}
    (has : fields.Has label shape fallback) (sound : fields.Sound)
    (same : shape.readField source label fallback entries = shape.readField source label fallback entries')
    (others : ∀ other : Label, label.Apart other → other.tree? entries = other.tree? entries') :
    (fields.read source (Value.ofEntries entries)).toOption = (fields.read source (Value.ofEntries entries')).toOption := by
  induction has with
  | head rest =>
    have remaining : (rest.read source (Value.ofEntries entries)).toOption =
        (rest.read source (Value.ofEntries entries')).toOption :=
      rest.toOption_read_congr fun other among => .inl (others other (sound.1 other among))
    rw [toOption_read_cons, toOption_read_cons, same, remaining]
  | tail label' shape' fallback' has ih =>
    have among : label ∈ Fields.labels _ := has.label_mem
    have first : shape'.readField source label' fallback' entries = shape'.readField source label' fallback' entries' := by
      rw [Shape.readField, Shape.readField, others label' (sound.1 label among).symm]
    rw [toOption_read_cons, toOption_read_cons, first, ih sound.2.2.2]

/-- A field that is written out with the value it has anyway makes no difference. -/
theorem Fields.toOption_read_usual {α ρ : Type} {label : Label} {shape : Shape α} {a : α} {fields : Fields ρ}
    {key : String} {t : Tree} {before after : List (String × Tree)} (has : fields.Has label shape (some a))
    (sound : fields.Sound) (named : label.Has key) (absent : label.Absent (before ++ after))
    (read : shape.read source (.ofTree t) = .ok a) :
    (fields.read source (Value.ofEntries (before ++ after))).toOption =
      (fields.read source (Value.ofEntries (before ++ (key, t) :: after))).toOption := by
  refine toOption_read_has has sound ?_ fun other apart => ?_
  · rw [Shape.readField, Shape.readField, Label.tree?_absent absent, Label.tree?_only named absent]
    simp only [Option.elim_none, Option.elim_some, read]
    rfl
  · rw [Label.tree?_skip (apart.not_has named)]

/-- Where lists are read item by item alike, they are read alike. -/
theorem Shape.toOption_read_list {ts us : List Tree}
    (items : ∀ {α : Type} (item : Shape α), (Checked.items (item.read source) 0 (Value.ofTrees ts)).toOption =
      (Checked.items (item.read source) 0 (Value.ofTrees us)).toOption) : Tree.SameRead source (.list ts) (.list us)
  | _, .nullable inner => by
    have same := inner.toOption_read_list items
    simp only [Shape.read, Value.ofTree, Checked.toOption_map] at same ⊢
    rw [same]
  | _, .list item => by
    simp only [Shape.read, Value.ofTree]
    exact items item
  | _, .text _ | _, .secret | _, .int | _, .bool | _, .float | _, .choice _ | _, .record .. => rfl

theorem Shape.toOption_read_record
    (fields : ∀ {ρ : Type} (fields : Fields ρ), (fields.read source (Value.ofEntries entries)).toOption =
      (fields.read source (Value.ofEntries entries')).toOption) : Tree.SameRead source (.record entries) (.record entries')
  | _, .nullable inner => by
    have same := inner.toOption_read_record fields
    simp only [Shape.read, Value.ofTree, Checked.toOption_map] at same ⊢
    rw [same]
  | _, .record _ parts _ => by
    simp only [Shape.read, Value.ofTree, Checked.toOption_map]
    rw [fields parts]
  | _, .text _ | _, .secret | _, .int | _, .bool | _, .float | _, .choice _ | _, .list _ => rfl

theorem Checked.toOption_items_replace {α : Type} {read : Value → Checked α} {t u : Tree} (before after : List Tree)
    (same : (read (.ofTree t)).toOption = (read (.ofTree u)).toOption) :
    (items read 0 (Value.ofTrees (before ++ t :: after))).toOption =
      (items read 0 (Value.ofTrees (before ++ u :: after))).toOption := by
  simp only [toOption_items, Value.ofTrees_eq_map, List.map_append, List.map_cons, same]

/-- The order of entries does not matter to readers. -/
theorem Tree.Reordered.sameRead {t u : Tree} (reordered : t.Reordered u) : t.SameRead source u := by
  induction reordered with
  | entries nodup perm =>
    exact Shape.toOption_read_record fun fields =>
      fields.toOption_read_congr fun label _ => .inl (Label.tree?_perm nodup perm label)
  | item before after _ alike =>
    exact Shape.toOption_read_list fun item => Checked.toOption_items_replace before after (alike item)
  | @entry t u key before after _ alike =>
    refine Shape.toOption_read_record fun fields => fields.toOption_read_congr fun label _ => ?_
    rcases label.tree?_replace key before after t u with same | ⟨first, second⟩
    · exact .inl same.symm
    · exact .inr ⟨t, u, first, second, alike⟩

namespace Shape.Respelled

variable {α : Type} {shape : Shape α} {t u : Tree}

/-- What is respelled is a list or a record. -/
theorem ne_null (respelled : shape.Respelled t u) : t ≠ .null ∧ u ≠ .null := by
  induction respelled with
  | order shape reordered => cases reordered <;> simp
  | nullable _ ih => exact ih
  | _ => simp

theorem toOption_read_nullable {inner : Shape α} (nonnull : t ≠ .null) :
    ((Shape.nullable inner).read source (.ofTree t)).toOption = (inner.read source (.ofTree t)).toOption.map some := by
  cases t with
  | null => contradiction
  | _ => simp only [Shape.read, Value.ofTree, Checked.toOption_map]

/-- A change of spelling does not change what is read. -/
theorem toOption_read (respelled : shape.Respelled t u) (sound : shape.Sound) :
    (shape.read .json (.ofTree t)).toOption = (shape.read .json (.ofTree u)).toOption := by
  induction respelled with
  | order shape reordered => exact reordered.sameRead shape
  | nullable inside ih =>
    obtain ⟨first, second⟩ := inside.ne_null
    rw [toOption_read_nullable first, toOption_read_nullable second, ih sound.2]
  | item before after inside ih =>
    simp only [Shape.read, Value.ofTree]
    exact Checked.toOption_items_replace before after (ih sound)
  | @field _ _ _ _ fields parts label shape fallback key t u before after has named inside ih =>
    simp only [Shape.read, Value.ofTree, Checked.toOption_map]
    congr 1
    refine Fields.toOption_read_has has sound ?_ fun other apart => ?_
    · unfold readField
      rcases label.tree?_replace key before after t u with same | ⟨first, second⟩
      · rw [same]
      · rw [first, second]
        exact ih (has.sound sound)
    · rw [Label.tree?_skip (apart.not_has named), Label.tree?_skip (apart.not_has named)]
  | foreign t before after foreign =>
    simp only [Shape.read, Value.ofTree, Checked.toOption_map]
    congr 1
    exact Fields.toOption_read_congr _ fun label among => .inl (Label.tree?_skip (foreign label among)).symm
  | @name _ _ _ fields _ label t before after among absent =>
    simp only [Shape.read, Value.ofTree, Checked.toOption_map]
    congr 1
    refine Fields.toOption_read_congr _ fun other among' => .inl ?_
    rcases fields.apart_of_sound sound among among' with rfl | apart
    · rw [Label.tree?_only (.inl rfl) absent, Label.tree?_only (.inr rfl) absent]
    · rw [Label.tree?_skip (apart.not_has (.inl rfl)), Label.tree?_skip (apart.not_has (.inr rfl))]
  | usual before after has named absent read =>
    simp only [Shape.read, Value.ofTree, Checked.toOption_map]
    rw [Fields.toOption_read_usual has sound named absent read]
  | empty before after has omitted named absent written empty =>
    simp only [Shape.read, Value.ofTree, Checked.toOption_map]
    -- What is empty when written is the default, so that leaving it out changes nothing.
    obtain ⟨rfl, finite⟩ := has.restores sound omitted _ _ _ written empty
    rcases Shape.read_write .json _ (has.sound sound) written with ⟨-, read⟩ | ⟨infinite, -⟩
    · rw [Fields.toOption_read_usual has sound named absent read]
    · exact absurd finite infinite

end Shape.Respelled

end AgentConfig
