import AgentConfig.Yaml.Datum

namespace AgentConfig

namespace Value

mutual
/-- Whether there is a set in a value. -/
def holdsSet : Value → Bool
  | .set _ => true
  | .list items => itemsHoldSet items
  | .map entries => entriesHoldSet entries
  | _ => false

def itemsHoldSet : List Value → Bool
  | [] => false
  | v :: rest => v.holdsSet || itemsHoldSet rest

def entriesHoldSet : List (Value × Value) → Bool
  | [] => false
  | (key, v) :: rest => key.holdsSet || v.holdsSet || entriesHoldSet rest
end

mutual
/-- There are no sets in plain data. -/
theorem holdsSet_ofTree : ∀ t : Tree, (ofTree t).holdsSet = false
  | .null | .bool _ | .int _ | .float _ | .text _ => rfl
  | .list items => itemsHoldSet_ofTrees items
  | .record entries => entriesHoldSet_ofEntries entries

theorem itemsHoldSet_ofTrees : ∀ items : List Tree, itemsHoldSet (ofTrees items) = false
  | [] => rfl
  | t :: rest => Bool.or_eq_false_iff.mpr ⟨holdsSet_ofTree t, itemsHoldSet_ofTrees rest⟩

theorem entriesHoldSet_ofEntries : ∀ entries : List (String × Tree), entriesHoldSet (ofEntries entries) = false
  | [] => rfl
  | (_, t) :: rest =>
    Bool.or_eq_false_iff.mpr ⟨Bool.or_eq_false_iff.mpr ⟨rfl, holdsSet_ofTree t⟩, entriesHoldSet_ofEntries rest⟩
end

variable [Runtime]

mutual
/-- All processes see the same in a value without sets. -/
theorem arranged_of_not_holdsSet : ∀ {v : Value}, v.holdsSet = false → v.arranged = v
  | .null, _ | .bool _, _ | .int _, _ | .float _, _ | .text _, _ | .brokenText, _ | .bytes _, _ | .moment, _ => rfl
  | .list _, free => congrArg list (itemsArranged_of_not_holdSet free)
  | .set _, free => nomatch free
  | .map _, free => congrArg map (entriesArranged_of_not_holdSet free)

theorem itemsArranged_of_not_holdSet : ∀ {items : List Value}, itemsHoldSet items = false → itemsArranged items = items
  | [], _ => rfl
  | v :: rest, free => by
    obtain ⟨first, others⟩ := Bool.or_eq_false_iff.mp free
    rw [itemsArranged, arranged_of_not_holdsSet first, itemsArranged_of_not_holdSet others]

theorem entriesArranged_of_not_holdSet : ∀ {entries : List (Value × Value)}, entriesHoldSet entries = false →
    entriesArranged entries = entries
  | [], _ => rfl
  | (key, v) :: rest, free => by
    obtain ⟨entry, others⟩ := Bool.or_eq_false_iff.mp free
    obtain ⟨first, second⟩ := Bool.or_eq_false_iff.mp entry
    rw [entriesArranged, arranged_of_not_holdsSet first, arranged_of_not_holdsSet second,
      entriesArranged_of_not_holdSet others]
end

@[simp] theorem arranged_ofTree (t : Tree) : (ofTree t).arranged = ofTree t :=
  arranged_of_not_holdsSet (holdsSet_ofTree t)

@[simp] theorem isVoid_arranged (v : Value) : v.arranged.isVoid = v.isVoid := by
  cases v with
  | list items => cases items <;> rfl
  | set items =>
    have size : (Runtime.arrange (itemsArranged items)).length = (itemsArranged items).length :=
      (Runtime.arrange_perm _).length_eq
    cases items with
    | nil => simpa [arranged, isVoid] using List.length_eq_zero_iff.mp size
    | cons v rest =>
      have present : Runtime.arrange (itemsArranged (v :: rest)) ≠ [] := by
        intro empty
        rw [empty] at size
        simp [itemsArranged] at size
      simpa [arranged, isVoid] using present
  | map entries => cases entries <;> rfl
  | _ => rfl

end Value

namespace Yaml

variable [Runtime] {text : String} {v : Value} {e : Error}

theorem load_of_read (found : read text = .ok v) : load text = .ok v.arranged := by
  rw [load, found]
  rfl

theorem load_eq_error : load text = .error e ↔ read text = .error e := by
  rw [load]
  cases read text with
  | ok v => exact iff_of_false nofun nofun
  | error e' => exact Iff.rfl

theorem load_eq_ok : load text = .ok v ↔ ∃ written, read text = .ok written ∧ v = written.arranged := by
  rw [load]
  cases read text with
  | ok written => simp [Functor.map, Except.map, eq_comm]
  | error e => exact iff_of_false nofun fun ⟨_, found, _⟩ => nomatch found

/-- A text that has no set in it is read alike by all processes. -/
theorem load_of_not_holdsSet (found : read text = .ok v) (free : v.holdsSet = false) : load text = .ok v := by
  rw [load_of_read found, Value.arranged_of_not_holdsSet free]

end Yaml
end AgentConfig
