import AgentConfig.Value

namespace AgentConfig

/-- What a process brings along that none of its inputs decides: the order in which it goes through the items of a set,
which is another one in every process, and how deep its stack lets JSON be nested. -/
class Runtime where
  arrange : List Value → List Value
  arrange_perm : ∀ items, (arrange items).Perm items
  jsonDepth : Nat
  jsonDepth_enough : 100 ≤ jsonDepth

/-- Sets are gone through in the order in which they are written. -/
instance Runtime.inOrder : Runtime where
  arrange := id
  arrange_perm := List.Perm.refl
  jsonDepth := 900
  jsonDepth_enough := by decide

namespace Value

variable [Runtime]

mutual
/-- A value with the items of every set in the order in which they are gone through. -/
def arranged : Value → Value
  | .null => .null
  | .bool b => .bool b
  | .int n => .int n
  | .float x => .float x
  | .text s => .text s
  | .brokenText => .brokenText
  | .bytes content => .bytes content
  | .moment => .moment
  | .list items => .list (itemsArranged items)
  | .set items => .set (Runtime.arrange (itemsArranged items))
  | .map entries => .map (entriesArranged entries)

def itemsArranged : List Value → List Value
  | [] => []
  | v :: rest => arranged v :: itemsArranged rest

def entriesArranged : List (Value × Value) → List (Value × Value)
  | [] => []
  | (key, v) :: rest => (arranged key, arranged v) :: entriesArranged rest
end

end Value
end AgentConfig
