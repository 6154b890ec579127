import AgentConfig.Tree

namespace AgentConfig

/-- Data as YAML knows it. Besides the data of a `Tree` there are keys of any kind, bytes, sets and
moments in time, and texts that hold half of a surrogate pair. -/
inductive Value where
  | null
  | bool (b : Bool)
  | int (n : Int)
  | float (x : Binary64)
  | text (s : String)
  | brokenText
  | bytes (content : List UInt8)
  | moment
  | list (items : List Value)
  | set (items : List Value)
  | map (entries : List (Value × Value))

namespace Value

mutual
def ofTree : Tree → Value
  | .null => .null
  | .bool b => .bool b
  | .int n => .int n
  | .float x => .float x
  | .text s => .text s
  | .list items => .list (ofTrees items)
  | .record entries => .map (ofEntries entries)

def ofTrees : List Tree → List Value
  | [] => []
  | t :: rest => ofTree t :: ofTrees rest

def ofEntries : List (String × Tree) → List (Value × Value)
  | [] => []
  | (key, t) :: rest => (.text key, ofTree t) :: ofEntries rest
end

/-- The value under a text key; of several the last. -/
def lookup (key : String) : List (Value × Value) → Option Value
  | [] => none
  | (k, v) :: rest =>
    match lookup key rest with
    | some later => some later
    | none =>
      match k with
      | .text s => if s = key then some v else none
      | _ => none

/-- The whole number that a value equals. -/
def whole? : Value → Option Int
  | .bool b => some (if b then 1 else 0)
  | .int n => some n
  | .float x => x.toInt?
  | _ => none

/-- Whether two keys are the same. Numbers are compared by value, and the truth values are numbers. -/
def sameKey (a b : Value) : Bool :=
  match a, b with
  | .null, .null => true
  | .text s, .text t => s == t
  | .bytes s, .bytes t => s == t
  | .float x, .float y => x.equal y
  | _, _ => a.whole?.isSome && a.whole? == b.whole?

/-- The keys without those that repeat an earlier one. -/
def distinct (keys : List Value) : List Value :=
  keys.foldl (fun kept key => if kept.any (sameKey key) then kept else kept ++ [key]) []

/-- What is left of a text with half of a surrogate pair. -/
def isBroken : Value → Bool
  | .brokenText => true
  | _ => false

/-- Null, false, zero and everything empty. -/
def isVoid : Value → Bool
  | .null => true
  | .bool b => !b
  | .int n => n == 0
  | .float x => x.isZero
  | .text s => s.isEmpty
  | .bytes content => content.isEmpty
  | .list items | .set items => items.isEmpty
  | .map entries => entries.isEmpty
  | .brokenText | .moment => false

end Value
end AgentConfig
