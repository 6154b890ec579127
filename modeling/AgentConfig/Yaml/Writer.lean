import AgentConfig.Json.Writer
import AgentConfig.Schema.Scalar
import AgentConfig.Tree
import AgentConfig.Yaml.Scalar.Style

namespace AgentConfig.Yaml

/-- Numbers in YAML: a number always has a point, `1.0e+16`. -/
def numberLayout : NumberLayout where
  least := -4
  greatest := 16
  exponentDigits := 2
  pointBeforeExponent := true
  infinity := ".inf"
  nan := ".nan"

def spaces (n : Nat) : List Char :=
  List.replicate n ' '

mutual
/-- Writes data after the key or the dash of a block that is indented by `indent`, from some column on. -/
def writeAfter (indent column : Nat) (dash : Bool) : Tree → List Char
  | .null => " null".toList
  | .bool b => (if b then " true" else " false").toList
  | .int n => ' ' :: Json.writeInt n
  | .float x => ' ' :: numberLayout.write x
  | .text s => ' ' :: writeText (indent + 2) (column + 1) s.toList
  | .list [] => " []".toList
  | .record [] => " \x7b\x7d".toList
  | .list (t :: rest) =>
    if dash then " -".toList ++ writeAfter (indent + 2) (indent + 3) true t ++ writeItems (indent + 2) rest
    else newLine indent ++ '-' :: writeAfter indent (indent + 1) true t ++ writeItems indent rest
  | .record ((key, t) :: rest) =>
    (if dash then [' '] else newLine (indent + 2)) ++ key.toList ++ ':' ::
      writeAfter (indent + 2) (indent + 2 + key.toList.length + 1) false t ++ writeEntries (indent + 2) rest

/-- Writes the items after the first one. -/
def writeItems (indent : Nat) : List Tree → List Char
  | [] => []
  | t :: rest => newLine indent ++ '-' :: writeAfter indent (indent + 1) true t ++ writeItems indent rest

/-- Writes the entries after the first one. -/
def writeEntries (indent : Nat) : List (String × Tree) → List Char
  | [] => []
  | (key, t) :: rest =>
    newLine indent ++ key.toList ++ ':' :: writeAfter indent (indent + key.toList.length + 1) false t ++
      writeEntries indent rest
end

/-- Writes a record whose keys are plain words. -/
def writeRecord : List (String × Tree) → List Char
  | [] => "\x7b\x7d\n".toList
  | (key, t) :: rest =>
    key.toList ++ ':' :: writeAfter 0 (key.toList.length + 1) false t ++ writeEntries 0 rest ++ ['\n']

mutual
/-- Whether every integer is short enough to be written. -/
def isWritable : Tree → Bool
  | .int n => (decimalDigits n.natAbs).length ≤ digitLimit
  | .list items => areWritable items
  | .record entries => entriesWritable entries
  | _ => true

def areWritable : List Tree → Bool
  | [] => true
  | t :: rest => isWritable t && areWritable rest

def entriesWritable : List (String × Tree) → Bool
  | [] => true
  | (_, t) :: rest => isWritable t && entriesWritable rest
end

end AgentConfig.Yaml
