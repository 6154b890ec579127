import AgentConfig.Number.Layout
import AgentConfig.Text.Quoted
import AgentConfig.Tree

namespace AgentConfig.Json

/-- Numbers in JSON: `0.00001`, `1e-7`, `1e+16`. -/
def numberLayout : NumberLayout where
  least := -5
  greatest := 16
  exponentDigits := 1
  pointBeforeExponent := false
  infinity := "null"
  nan := "null"

/-- A character inside a text. Only quotes, backslashes and control characters are escaped. -/
def textChar (c : Char) : List Char :=
  if c = '"' then ['\\', '"']
  else if c = '\\' then ['\\', '\\']
  else if c = '\x08' then ['\\', 'b']
  else if c = '\t' then ['\\', 't']
  else if c = '\n' then ['\\', 'n']
  else if c = '\x0c' then ['\\', 'f']
  else if c = '\r' then ['\\', 'r']
  else if c.toNat < 0x20 then '\\' :: 'u' :: Text.hexDigits 4 c.toNat
  else [c]

def writeText (s : String) : List Char :=
  '"' :: s.toList.flatMap textChar ++ ['"']

def writeInt (n : Int) : List Char :=
  if n < 0 then '-' :: decimalDigits n.natAbs else decimalDigits n.natAbs

/-- How a text is spread over lines: not at all, or with so many spaces for each level. -/
abbrev Indent := Option Nat

/-- The line break before an item at some level. -/
def lineBreak (indent : Indent) (level : Nat) : List Char :=
  match indent with
  | none => []
  | some width => '\n' :: List.replicate (width * level) ' '

def writeKey (indent : Indent) (key : String) : List Char :=
  writeText key ++ ':' :: (if indent.isSome then [' '] else [])

mutual
/-- Writes data that stand at some level. -/
def writeAt (indent : Indent) (level : Nat) : Tree → List Char
  | .null => "null".toList
  | .bool b => if b then "true".toList else "false".toList
  | .int n => writeInt n
  | .float x => numberLayout.write x
  | .text s => writeText s
  | .list [] => ['[', ']']
  | .list (t :: rest) =>
    '[' :: lineBreak indent (level + 1) ++ writeAt indent (level + 1) t ++ writeItems indent level rest
  | .record [] => ['{', '}']
  | .record ((key, t) :: rest) =>
    '{' :: lineBreak indent (level + 1) ++ writeKey indent key ++ writeAt indent (level + 1) t ++
      writeEntries indent level rest

/-- Writes the items after the first one and the closing bracket. -/
def writeItems (indent : Indent) (level : Nat) : List Tree → List Char
  | [] => lineBreak indent level ++ [']']
  | t :: rest =>
    ',' :: lineBreak indent (level + 1) ++ writeAt indent (level + 1) t ++ writeItems indent level rest

/-- Writes the entries after the first one and the closing brace. -/
def writeEntries (indent : Indent) (level : Nat) : List (String × Tree) → List Char
  | [] => lineBreak indent level ++ ['}']
  | (key, t) :: rest =>
    ',' :: lineBreak indent (level + 1) ++ writeKey indent key ++ writeAt indent (level + 1) t ++
      writeEntries indent level rest
end

def write (indent : Indent) (t : Tree) : String :=
  String.ofList (writeAt indent 0 t)

end AgentConfig.Json
