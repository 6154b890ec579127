import AgentConfig.Number.Decimal
import AgentConfig.Yaml.Error
import AgentConfig.Yaml.Scalar.Plain

namespace AgentConfig.Yaml

/-- What becomes of the line breaks at the end of a block scalar. -/
inductive Chomping where
  | clip
  | strip
  | keep
  deriving DecidableEq

structure BlockHeader where
  chomping : Chomping
  indent : Option Nat

private def chomping? (c : Char) : Option Chomping :=
  if c = '+' then some .keep else if c = '-' then some .strip else none

/-- Reads a number for the indentation, which may not be zero. -/
def blockIndent (c : Cursor) : Except Error (Option Nat × Cursor) :=
  if isDigit c.head then
    if c.head == '0' then .error (.lexical .blockScalar) else .ok (some (c.head.toNat - '0'.toNat), c.next)
  else .ok (none, c)

/-- Reads the signs after the mark of a block scalar, in either order, and the rest of the line. -/
def blockHeader (c : Cursor) : Except Error (BlockHeader × Cursor) := do
  let (header, c) ← match chomping? c.head with
    | some chomping => do
      let (indent, c) ← blockIndent c.next
      pure ({ chomping, indent : BlockHeader }, c)
    | none => do
      let (indent, c) ← blockIndent c
      match indent, chomping? c.head with
      | some _, some chomping => pure ({ chomping, indent : BlockHeader }, c.next)
      | _, _ => pure ({ chomping := .clip, indent : BlockHeader }, c)
  if !isSpaceOrEnd c.head then .error (.lexical .blockScalar)
  else
    let c := c.skipSpaces.skipComment
    if isBreakOrEnd c.head then .ok (header, c.lineBreak.2) else .error (.lexical .blockScalar)

/-- The empty lines before the first line of text, and the widest indentation found on the way. -/
def leadingBreaks : Nat → Nat → Cursor → List Char × Nat × Cursor
  | 0, widest, c => ([], widest, c)
  | fuel + 1, widest, c =>
    if c.head == ' ' then
      let c := c.next
      leadingBreaks fuel (max widest c.column) c
    else if isBreak c.head then
      let (breakText, c) := c.lineBreak
      let (breaks, widest, c) := leadingBreaks fuel widest c
      (breakText ++ breaks, widest, c)
    else ([], widest, c)

/-- Past spaces up to some column. -/
def skipToColumn (column : Nat) : Nat → Cursor → Cursor
  | 0, c => c
  | fuel + 1, c => if c.column < column && c.head == ' ' then skipToColumn column fuel c.next else c

/-- Empty lines between lines that are indented by `indent`. -/
def blockBreaks (indent : Nat) : Nat → Cursor → List Char × Cursor
  | 0, c => ([], c)
  | fuel + 1, c =>
    let c := skipToColumn indent c.fuel c
    if isBreak c.head then
      let (breakText, c) := c.lineBreak
      let (breaks, c) := blockBreaks indent fuel c
      (breakText ++ breaks, c)
    else ([], c)

def isSpaceOrTab (c : Char) : Bool :=
  c == ' ' || c == '\t'

/-- The line break after a line and the empty lines after that, at the end of a block scalar. -/
def chomped (chomping : Chomping) (breakText breaks : List Char) : List Char :=
  match chomping with
  | .strip => []
  | .clip => breakText
  | .keep => breakText ++ breaks

/-- Reads the lines of a block scalar from the first character of one of them. -/
def blockLines (folded : Bool) (chomping : Chomping) (indent : Nat) : Nat → Cursor → List Char × Cursor
  | 0, c => ([], c)
  | fuel + 1, c =>
    let leadingText := !isSpaceOrTab c.head
    let (line, c) := c.span (!isBreakOrEnd ·)
    let (breakText, c) := c.lineBreak
    let (breaks, c) := blockBreaks indent c.fuel c
    if c.column = indent && !c.rest.isEmpty then
      let (more, c') := blockLines folded chomping indent fuel c
      let joint :=
        if folded && breakText == ['\n'] && leadingText && !isSpaceOrTab c.head then
          if breaks.isEmpty then [' '] else []
        else breakText
      (line ++ joint ++ breaks ++ more, c')
    else (line ++ chomped chomping breakText breaks, c)

/-- Reads a block scalar from its mark on, inside a block that is indented by `parent`. -/
def readBlock (parent : Int) (c : Cursor) : Except Error (List Char × Cursor) := do
  let folded := c.head == '>'
  let (header, c) ← blockHeader c.next
  let least := (max (parent + 1) 1).toNat
  let (breaks, indent, c) := match header.indent with
    | none =>
      let (breaks, widest, c) := leadingBreaks c.fuel 0 c
      (breaks, max least widest, c)
    | some n =>
      let indent := least + n - 1
      let (breaks, c) := blockBreaks indent c.fuel c
      (breaks, indent, c)
  if c.column = indent && !c.rest.isEmpty then
    let (text, c) := blockLines folded header.chomping indent c.fuel c
    .ok (breaks ++ text, c)
  else .ok (if header.chomping = .keep then breaks else [], c)

end AgentConfig.Yaml
