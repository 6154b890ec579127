import AgentConfig.Yaml.Scalar.Block
import AgentConfig.Yaml.Token

namespace AgentConfig.Yaml

/-- A token that turns out to be a key if a colon follows it on its line. -/
structure PossibleKey where
  number : Nat
  required : Bool
  index : Nat
  line : Nat
  column : Nat

/-- The state of reading tokens. `indents` holds the columns of the open blocks, innermost first, and
`keys` the possible key of every open flow collection and of the block around them. The tokens read so
far are held newest first. -/
structure Lexer where
  cursor : Cursor
  indents : List Nat
  keys : List (Option PossibleKey)
  allowKey : Bool
  tokens : List Token
  count : Nat

namespace Lexer

def start (text : List Char) : Lexer where
  cursor := .start text
  indents := []
  keys := [none]
  allowKey := true
  tokens := []
  count := 0

def indent (s : Lexer) : Int :=
  match s.indents with
  | [] => -1
  | column :: _ => column

def inFlow (s : Lexer) : Bool :=
  s.keys.length != 1

def push (s : Lexer) (t : Token) : Lexer :=
  { s with tokens := t :: s.tokens, count := s.count + 1 }

/-- Puts a token in front of the one with some number. -/
def insert (s : Lexer) (number : Nat) (t : Token) : Lexer :=
  let later := s.count - number
  { s with tokens := s.tokens.take later ++ t :: s.tokens.drop later, count := s.count + 1 }

/-- A key stands on one line and is at most 1024 characters long. -/
def isStale (s : Lexer) (key : PossibleKey) : Bool :=
  key.line != s.cursor.line || 1024 < s.cursor.index - key.index

/-- Forgets possible keys that the text has left behind. A required one is missed. -/
def dropStale (s : Lexer) : Except Error Lexer :=
  let missed : Option PossibleKey → Bool
    | some key => s.isStale key && key.required
    | none => false
  if s.keys.any missed then .error (.lexical .simpleKey)
  else .ok { s with keys := s.keys.map fun key => key.filter (!s.isStale ·) }

/-- Forgets the possible key of the innermost level. -/
def removeKey (s : Lexer) : Except Error Lexer :=
  match s.keys with
  | some key :: rest => if key.required then .error (.lexical .simpleKey) else .ok { s with keys := none :: rest }
  | _ => .ok s

/-- Remembers that the next token may be a key. It must be one where a block mapping goes on. -/
def saveKey (s : Lexer) : Except Error Lexer :=
  if !s.allowKey then .ok s
  else do
    let s ← s.removeKey
    let key : PossibleKey := {
      number := s.count
      required := !s.inFlow && s.indent == s.cursor.column
      index := s.cursor.index
      line := s.cursor.line
      column := s.cursor.column }
    .ok { s with keys := some key :: s.keys.drop 1 }

/-- Closes the blocks that are indented by more than `column`. -/
def unwind (column : Int) : List Nat → Lexer → Lexer
  | [], s => { s with indents := [] }
  | open_ :: rest, s =>
    if column < open_ then unwind column rest (s.push .blockEnd) else { s with indents := open_ :: rest }

def unwindTo (s : Lexer) (column : Int) : Lexer :=
  if s.inFlow then s else unwind column s.indents s

/-- Opens a block at a column, unless one is open there already. -/
def openBlock (s : Lexer) (column : Nat) : Option Lexer :=
  if s.indent < column then some { s with indents := column :: s.indents } else none

/-- Past spaces, comments and line breaks. After a line break in block context a key may follow. -/
def skipToToken : Nat → Lexer → Lexer
  | 0, s => s
  | fuel + 1, s =>
    let c := s.cursor.skipSpaces.skipComment
    if isBreak c.head then
      skipToToken fuel { s with cursor := c.lineBreak.2, allowKey := s.allowKey || !s.inFlow }
    else { s with cursor := c }

/-- Past a byte order mark at the very start. -/
def skipMark (s : Lexer) : Lexer :=
  if s.cursor.index = 0 && s.cursor.head == '\ufeff' then { s with cursor := s.cursor.next } else s

/-- Reads one token that consists of `n` characters. -/
def take (s : Lexer) (n : Nat) (t : Token) : Lexer :=
  { s.push t with cursor := s.cursor.skip n }

def endText (s : Lexer) : Except Error Lexer := do
  let s ← (s.unwindTo (-1)).removeKey
  .ok ((s.push .textEnd))

def directive (s : Lexer) : Except Error Lexer := do
  let s ← (s.unwindTo (-1)).removeKey
  let (d, c) ← readDirective s.cursor
  .ok { s.push (.directive d) with cursor := c, allowKey := false }

def documentMarks (s : Lexer) (t : Token) : Except Error Lexer := do
  let s ← (s.unwindTo (-1)).removeKey
  .ok { s.take 3 t with allowKey := false }

def flowStart (s : Lexer) (t : Token) : Except Error Lexer := do
  let s ← s.saveKey
  .ok { s.take 1 t with keys := none :: s.keys, allowKey := true }

def flowEnd (s : Lexer) (t : Token) : Except Error Lexer := do
  let s ← s.removeKey
  .ok { s.take 1 t with keys := s.keys.drop 1, allowKey := false }

def flowComma (s : Lexer) : Except Error Lexer := do
  let s ← s.removeKey
  .ok { s.take 1 .comma with allowKey := true }

/-- Opens a block in front of a mark that may only stand where a key may. -/
def openFor (s : Lexer) (start : Token) (fault : LexicalFault) : Except Error Lexer :=
  if s.inFlow then .ok s
  else if !s.allowKey then .error (.lexical fault)
  else .ok (((s.openBlock s.cursor.column).map (·.push start)).getD s)

def blockEntry (s : Lexer) : Except Error Lexer := do
  let s ← (← s.openFor .sequenceStart .sequenceEntry).removeKey
  .ok { s.take 1 .entry with allowKey := true }

def explicitKey (s : Lexer) : Except Error Lexer := do
  let s ← (← s.openFor .mappingStart .mappingKey).removeKey
  .ok { s.take 1 .key with allowKey := !s.inFlow }

/-- The colon after a key. If the key was not marked as one, the mark is put in front of it now, and
with it the start of the mapping that the key opens. -/
def colon (s : Lexer) : Except Error Lexer :=
  match s.keys with
  | some key :: rest =>
    let s := { s with keys := none :: rest, allowKey := false }.insert key.number .key
    let opened := if s.inFlow then none else s.openBlock key.column
    .ok (((opened.map (·.insert key.number .mappingStart)).getD s).take 1 .value)
  | _ => do
    let s ← (← s.openFor .mappingStart .mappingValue).removeKey
    .ok { s.take 1 .value with allowKey := !s.inFlow }

/-- A token that may be a key. -/
def keyToken (s : Lexer) (read : Cursor → Except Error (Token × Cursor)) : Except Error Lexer := do
  let s ← s.saveKey
  let (t, c) ← read s.cursor
  .ok { s.push t with cursor := c, allowKey := false }

def blockScalar (s : Lexer) : Except Error Lexer := do
  let s ← s.removeKey
  let (text, c) ← readBlock s.indent s.cursor
  .ok { s.push (.scalar (some text) false) with cursor := c, allowKey := true }

def plainScalar (s : Lexer) : Except Error Lexer := do
  let s ← s.saveKey
  let scalar := readPlain s.inFlow (s.indent + 1).toNat s.cursor
  .ok { s.push (.scalar (some scalar.text) true) with cursor := scalar.after, allowKey := scalar.brokeLine }

/-- Whether a plain scalar may start with `c`, which is followed by `next`. -/
def startsPlain (flow : Bool) (c next : Char) : Bool :=
  !(isBlankOrEnd c || "-?:,[]\x7b\x7d#&*!|>'\"%@`".toList.contains c) ||
    (!isBlankOrEnd next && (c == '-' || (!flow && (c == '?' || c == ':'))))

/-- Reads the next token, and with it the marks that it brings about. -/
def token (s : Lexer) : Except Error Lexer :=
  let c := s.cursor
  let blankNext := isBlankOrEnd (c.peek 1)
  let flow := s.inFlow
  match c.head with
  | '\x00' => s.endText
  | '[' => s.flowStart .flowSequenceStart
  | '{' => s.flowStart .flowMappingStart
  | ']' => s.flowEnd .flowSequenceEnd
  | '}' => s.flowEnd .flowMappingEnd
  | ',' => s.flowComma
  | '*' => s.keyToken fun c => do
    let (name, c) ← readName .aliasName c.next
    .ok (.aliasTo name, c)
  | '&' => s.keyToken fun c => do
    let (name, c) ← readName .anchor c.next
    .ok (.anchor name, c)
  | '!' => s.keyToken readTag
  | '\'' | '"' => s.keyToken fun c => do
    let (text, c) ← readQuoted c
    .ok (.scalar text false, c)
  | ch =>
    if ch == '%' && c.column == 0 then s.directive
    else if c.column == 0 && c.atMarks '-' then s.documentMarks .documentStart
    else if c.column == 0 && c.atMarks '.' then s.documentMarks .documentEnd
    else if ch == '-' && blankNext then s.blockEntry
    else if ch == '?' && (flow || blankNext) then s.explicitKey
    else if ch == ':' && (flow || blankNext) then s.colon
    else if (ch == '|' || ch == '>') && !flow then s.blockScalar
    else if startsPlain flow ch (c.peek 1) then s.plainScalar
    else .error (.lexical .token)

def step (s : Lexer) : Except Error Lexer := do
  let s ← (skipToToken s.cursor.fuel s.skipMark).dropStale
  (s.unwindTo s.cursor.column).token

/-- The tokens that are certain: none of them can turn out to follow the mark of a key. -/
def certain (s : Lexer) : List Token :=
  let bound := s.keys.foldl (fun n key => (key.map (min n ·.number)).getD n) s.count
  s.tokens.reverse.take bound

/-- Reads tokens up to the end of the text or the first fault. -/
def run : Nat → Lexer → List Token
  | 0, s => s.tokens.reverse
  | fuel + 1, s =>
    match s.step with
    | .error e => s.certain ++ [.fault e]
    | .ok next =>
      if next.tokens.head? matches some .textEnd then next.tokens.reverse
      else
        match next.dropStale with
        | .error e => s.certain ++ [.fault e]
        | .ok next => run fuel next

end Lexer

/-- The tokens of a text, which may hold no control characters. -/
def tokensOf (text : List Char) : List Token :=
  match text.find? (!isAcceptable ·) with
  | some c => [.fault (.character c.toNat)]
  | none => (Lexer.start text).run (text.length + 2)

end AgentConfig.Yaml
