import AgentConfig.Json.Token
import AgentConfig.Yaml.Error
import AgentConfig.Yaml.Scalar.Plain

namespace AgentConfig.Yaml

/-- A piece of a quoted scalar. A piece is lost if it is half of a surrogate pair. -/
abbrev Piece := Option (List Char)

/-- Both pieces, lost if one of them is. -/
def Piece.append (a b : Piece) : Piece :=
  match a, b with
  | some a, some b => some (a ++ b)
  | _, _ => none

def escapeReplacements : List (Char × Char) := [
    ('0', '\x00'), ('a', '\x07'), ('b', '\x08'), ('t', '\t'), ('\t', '\t'), ('n', '\n'), ('v', '\x0b'),
    ('f', '\x0c'), ('r', '\r'), ('e', '\x1b'), (' ', ' '), ('"', '"'), ('\\', '\\'), ('/', '/'),
    ('N', '\x85'), ('_', '\xa0'), ('L', '\u2028'), ('P', '\u2029')]

/-- How many hexadecimal digits follow the letter of an escape. -/
def escapeWidth? (c : Char) : Option Nat :=
  if c = 'x' then some 2 else if c = 'u' then some 4 else if c = 'U' then some 8 else none

/-- The value of exactly `width` hexadecimal digits at the front. -/
def hexNumber? (width : Nat) (s : List Char) : Option Nat :=
  let digits := s.take width
  if digits.length = width then
    digits.foldl (fun n c => do return 16 * (← n) + (← Json.hexValue? c)) (some 0)
  else none

/-- The character with a code point. -/
def codePointPiece (code : Nat) : Except Error Piece :=
  if 0x80000000 ≤ code then .error (.scalar .codePointSize)
  else if 0x110000 ≤ code then .error (.scalar .codePoint)
  else if 0xd800 ≤ code ∧ code < 0xe000 then .ok none
  else .ok (some [Char.ofNat code])

/-- Line breaks and the blanks around them inside quotes. No document may end there. -/
def quotedBreaks : Nat → Cursor → Except Error (List Char × Cursor)
  | 0, c => .ok ([], c)
  | fuel + 1, c =>
    if c.atSeparator then .error (.lexical .quotedScalar)
    else
      let c := c.skipWhile fun ch => ch == ' ' || ch == '\t'
      if isBreak c.head then do
        let (breakText, c) := c.lineBreak
        let (breaks, c) ← quotedBreaks fuel c
        .ok (breakText ++ breaks, c)
      else .ok ([], c)

/-- What an escape stands for, read after its backslash. -/
def readEscape (c : Cursor) : Except Error (Piece × Cursor) :=
  match escapeReplacements.lookup c.head with
  | some ch => .ok (some [ch], c.next)
  | none =>
    match escapeWidth? c.head with
    | some width =>
      match hexNumber? width c.next.rest with
      | none => .error (.lexical .doubleQuotedScalar)
      | some code => do
        let piece ← codePointPiece code
        .ok (piece, c.skip (width + 1))
    | none =>
      if isBreak c.head then do
        let (_, c) := c.lineBreak
        let (breaks, c) ← quotedBreaks c.fuel c
        .ok (some breaks, c)
      else .error (.lexical .doubleQuotedScalar)

/-- Blanks and line breaks between the words inside quotes. -/
def quotedGap (c : Cursor) : Except Error (List Char × Cursor) :=
  let (blanks, c) := c.span fun ch => ch == ' ' || ch == '\t'
  if c.rest.isEmpty then .error (.lexical .quotedScalar)
  else if isBreak c.head then do
    let (breakText, c) := c.lineBreak
    let (breaks, c) ← quotedBreaks c.fuel c
    .ok (foldBreaks breakText breaks, c)
  else .ok (blanks, c)

/-- Reads the inside of a quoted scalar and its closing quote. -/
def quotedRest (double : Bool) : Nat → Cursor → Except Error (Piece × Cursor)
  | 0, _ => .error (.lexical .quotedScalar)
  | fuel + 1, c =>
    let continueWith (piece : Piece) (c : Cursor) : Except Error (Piece × Cursor) := do
      let (more, c) ← quotedRest double fuel c
      .ok (piece.append more, c)
    match c.rest with
    | [] => .error (.lexical .quotedScalar)
    | ch :: _ =>
      if isBlankOrEnd ch then do
        let (gap, c) ← quotedGap c
        continueWith (some gap) c
      else if double then
        if ch = '"' then .ok (some [], c.next)
        else if ch = '\\' then do
          let (piece, c) ← readEscape c.next
          continueWith piece c
        else continueWith (some [ch]) c.next
      else if ch = '\'' then
        if c.peek 1 == '\'' then continueWith (some ['\'']) (c.skip 2) else .ok (some [], c.next)
      else continueWith (some [ch]) c.next

/-- Reads a quoted scalar from its opening quote on. -/
def readQuoted (c : Cursor) : Except Error (Piece × Cursor) :=
  quotedRest (c.head == '"') c.fuel c.next

end AgentConfig.Yaml
