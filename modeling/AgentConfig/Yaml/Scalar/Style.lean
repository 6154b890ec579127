import AgentConfig.Text.Quoted
import AgentConfig.Yaml.Tag

namespace AgentConfig.Yaml

/-- How a scalar is written. -/
inductive Style where
  | plain
  | single
  | double
  deriving DecidableEq

/-- Lines are folded at the first space past this column. -/
def lineWidth : Nat := 80

/-- Characters that quotes need not hide: line feeds and the visible part of ASCII. -/
def isVisible (c : Char) : Bool :=
  c == '\n' || ' ' ≤ c && c ≤ '~'

/-- Whether a space and a line feed follow each other in this order. -/
def hasPair (a b : Char) : List Char → Bool
  | c :: d :: rest => (c == a && d == b) || hasPair a b (d :: rest)
  | _ => false

/-- Whether a character past the first would end a plain scalar: a colon before a blank, or a number
sign after one. -/
def breaksPlain : Char → List Char → Bool
  | _, [] => false
  | before, c :: rest =>
    (c == ':' && isBlankOrEnd (rest.headD endMark)) || (c == '#' && isBlankOrEnd before) || breaksPlain c rest

/-- Whether the start of a text has a meaning of its own. -/
def startsWithMark (s : List Char) : Bool :=
  match s with
  | [] => false
  | c :: rest =>
    "#,[]\x7b\x7d&*!|>'\"%@`".toList.contains c || ("?:-".toList.contains c && isBlankOrEnd (rest.headD endMark)) ||
      s.take 3 == ['-', '-', '-'] || s.take 3 == ['.', '.', '.']

def hasSpaceAtEnd (s : List Char) : Bool :=
  let atEdge (c : Option Char) : Bool := c == some ' ' || c == some '\n'
  atEdge s.head? || atEdge s.getLast?

/-- Whether the characters of a text allow it to stand without quotes. -/
def allowsPlain (s : List Char) : Bool :=
  s.all (fun c => isVisible c && c != '\n') && !startsWithMark s && !hasSpaceAtEnd s &&
    !breaksPlain ((s.headD ' ')) (s.drop 1)

/-- Whether a text keeps its spaces and line feeds between single quotes. -/
def allowsSingle (s : List Char) : Bool :=
  s.all isVisible && !hasPair ' ' '\n' s && !hasPair '\n' ' ' s

/-- The style of a text: plain if it reads back as a text, else the simplest quotes that hold it. -/
def styleOf (s : List Char) : Style :=
  if Tag.ofPlain s = .text ∧ allowsPlain s then .plain
  else if allowsSingle s then .single
  else .double

/-- The start of a new line. -/
def newLine (indent : Nat) : List Char :=
  '\n' :: List.replicate indent ' '

/-- Writes a plain scalar from some column on. A single space past the width becomes a line end. -/
def writePlain (indent : Nat) : Bool → Nat → List Char → List Char
  | _, _, [] => []
  | afterSpace, column, c :: rest =>
    if c = ' ' ∧ !afterSpace ∧ rest.head? ≠ some ' ' ∧ lineWidth < column then
      newLine indent ++ writePlain indent true indent rest
    else c :: writePlain indent (c == ' ') (column + 1) rest

/-- Writes the inside of a single-quoted scalar. A quote is written twice, and line feeds once more
than they are. A single space past the width becomes a line end, but not at the ends of the text. -/
def writeSingle (indent : Nat) : Char → Nat → List Char → List Char
  | _, _, [] => []
  | before, column, c :: rest =>
    if c = '\n' then
      (if before = '\n' then [] else ['\n']) ++
        (if rest.head? = some '\n' then '\n' :: writeSingle indent c 0 rest
        else newLine indent ++ writeSingle indent c indent rest)
    else if c = '\'' then '\'' :: '\'' :: writeSingle indent c (column + 2) rest
    else if c = ' ' ∧ before ≠ ' ' ∧ before ≠ endMark ∧ rest ≠ [] ∧ rest.head? ≠ some ' ' ∧ lineWidth < column then
      newLine indent ++ writeSingle indent c indent rest
    else c :: writeSingle indent c (column + 1) rest

/-- Characters with an escape of their own. -/
def shortEscapes : List (Char × Char) := [
    ('\x00', '0'), ('\x07', 'a'), ('\x08', 'b'), ('\t', 't'), ('\n', 'n'), ('\x0b', 'v'), ('\x0c', 'f'),
    ('\r', 'r'), ('\x1b', 'e'), ('"', '"'), ('\\', '\\'), ('\x85', 'N'), ('\xa0', '_'), ('\u2028', 'L'),
    ('\u2029', 'P')]

def upperHex (width n : Nat) : List Char :=
  (Text.hexDigits width n).map Char.toUpper

/-- The escape of a character that cannot stand for itself between double quotes. -/
def escape? (c : Char) : Option (List Char) :=
  match shortEscapes.lookup c with
  | some letter => some ['\\', letter]
  | none =>
    if ' ' ≤ c ∧ c ≤ '~' then none
    else if c.toNat ≤ 0xff then some ('\\' :: 'x' :: upperHex 2 c.toNat)
    else if c.toNat ≤ 0xffff then some ('\\' :: 'u' :: upperHex 4 c.toNat)
    else some ('\\' :: 'U' :: upperHex 8 c.toNat)

/-- Writes the inside of a double-quoted scalar. Past the width a line ends with a backslash: in front
of a space or of the first character after an escape, or behind an escape. A space at the start of the
next line is marked by a backslash too. -/
def writeDouble (indent : Nat) : Bool → Bool → Nat → List Char → List Char
  | _, _, _, [] => []
  | first, afterEscape, column, c :: rest =>
    let inner := !first && !rest.isEmpty
    match escape? c with
    | some escape =>
      let column := column + escape.length
      if inner && lineWidth + 1 < column then
        let mark := if rest.head? = some ' ' then ['\\'] else []
        escape ++ '\\' :: newLine indent ++ mark ++ writeDouble indent false true (indent + mark.length) rest
      else escape ++ writeDouble indent false true column rest
    | none =>
      if inner && (c == ' ' || afterEscape) && lineWidth < column then
        let mark := if c = ' ' then ['\\'] else []
        '\\' :: newLine indent ++ mark ++ c :: writeDouble indent false false (indent + mark.length + 1) rest
      else c :: writeDouble indent false false (column + 1) rest

/-- Writes a text from some column on; the lines that follow are indented. -/
def writeText (indent column : Nat) (s : List Char) : List Char :=
  match styleOf s with
  | .plain => writePlain indent false column s
  | .single => '\'' :: writeSingle indent endMark (column + 1) s ++ ['\'']
  | .double => '"' :: writeDouble indent true false (column + 1) s ++ ['"']

end AgentConfig.Yaml
