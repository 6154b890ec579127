namespace AgentConfig.Yaml

/-- The end of a text, seen as a character. No text may hold it. -/
def endMark : Char := '\x00'

def isBreak (c : Char) : Bool :=
  c == '\r' || c == '\n' || c == '\x85' || c == '\u2028' || c == '\u2029'

def isBreakOrEnd (c : Char) : Bool :=
  c == endMark || isBreak c

def isSpaceOrEnd (c : Char) : Bool :=
  c == ' ' || isBreakOrEnd c

def isBlankOrEnd (c : Char) : Bool :=
  c == '\t' || isSpaceOrEnd c

/-- Characters that a text may be written with. -/
def isAcceptable (c : Char) : Bool :=
  let n := c.toNat
  n == 9 || n == 10 || n == 13 || 0x20 ≤ n && n ≤ 0x7e || n == 0x85 || 0xa0 ≤ n && n ≤ 0xfffd || 0x10000 ≤ n

/-- A place in a text of at most `size` characters: what follows it and where it is. -/
structure Cursor where
  size : Nat
  rest : List Char
  index : Nat
  line : Nat
  column : Nat
  rest_le : rest.length ≤ size

namespace Cursor

def start (text : List Char) : Cursor where
  size := text.length
  rest := text
  index := 0
  line := 0
  column := 0
  rest_le := Nat.le_refl _

/-- More steps than there are characters ahead, so that a reading which takes a character with each step
is never cut short. -/
def fuel (c : Cursor) : Nat :=
  c.size + 1

theorem rest_length_lt_fuel (c : Cursor) : c.rest.length < c.fuel :=
  Nat.lt_succ_of_le c.rest_le

/-- The character `n` places ahead. -/
def peek (c : Cursor) (n : Nat) : Char :=
  c.rest.getD n endMark

def head (c : Cursor) : Char :=
  c.rest.headD endMark

/-- Whether a line ends after `ch`, which `rest` follows. -/
def endsLine (ch : Char) (rest : List Char) : Bool :=
  isBreak ch && !(ch == '\r' && rest.head? == some '\n')

/-- One character on. A byte order mark takes up no column. -/
def next (c : Cursor) : Cursor :=
  match c with
  | { rest := [], .. } => c
  | { size, rest := ch :: rest, index, line, column, rest_le } =>
    { size
      rest
      index := index + 1
      line := if endsLine ch rest then line + 1 else line
      column := if endsLine ch rest then 0 else if ch = '\ufeff' then column else column + 1
      rest_le := Nat.le_of_succ_le rest_le }

def skip : Nat → Cursor → Cursor
  | 0, c => c
  | n + 1, c => skip n c.next

/-- The characters ahead that satisfy `p`, and the place after them. -/
def span (p : Char → Bool) (c : Cursor) : List Char × Cursor :=
  let run := c.rest.takeWhile p
  (run, c.skip run.length)

def skipWhile (p : Char → Bool) (c : Cursor) : Cursor :=
  (c.span p).2

def skipSpaces (c : Cursor) : Cursor :=
  c.skipWhile (· == ' ')

/-- Past a comment, if one starts here. -/
def skipComment (c : Cursor) : Cursor :=
  if c.head == '#' then c.skipWhile (!isBreakOrEnd ·) else c

/-- Past a line break, if one is here. Its text is a line feed, except that the two separators stand
for themselves. -/
def lineBreak (c : Cursor) : List Char × Cursor :=
  match c.rest with
  | '\r' :: '\n' :: _ => (['\n'], c.skip 2)
  | ch :: _ =>
    if ch == '\u2028' || ch == '\u2029' then ([ch], c.next)
    else if isBreak ch then (['\n'], c.next)
    else ([], c)
  | [] => ([], c)

/-- Whether three marks and then a blank are ahead: the start or the end of a document. -/
def atMarks (c : Cursor) (mark : Char) : Bool :=
  c.peek 0 == mark && c.peek 1 == mark && c.peek 2 == mark && isBlankOrEnd (c.peek 3)

def atSeparator (c : Cursor) : Bool :=
  c.atMarks '-' || c.atMarks '.'

end Cursor
end AgentConfig.Yaml
