import AgentConfig.Yaml.Cursor

namespace AgentConfig.Yaml

/-- A scalar without quotes, and whether a line ended after its last word. -/
structure PlainScalar where
  text : List Char
  brokeLine : Bool
  after : Cursor

/-- Whether a plain word ends before `c`, which is followed by `next`. -/
def endsPlain (flow : Bool) (c next : Char) : Bool :=
  isBlankOrEnd c || (c == ':' && (isBlankOrEnd next || (flow && ",[]\x7b\x7d".toList.contains next))) ||
    (flow && ",?[]\x7b\x7d".toList.contains c)

/-- The characters up to the end of a plain word. -/
def plainWord (flow : Bool) : List Char → List Char
  | [] => []
  | c :: rest => if endsPlain flow c (rest.headD endMark) then [] else c :: plainWord flow rest

/-- Line breaks and spaces before the next word of a plain scalar. Nothing if a document ends here. -/
def plainBreaks : Nat → Cursor → Option (List Char) × Cursor
  | 0, c => (some [], c)
  | fuel + 1, c =>
    if c.head == ' ' then plainBreaks fuel c.next
    else if isBreak c.head then
      let (breakText, c) := c.lineBreak
      if c.atSeparator then (none, c)
      else
        let (breaks, c) := plainBreaks fuel c
        (breaks.map (breakText ++ ·), c)
    else (some [], c)

/-- The text that lies between two lines: a single line feed becomes a space. -/
def foldBreaks (breakText breaks : List Char) : List Char :=
  if breakText ≠ ['\n'] then breakText ++ breaks
  else if breaks.isEmpty then [' ']
  else breaks

/-- What lies between two words, whether a line ended there, and the place after it. -/
def plainGap (c : Cursor) : List Char × Bool × Cursor :=
  let (spaces, c) := c.span (· == ' ')
  if isBreak c.head then
    let (breakText, c) := c.lineBreak
    if c.atSeparator then ([], true, c)
    else
      match plainBreaks c.fuel c with
      | (none, c) => ([], true, c)
      | (some breaks, c) => (foldBreaks breakText breaks, true, c)
  else (spaces, false, c)

/-- The words of a plain scalar from here on, `gap` being what came before them. -/
def plainWords (flow : Bool) (indent : Nat) : Nat → List Char → Bool → Cursor → PlainScalar
  | 0, _, brokeLine, c => { text := [], brokeLine, after := c }
  | fuel + 1, gap, brokeLine, c =>
    let word := plainWord flow c.rest
    if c.head == '#' || word.isEmpty then { text := [], brokeLine, after := c }
    else
      let (nextGap, brokeLine, c) := plainGap (c.skip word.length)
      if nextGap.isEmpty || c.head == '#' || (!flow && c.column < indent) then
        { text := gap ++ word, brokeLine, after := c }
      else
        let more := plainWords flow indent fuel nextGap brokeLine c
        { more with text := gap ++ word ++ more.text }

/-- Reads a plain scalar. In block context its lines are indented by at least `indent`. -/
def readPlain (flow : Bool) (indent : Nat) (c : Cursor) : PlainScalar :=
  plainWords flow indent c.fuel [] false c

end AgentConfig.Yaml
