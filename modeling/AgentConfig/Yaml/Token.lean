import AgentConfig.Yaml.Error
import AgentConfig.Yaml.Scalar.Quoted

namespace AgentConfig.Yaml

/-- A line before a document that says how to read it. Lines of other kinds are passed over. -/
inductive Directive where
  | version (major minor : Nat)
  | handle (handle : String) (address : String)
  | reserved

/-- A unit of YAML text. The last token of a text is its end or the fault that hides what comes next. -/
inductive Token where
  | directive (d : Directive)
  | documentStart
  | documentEnd
  | sequenceStart
  | mappingStart
  | blockEnd
  | flowSequenceStart
  | flowSequenceEnd
  | flowMappingStart
  | flowMappingEnd
  | entry
  | comma
  | key
  | value
  | aliasTo (name : String)
  | anchor (name : String)
  | tag (handle : Option String) (suffix : String)
  | scalar (text : Piece) (plain : Bool)
  | textEnd
  | fault (e : Error)

/-- What a token is called in messages. -/
def Token.word : Token → String
  | directive _ => "<directive>"
  | documentStart => "<document start>"
  | documentEnd => "<document end>"
  | sequenceStart => "<block sequence start>"
  | mappingStart => "<block mapping start>"
  | blockEnd => "<block end>"
  | flowSequenceStart => "["
  | flowSequenceEnd => "]"
  | flowMappingStart => "\x7b"
  | flowMappingEnd => "\x7d"
  | entry => "-"
  | comma => ","
  | key => "?"
  | value => ":"
  | aliasTo _ => "<alias>"
  | anchor _ => "<anchor>"
  | tag .. => "<tag>"
  | scalar .. => "<scalar>"
  | textEnd => "<stream end>"
  | fault _ => "<fault>"

def isNameChar (c : Char) : Bool :=
  isDigit c || 'a' ≤ c && c ≤ 'z' || 'A' ≤ c && c ≤ 'Z' || c == '-' || c == '_'

def isAddressChar (c : Char) : Bool :=
  isNameChar c || ";/?:@&=+$,.!~*'()[]%".toList.contains c

/-- Reads the name of an anchor or an alias after its mark. -/
def readName (fault : LexicalFault) (c : Cursor) : Except Error (String × Cursor) :=
  let (name, c) := c.span isNameChar
  if name.isEmpty || !(isBlankOrEnd c.head || "?:,]\x7d%@`".toList.contains c.head) then .error (.lexical fault)
  else .ok (String.ofList name, c)

/-- Bytes written with percent signs. -/
def readEscapedBytes (fault : LexicalFault) : Nat → Cursor → Except Error (List UInt8 × Cursor)
  | 0, c => .ok ([], c)
  | fuel + 1, c =>
    if c.head != '%' then .ok ([], c)
    else
      match hexNumber? 2 c.next.rest with
      | none => .error (.lexical fault)
      | some code => do
        let (bytes, c) ← readEscapedBytes fault fuel (c.skip 3)
        .ok (UInt8.ofNat code :: bytes, c)

/-- Reads the address of a tag as far as it goes. -/
def addressFrom (escapeFault : LexicalFault) : Nat → Cursor → Except Error (List Char × Cursor)
  | 0, c => .ok ([], c)
  | fuel + 1, c =>
    if c.head == '%' then do
      let (bytes, c) ← readEscapedBytes escapeFault c.fuel c
      match Text.readUtf8 bytes with
      | .error _ => .error (.lexical escapeFault)
      | .ok text =>
        let (more, c) ← addressFrom escapeFault fuel c
        .ok (text ++ more, c)
    else if isAddressChar c.head then do
      let (more, after) ← addressFrom escapeFault fuel c.next
      .ok (c.head :: more, after)
    else .ok ([], c)

/-- Reads the address of a tag, which may not be empty. -/
def readAddress (emptyFault escapeFault : LexicalFault) (c : Cursor) : Except Error (String × Cursor) := do
  let (text, after) ← addressFrom escapeFault c.fuel c
  if isAddressChar c.head then .ok (String.ofList text, after) else .error (.lexical emptyFault)

/-- Reads a tag handle: `!`, `!!` or a name between exclamation marks. -/
def readHandle (fault : LexicalFault) (c : Cursor) : Except Error (String × Cursor) :=
  if c.head != '!' then .error (.lexical fault)
  else if c.peek 1 == ' ' then .ok ("!", c.next)
  else
    let (name, after) := c.next.span isNameChar
    if after.head == '!' then .ok (String.ofList ('!' :: name ++ ['!']), after.next) else .error (.lexical fault)

/-- Whether a tag has a handle of its own: a second exclamation mark before the next space. -/
def hasHandle (c : Cursor) : Bool :=
  ((c.next.rest.takeWhile (!isSpaceOrEnd ·)).contains '!')

/-- Reads a tag from its exclamation mark on. -/
def readTag (c : Cursor) : Except Error (Token × Cursor) := do
  let (handle, suffix, c) ←
    if c.peek 1 == '<' then do
      let (suffix, c) ← readAddress .tagAddress .tag (c.skip 2)
      if c.head == '>' then pure (none, suffix, c.next) else .error (.lexical .tagAddress)
    else if isBlankOrEnd (c.peek 1) then pure (none, "!", c.next)
    else do
      let (handle, c) ← if hasHandle c then readHandle .tag c else pure ("!", c.next)
      let (suffix, c) ← readAddress .tagAddress .tag c
      pure (some handle, suffix, c)
  if isSpaceOrEnd c.head then .ok (.tag handle suffix, c) else .error (.lexical .tag)

/-- Reads a decimal number in a directive. -/
def readVersionPart (c : Cursor) : Except Error (Nat × Cursor) :=
  let (digits, c) := c.span isDigit
  if digits.isEmpty then .error (.lexical .directive)
  else if digitLimit < digits.length then .error (.scalar (.tooManyDigits digits.length))
  else .ok (natOfDigits digits, c)

/-- Fails unless a directive may end here. -/
def directiveBreak (c : Cursor) : Except Error Unit :=
  if isSpaceOrEnd c.head then .ok () else .error (.lexical .directive)

/-- Reads a directive from its percent sign to the end of its line. -/
def readDirective (c : Cursor) : Except Error (Directive × Cursor) := do
  let (name, c) := c.next.span isNameChar
  if name.isEmpty then .error (.lexical .directive)
  else
    directiveBreak c
    let (d, c) ← match String.ofList name with
      | "YAML" => do
        let (major, c) ← readVersionPart c.skipSpaces
        if c.head != '.' then .error (.lexical .directive)
        else
          let (minor, c) ← readVersionPart c.next
          directiveBreak c
          pure (Directive.version major minor, c)
      | "TAG" => do
        let (handle, c) ← readHandle .directive c.skipSpaces
        if c.head != ' ' then .error (.lexical .directive)
        else
          let (address, c) ← readAddress .directiveAddress .directive c.skipSpaces
          directiveBreak c
          pure (Directive.handle handle address, c)
      | _ => pure (Directive.reserved, c.skipWhile (!isBreakOrEnd ·))
    let c := c.skipSpaces.skipComment
    if isBreakOrEnd c.head then .ok (d, c.lineBreak.2) else .error (.lexical .directive)

end AgentConfig.Yaml
