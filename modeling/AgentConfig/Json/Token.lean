import AgentConfig.Json.Error
import AgentConfig.Schema.Scalar
import AgentConfig.Tree

namespace AgentConfig.Json

/-- A unit of JSON text. What is wrong inside a text or a scalar is held there until it is read. -/
inductive Token where
  | listOpen
  | listClose
  | recordOpen
  | recordClose
  | comma
  | colon
  | text (content : Except Error String)
  | scalar (value : Except Error Tree)
  | junk

def isSpace (c : Char) : Bool :=
  c == ' ' || c == '\t' || c == '\n' || c == '\r'

def hexValue? (c : Char) : Option Nat :=
  if isDigit c then some (c.toNat - '0'.toNat)
  else if 'a' ≤ c ∧ c ≤ 'f' then some (c.toNat - 'a'.toNat + 10)
  else if 'A' ≤ c ∧ c ≤ 'F' then some (c.toNat - 'A'.toNat + 10)
  else none

/-- The four digits after `\u`. They are looked for in the next four bytes. -/
def hex4 (s : List Char) : Except Error (Nat × List Char) :=
  if (String.ofList (s.take 4)).utf8ByteSize < 4 then .error .endInText
  else
    match s with
    | a :: b :: c :: d :: rest =>
      match hexValue? a, hexValue? b, hexValue? c, hexValue? d with
      | some a, some b, some c, some d => .ok (4096 * a + 256 * b + 16 * c + d, rest)
      | _, _, _, _ => .error .badEscape
    | _ => .error .badEscape

def isHighSurrogate (code : Nat) : Bool :=
  0xd800 ≤ code && code ≤ 0xdbff

def isLowSurrogate (code : Nat) : Bool :=
  0xdc00 ≤ code && code ≤ 0xdfff

/-- The second half of a surrogate pair whose first half is `high`. -/
def lowHalf (high : Nat) : List Char → Except Error (Char × List Char)
  | [] | ['\\'] => .error .endInText
  | '\\' :: 'u' :: rest => do
    let (low, rest) ← hex4 rest
    if isLowSurrogate low then
      .ok (Char.ofNat (0x10000 + (high - 0xd800) * 1024 + (low - 0xdc00)), rest)
    else .error .loneSurrogate
  | _ => .error .endOfEscape

/-- The character that an escape stands for, read after its backslash. -/
def escaped : List Char → Except Error (Char × List Char)
  | [] => .error .endInText
  | 'u' :: rest => do
    let (code, rest) ← hex4 rest
    if isLowSurrogate code then .error .loneSurrogate
    else if isHighSurrogate code then lowHalf code rest
    else .ok (Char.ofNat code, rest)
  | c :: rest =>
    match c with
    | '"' | '\\' | '/' => .ok (c, rest)
    | 'b' => .ok ('\x08', rest)
    | 'f' => .ok ('\x0c', rest)
    | 'n' => .ok ('\n', rest)
    | 'r' => .ok ('\r', rest)
    | 't' => .ok ('\t', rest)
    | _ => .error .badEscape

/-- Reads a text after its opening quote. -/
def readText : Nat → List Char → Except Error (List Char × List Char)
  | 0, _ | _, [] => .error .endInText
  | fuel + 1, c :: rest =>
    if c = '"' then .ok ([], rest)
    else if c = '\\' then do
      let (a, rest) ← escaped rest
      let (as, rest) ← readText fuel rest
      .ok (a :: as, rest)
    else if c.toNat < 0x20 then .error .controlCharacter
    else do
      let (as, rest) ← readText fuel rest
      .ok (c :: as, rest)

/-- Reads the letters of a word. -/
def readWord : List Char → List Char → Except Error (List Char)
  | [], rest => .ok rest
  | _ :: _, [] => .error .endInValue
  | w :: ws, c :: rest => if w = c then readWord ws rest else .error .wordExpected

/-- Digits of which at least one is needed. -/
def readDigits (s : List Char) : Except Error (List Char × List Char) :=
  match s with
  | [] => .error .endInValue
  | c :: _ => if isDigit c then .ok (s.takeWhile isDigit, s.dropWhile isDigit) else .error .badNumber

def readFraction : List Char → Except Error (Option (List Char) × List Char)
  | '.' :: rest => do
    let (digits, rest) ← readDigits rest
    .ok (some digits, rest)
  | rest => .ok (none, rest)

def readExponent : List Char → Except Error (Option Int × List Char)
  | [] => .ok (none, [])
  | c :: rest =>
    if c = 'e' ∨ c = 'E' then do
      let (negative, rest) := match rest with
        | '-' :: rest => (true, rest)
        | '+' :: rest => (false, rest)
        | rest => (false, rest)
      let (digits, rest) ← readDigits rest
      let n : Int := natOfDigits digits
      .ok (some (if negative then -n else n), rest)
    else .ok (none, c :: rest)

/-- Reads the digits of a number after its sign. Without fraction and exponent it is an integer. At most
`limit` digits stand before the point. -/
def readUnsigned (limit : Nat) (negative : Bool) (s : List Char) : Except Error (Tree × List Char) := do
  let (whole, rest) ← readDigits s
  if whole.head? = some '0' ∧ whole.length ≠ 1 then .error .badNumber
  else if limit < whole.length then .error .numberTooLong
  else
    let (fraction, rest) ← readFraction rest
    let (exponent, rest) ← readExponent rest
    match fraction, exponent with
    | none, none =>
      let n : Int := natOfDigits whole
      .ok (.int (if negative then -n else n), rest)
    | _, _ =>
      let digits := fraction.getD []
      let d : Decimal :=
        { coefficient := natOfDigits (whole ++ digits), exponent := exponent.getD 0 - digits.length }
      .ok (.float (d.toBinary64 negative), rest)

/-- Reads a number or one of the words `true`, `false`, `null`, `NaN` and `Infinity`. -/
def readScalar (limit : Nat) : List Char → Except Error (Tree × List Char)
  | '-' :: 'I' :: rest => (.float (.infinite true), ·) <$> readWord "nfinity".toList rest
  | '-' :: rest => readUnsigned limit true rest
  | 't' :: rest => (.bool true, ·) <$> readWord "rue".toList rest
  | 'f' :: rest => (.bool false, ·) <$> readWord "alse".toList rest
  | 'n' :: rest => (.null, ·) <$> readWord "ull".toList rest
  | 'N' :: rest => (.float .nan, ·) <$> readWord "aN".toList rest
  | 'I' :: rest => (.float (.infinite false), ·) <$> readWord "nfinity".toList rest
  | s => readUnsigned limit false s

def startsScalar (c : Char) : Bool :=
  isDigit c || "-tfnNI".toList.contains c

/-- The tokens of a text. They end after the first that cannot be read. -/
def tokens (limit : Nat) : Nat → List Char → List Token
  | 0, _ | _, [] => []
  | fuel + 1, c :: rest =>
    if isSpace c then tokens limit fuel rest
    else
      match c with
      | '[' => .listOpen :: tokens limit fuel rest
      | ']' => .listClose :: tokens limit fuel rest
      | '{' => .recordOpen :: tokens limit fuel rest
      | '}' => .recordClose :: tokens limit fuel rest
      | ',' => .comma :: tokens limit fuel rest
      | ':' => .colon :: tokens limit fuel rest
      | '"' =>
        match readText fuel rest with
        | .ok (content, rest) => .text (.ok (String.ofList content)) :: tokens limit fuel rest
        | .error e => [.text (.error e)]
      | _ =>
        if startsScalar c then
          match readScalar limit (c :: rest) with
          | .ok (t, rest) => .scalar (.ok t) :: tokens limit fuel rest
          | .error e => [.scalar (.error e)]
        else [.junk]

def tokensOf (s : List Char) : List Token :=
  tokens digitLimit s.length s

end AgentConfig.Json
