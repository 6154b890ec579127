import AgentConfig.Number.Decimal
import AgentConfig.Yaml.Cursor

namespace AgentConfig.Yaml

/-- What kind of value a node stands for. -/
inductive Tag where
  | null
  | bool
  | int
  | float
  | bytes
  | moment
  | orderedMap
  | pairs
  | set
  | text
  | sequence
  | mapping
  | merge
  | default
  | other (name : String)
  deriving DecidableEq

namespace Tag

/-- Where the names of the common tags begin. -/
def common : String := "tag:yaml.org,2002:"

def name : Tag → String
  | null => common ++ "null"
  | bool => common ++ "bool"
  | int => common ++ "int"
  | float => common ++ "float"
  | bytes => common ++ "binary"
  | moment => common ++ "timestamp"
  | orderedMap => common ++ "omap"
  | pairs => common ++ "pairs"
  | set => common ++ "set"
  | text => common ++ "str"
  | sequence => common ++ "seq"
  | mapping => common ++ "map"
  | merge => common ++ "merge"
  | default => common ++ "value"
  | other name => name

def ofName (s : String) : Tag :=
  ([null, bool, int, float, bytes, moment, orderedMap, pairs, set, text, sequence, mapping, merge, default].find?
    (·.name == s)).getD (.other s)

/-- The text without a line feed at its end, which no form below counts. -/
def withoutFinalBreak (s : List Char) : List Char :=
  match s.reverse with
  | '\n' :: rest => rest.reverse
  | _ => s

def isBool (s : List Char) : Bool :=
  ["yes", "Yes", "YES", "no", "No", "NO", "true", "True", "TRUE", "false", "False", "FALSE", "on", "On", "ON",
    "off", "Off", "OFF"].contains (String.ofList s)

def isNull (s : List Char) : Bool :=
  ["~", "null", "Null", "NULL", ""].contains (String.ofList s)

def withoutSign : List Char → List Char
  | '-' :: rest | '+' :: rest => rest
  | s => s

def isDigitOrUnderscore (c : Char) : Bool :=
  isDigit c || c == '_'

/-- A digit and then digits and underscores. -/
def isGrouped : List Char → Bool
  | c :: rest => isDigit c && rest.all isDigitOrUnderscore
  | [] => false

/-- Nothing, or an exponent with a sign and digits. -/
def isExponent : List Char → Bool
  | [] => true
  | e :: sign :: digits =>
    (e == 'e' || e == 'E') && (sign == '-' || sign == '+') && !digits.isEmpty && digits.all isDigit
  | _ => false

/-- Digits below sixty, each after a colon; at least one such group. -/
def isSexagesimalTail : List Char → Bool
  | ':' :: a :: b :: rest =>
    if b == ':' then isDigit a && isSexagesimalTail (b :: rest)
    else '0' ≤ a && a ≤ '5' && isDigit b && (rest.isEmpty || isSexagesimalTail rest)
  | [':', a] => isDigit a
  | _ => false

/-- A number with a point: grouped digits around it, or none before it. -/
def isDecimalFloat (s : List Char) : Bool :=
  let unsigned := withoutSign s
  let whole := unsigned.takeWhile isDigitOrUnderscore
  let rest := unsigned.dropWhile isDigitOrUnderscore
  match rest with
  | '.' :: fraction =>
    isExponent (fraction.dropWhile isDigitOrUnderscore) &&
      (isGrouped whole ||
        whole.isEmpty && s.head? == some '.' && isGrouped (fraction.takeWhile isDigitOrUnderscore))
  | _ => false

/-- Grouped digits, groups below sixty, and a point with digits and underscores after it. -/
def isSexagesimalFloat (s : List Char) : Bool :=
  let unsigned := withoutSign s
  let before := unsigned.takeWhile (· != '.')
  let after := unsigned.dropWhile (· != '.')
  isGrouped (before.takeWhile isDigitOrUnderscore) && isSexagesimalTail (before.dropWhile isDigitOrUnderscore) &&
    !after.isEmpty && (after.drop 1).all isDigitOrUnderscore

def isFloat (s : List Char) : Bool :=
  isDecimalFloat s || isSexagesimalFloat s ||
    [".inf", ".Inf", ".INF"].contains (String.ofList (withoutSign s)) ||
    [".nan", ".NaN", ".NAN"].contains (String.ofList s)

def isIntDigit (c : Char) : Bool :=
  isDigit c || 'a' ≤ c && c ≤ 'f' || 'A' ≤ c && c ≤ 'F' || c == '_'

/-- A whole number: binary, octal, decimal, hexadecimal or sexagesimal. -/
def isInt (s : List Char) : Bool :=
  match withoutSign s with
  | '0' :: 'b' :: digits => !digits.isEmpty && digits.all fun c => c == '0' || c == '1' || c == '_'
  | '0' :: 'x' :: digits => !digits.isEmpty && digits.all isIntDigit
  | '0' :: digits => digits.all fun c => '0' ≤ c && c ≤ '7' || c == '_'
  | c :: rest =>
    isDigit c &&
      (rest.all isDigitOrUnderscore ||
        isSexagesimalTail (rest.dropWhile isDigitOrUnderscore))
  | [] => false

/-- The numbers of a pattern: `n` or up to `n` digits. -/
def takeDigits (least most : Nat) (s : List Char) : Option (List Char × List Char) :=
  let digits := (s.take most).takeWhile isDigit
  if least ≤ digits.length then some (digits, s.drop digits.length) else none

/-- The text behind a character. -/
def expect? (c : Char) : List Char → Option (List Char)
  | d :: rest => if c = d then some rest else none
  | [] => none

def skipBlanks (s : List Char) : List Char :=
  s.dropWhile fun c => c == ' ' || c == '\t'

/-- What follows a date of three numbers. The month and the day have at least `least` digits. -/
def afterDate? (least : Nat) (s : List Char) : Option (List Char) := do
  let (_, s) ← takeDigits 4 4 s
  let (_, s) ← takeDigits least 2 (← expect? '-' s)
  let (_, s) ← takeDigits least 2 (← expect? '-' s)
  some s

/-- What follows the mark between a date and a time of day. -/
def afterTimeMark? : List Char → Option (List Char)
  | [] => none
  | c :: rest =>
    if c = 'T' ∨ c = 't' then some rest
    else if c = ' ' ∨ c = '\t' then some (skipBlanks (c :: rest))
    else none

/-- What follows a fraction of a second, if there is one. -/
def afterFraction (s : List Char) : List Char :=
  match s with
  | '.' :: rest => rest.dropWhile isDigit
  | _ => s

def afterTime? (s : List Char) : Option (List Char) := do
  let (_, s) ← takeDigits 1 2 s
  let (_, s) ← takeDigits 2 2 (← expect? ':' s)
  let (_, s) ← takeDigits 2 2 (← expect? ':' s)
  some (afterFraction s)

/-- An offset from universal time, or nothing. -/
def isZone (s : List Char) : Bool :=
  match skipBlanks s with
  | [] => s.isEmpty
  | ['Z'] => true
  | sign :: rest =>
    (sign == '-' || sign == '+') &&
      match takeDigits 1 2 rest with
      | some (_, []) => true
      | some (_, ':' :: minutes) => minutes.length == 2 && minutes.all isDigit
      | _ => false

/-- A date of three numbers, or a date with less strict numbers and a time of day after it. -/
def isMoment (s : List Char) : Bool :=
  afterDate? 2 s == some [] || (((afterDate? 1 s).bind afterTimeMark?).bind afterTime?).any isZone

/-- The tag of a scalar without quotes and without a tag of its own. -/
def ofPlain (text : List Char) : Tag :=
  let s := withoutFinalBreak text
  match text.head? with
  | none => .null
  | some c =>
    if "yYnNtTfFoO".toList.contains c && isBool s then .bool
    else if (isDigit c || c == '-' || c == '+' || c == '.') && isFloat s then .float
    else if (isDigit c || c == '-' || c == '+') && isInt s then .int
    else if s == ['<', '<'] then .merge
    else if (c == '~' || c == 'n' || c == 'N') && isNull s then .null
    else if isDigit c && isMoment s then .moment
    else if s == ['='] then .default
    else if s.length == 1 && (c == '!' || c == '&' || c == '*') then .other (common ++ "yaml")
    else .text

end Tag
end AgentConfig.Yaml
