import AgentConfig.Number.Layout
import AgentConfig.Schema.Problem
import AgentConfig.Text.Blank
import AgentConfig.Text.Utf8
import AgentConfig.Value

namespace AgentConfig

/-- The most digits of a whole number in a text. -/
def digitLimit : Nat := 4300

namespace NumberText

/-- An optional minus sign and decimal digits without a leading zero. -/
def wholeNumber? (s : List Char) : Option Int :=
  let (negative, digits) := match s with
    | '-' :: rest => (true, rest)
    | _ => (false, s)
  if digits.isEmpty || !digits.all isDigit || (digits.head? == some '0' && digits.length ≠ 1) then none
  else
    let n : Int := natOfDigits digits
    some (if negative then -n else n)

/-- The text without its single underscores, if it has any and each stands between other characters. -/
def withoutUnderscores? (s : List Char) : Option (List Char) :=
  let rec doubled : List Char → Bool
    | '_' :: '_' :: _ => true
    | _ :: rest => doubled rest
    | [] => false
  if s.head? == some '_' || s.getLast? == some '_' || !s.contains '_' || doubled s then none
  else some (s.filter (· ≠ '_'))

/-- What follows a leading zero once further zeros and underscores are passed over. The last character
before a point, or of the whole text, is kept. -/
def afterZeros (previous : Char) : List Char → Option (List Char)
  | [] => some [previous]
  | c :: rest =>
    if c = '0' ∨ c = '_' then afterZeros c rest
    else if isDigit c then some (c :: rest)
    else if c = '.' then some (previous :: c :: rest)
    else none

def withoutLeadingZeros? : List Char → Option (List Char)
  | '0' :: rest => afterZeros '0' rest
  | c :: rest => if isDigit c ∨ c = '-' then some (c :: rest) else none
  | [] => none

/-- The text without a fraction of nothing but zeros. -/
def withoutZeroFraction (s : List Char) : List Char :=
  let fraction := s.dropWhile (· ≠ '.')
  if fraction.length ≥ 2 && (fraction.drop 1).all (· == '0') then s.takeWhile (· ≠ '.') else s

/-- The plain form of a whole number that is written with blanks, a plus sign, leading zeros,
underscores or a zero fraction. -/
def plainWhole? (s : List Char) : Option (List Char) := do
  let trimmed := Text.trim s
  let unsigned ← match trimmed with
    | '+' :: '-' :: _ => none
    | '+' :: rest => some rest
    | _ => some trimmed
  let stripped := withoutZeroFraction (← withoutLeadingZeros? unsigned)
  match withoutUnderscores? stripped with
  | some joined => some joined
  | none => if stripped.length = s.length then none else some stripped

/-- The minus sign of a number is no digit. -/
def readPlainInt (s : List Char) : Option (Checked Int) :=
  (wholeNumber? s).map fun n => if digitLimit < (s.filter (· ≠ '-')).length then .fail .intSize else .ok n

/-- The integer that a text denotes. -/
def readInt (s : List Char) : Checked Int :=
  match readPlainInt s with
  | some result => result
  | none => ((plainWhole? s).bind readPlainInt).getD (.fail .intText)

def exponent? : List Char → Option Int
  | [] => some 0
  | c :: rest =>
    if c = 'e' ∨ c = 'E' then
      let (negative, digits) := match rest with
        | '-' :: ds => (true, ds)
        | '+' :: ds => (false, ds)
        | ds => (false, ds)
      if digits.isEmpty || !digits.all isDigit then none
      else
        let n : Int := natOfDigits digits
        some (if negative then -n else n)
    else none

/-- Digits with or without a point and an exponent; at least one digit stands before the exponent. -/
def decimal? (s : List Char) : Option Decimal := do
  let whole := s.takeWhile isDigit
  let (fraction, rest) := match s.dropWhile isDigit with
    | '.' :: rest => (rest.takeWhile isDigit, rest.dropWhile isDigit)
    | rest => ([], rest)
  if whole.isEmpty && fraction.isEmpty then none
  else
    let exponent ← exponent? rest
    some { coefficient := natOfDigits (whole ++ fraction), exponent := exponent - fraction.length }

def unsigned? (negative : Bool) (s : List Char) : Option Binary64 :=
  let word := String.ofList (Text.lower s)
  if word = "inf" ∨ word = "infinity" then some (.infinite negative)
  else if word = "nan" then some .nan
  else (decimal? s).map (·.toBinary64 negative)

/-- A signed decimal, infinity or NaN, with nothing around it. -/
def float? : List Char → Option Binary64
  | '-' :: rest => unsigned? true rest
  | '+' :: rest => unsigned? false rest
  | s => unsigned? false s

/-- The number that a text denotes: blanks may surround it, or else underscores stand between its digits. -/
def readFloat (s : List Char) : Checked Binary64 :=
  match float? (Text.trim s) with
  | some x => .ok x
  | none =>
    match (withoutUnderscores? s).bind float? with
    | some x => .ok x
    | none => .fail .floatText

def readBool (s : List Char) : Checked Bool :=
  let word := String.ofList (Text.lower s)
  if word ∈ ["0", "f", "n", "no", "off", "false"] then .ok false
  else if word ∈ ["1", "t", "y", "yes", "on", "true"] then .ok true
  else .fail .boolText

end NumberText

/-- Half the number of words of 64 bits. -/
def wordBound : Int := 9223372036854775808

/-- Integers that come from a floating-point number have 64 bits. -/
def fitsWord (n : Int) : Bool :=
  -wordBound < n && n < wordBound

namespace Value

/-- The text of a text or of bytes in UTF-8, handed to a reader; `unreadable` if the bytes are none. -/
private def viaText? {α : Type} (unreadable : Cause) (read : List Char → Checked α) : Value → Option (Checked α)
  | .text s => some (read s.toList)
  | .brokenText => some (.fail .textUnicode)
  | .bytes content =>
    match Text.readUtf8 content with
    | .ok s => some (read s)
    | .error _ => some (.fail unreadable)
  | _ => none

def readInt (v : Value) : Checked Int :=
  match v with
  | .int n => .ok n
  | .bool b => .ok (if b then 1 else 0)
  | .float x =>
    if !x.isFinite then .fail .finite
    else
      match x.toInt? with
      | none => .fail .intFraction
      | some n => if fitsWord n then .ok n else .fail .intSize
  | _ => (viaText? .intText NumberText.readInt v).getD (.fail .int)

def readBool (v : Value) : Checked Bool :=
  match v with
  | .bool b => .ok b
  | .int n =>
    if -wordBound ≤ n ∧ n < wordBound then
      if n = 0 then .ok false else if n = 1 then .ok true else .fail .boolText
    else .fail .bool
  | .float x =>
    match x.toInt? with
    | none => .fail .bool
    | some n =>
      if fitsWord n then if n = 0 then .ok false else if n = 1 then .ok true else .fail .boolText
      else .fail .bool
  | _ => (viaText? .boolText NumberText.readBool v).getD (.fail .bool)

/-- An integer past the finite numbers is infinite in JSON and no number anywhere else. -/
def readFloat (source : Source) (v : Value) : Checked Binary64 :=
  match v with
  | .float x => .ok x
  | .bool b => .ok (if b then .one else .zero false)
  | .int n =>
    let x := Binary64.ofInt n
    if x.isFinite || source = .json then .ok x else .fail .float
  | _ => (viaText? .floatText NumberText.readFloat v).getD (.fail .float)

/-- Where `numbers` holds, a number stands for the text that it is written as. A text with half of a surrogate pair is no
`String`, so it is refused here wherever it is given. -/
def readText (numbers : Bool) (v : Value) : Checked String :=
  match v with
  | .text s => .ok s
  | .brokenText => .fail .textUnicode
  | .bytes content =>
    match Text.readUtf8 content with
    | .ok s => .ok (String.ofList s)
    | .error _ => .fail .textUnicode
  | .int n =>
    if !numbers then .fail .text
    else if digitLimit < (decimalDigits n.natAbs).length then .fail .digits
    else .ok (toString n)
  | .float x => if numbers then .ok (String.ofList (NumberLayout.plain.write x)) else .fail .text
  | _ => .fail .text

end Value
end AgentConfig
