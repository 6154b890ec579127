import AgentConfig.Schema.Scalar
import AgentConfig.Json.Token
import AgentConfig.Text.Digit
import AgentConfig.Yaml.Error

namespace AgentConfig.Yaml

/-- White space around numbers: that of every text, and the four information separators. -/
def isNumberSpace (c : Char) : Bool :=
  Text.isBlank c || 0x1c ≤ c.toNat && c.toNat ≤ 0x1f

/-- The text with the digits of every script in their plain form and without the space around it. -/
def plainDigits (s : List Char) : List Char :=
  Text.trimBy isNumberSpace (s.map fun c =>
    match Text.digitValue? c with
    | some n => Nat.digitChar n
    | none => c)

/-- The value of a digit in a base up to sixteen. -/
def baseDigit? (base : Nat) (c : Char) : Option Nat :=
  (Json.hexValue? c).filter (· < base)

/-- The letter that may stand after a zero in front of the digits of a base. -/
def baseLetter? (base : Nat) : Option Char :=
  if base = 2 then some 'b' else if base = 8 then some 'o' else if base = 16 then some 'x' else none

def withoutBaseMark (base : Nat) : List Char → List Char
  | '0' :: c :: rest => if baseLetter? base = some c.toLower then rest else '0' :: c :: rest
  | s => s

/-- An integer in some base: a sign, the mark of the base, and digits. -/
def readBase (base : Nat) (text : List Char) : Except Error Int :=
  let s := plainDigits text
  let (negative, unsigned) := match s with
    | '-' :: rest => (true, rest)
    | '+' :: rest => (false, rest)
    | _ => (false, s)
  let digits := withoutBaseMark base unsigned
  if digits.isEmpty || !digits.all fun c => (baseDigit? base c).isSome then
    .error (.scalar (.int base (String.ofList text)))
  else if base = 10 && digitLimit < digits.length then .error (.scalar (.tooManyDigits digits.length))
  else
    let n : Int := digits.foldl (fun n c => base * n + (baseDigit? base c).getD 0) 0
    .ok (if negative then -n else n)

/-- The parts of a text between colons. -/
def splitColons (s : List Char) : List (List Char) :=
  s.splitOn ':'

/-- The sign of a number and what follows it. Nothing is left of an empty text. -/
def splitSign : List Char → Except Error (Int × List Char)
  | [] => .error (.scalar .empty)
  | '-' :: rest => .ok (-1, rest)
  | '+' :: rest => .ok (1, rest)
  | s => .ok (1, s)

def withoutUnderscores (s : List Char) : List Char :=
  s.filter (· != '_')

/-- The integer that a scalar denotes, in base two, eight, ten, sixteen or sixty. -/
def readInt (text : List Char) : Except Error Int := do
  let (sign, s) ← splitSign (withoutUnderscores text)
  match s with
  | [] => .error (.scalar .empty)
  | '0' :: 'b' :: digits => return sign * (← readBase 2 digits)
  | '0' :: 'x' :: digits => return sign * (← readBase 16 digits)
  | '0' :: rest => if rest.isEmpty then return 0 else return sign * (← readBase 8 s)
  | _ =>
    if s.contains ':' then
      let digits ← (splitColons s).mapM (readBase 10)
      return sign * digits.foldl (fun n d => 60 * n + d) 0
    else return sign * (← readBase 10 s)

/-- A decimal number, infinity or NaN with white space around it. -/
def readDecimal (text : List Char) : Except Error Binary64 :=
  match NumberText.float? (plainDigits text) with
  | some x => .ok x
  | none => .error (.scalar (.float (String.ofList text)))

/-- Adds up the parts of a sexagesimal number from the last one on. -/
def sumSixties : Nat → Binary64 → List Binary64 → Except Error Binary64
  | _, sum, [] => .ok sum
  | base, sum, x :: rest =>
    let scale := Binary64.ofNat base
    if scale.isFinite then sumSixties (60 * base) (sum.add (x.mul scale)) rest else .error (.scalar .floatBase)

/-- The floating-point number that a scalar denotes. -/
def readFloat (text : List Char) : Except Error Binary64 := do
  let (sign, s) ← splitSign (Text.lower (withoutUnderscores text))
  let x ←
    if s = ".inf".toList then pure (Binary64.infinite false)
    else if s = ".nan".toList then pure Binary64.nan
    else if s.contains ':' then do
      let parts ← (splitColons s).mapM readDecimal
      sumSixties 1 (.zero false) parts.reverse
    else readDecimal s
  return if sign < 0 then x.neg else x

/-- The truth value that a word denotes, in any mixture of cases. -/
def readBool (text : List Char) : Except Error Bool :=
  let word := String.ofList (Text.lower text)
  if word ∈ ["yes", "true", "on"] then .ok true
  else if word ∈ ["no", "false", "off"] then .ok false
  else .error (.scalar (.bool word))

end AgentConfig.Yaml
