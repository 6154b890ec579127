import AgentConfig.Number.Binary64

namespace AgentConfig

/-- A magnitude in decimal: `coefficient * 10 ^ exponent`. -/
structure Decimal where
  coefficient : Nat
  exponent : Int
  deriving DecidableEq

/-- The decimal digits of a number, most significant first. -/
def decimalDigits (n : Nat) : List Char :=
  Nat.toDigits 10 n

/-- The number that a run of decimal digits denotes. -/
def natOfDigits (digits : List Char) : Nat :=
  digits.foldl (fun n c => 10 * n + (c.toNat - '0'.toNat)) 0

def isDigit (c : Char) : Bool :=
  '0' ≤ c && c ≤ '9'

namespace Decimal

/-- Exponents beyond these bounds are settled by size alone: the first number is past the finite
magnitudes, the second below half of the least positive one. -/
def toBinary64 (d : Decimal) (negative : Bool) : Binary64 :=
  if d.coefficient = 0 then .zero negative
  else if 400 < d.exponent then .infinite negative
  else if d.exponent < -1100 - (decimalDigits d.coefficient).length then .zero negative
  else if 0 ≤ d.exponent then .ofRatio negative (d.coefficient * Nat.pow 10 d.exponent.toNat) 1
  else .ofRatio negative d.coefficient (Nat.pow 10 (-d.exponent).toNat)

/-- The magnitude of a rank written out in full. -/
def exact (rank : Nat) : Decimal :=
  { coefficient := Binary64.units rank * Nat.pow 5 1074, exponent := -1074 }

/-- The position of the decimal point of a positive magnitude, counted from before its first digit. -/
def pointPosition (rank : Nat) : Int :=
  (decimalDigits (Binary64.units rank * Nat.pow 10 400 / Binary64.unitsInOne)).length - 400

/-- The magnitude as `num / den` on the grid of multiples of `10 ^ exponent`. -/
def onGrid (rank : Nat) (exponent : Int) : Nat × Nat :=
  if 0 ≤ exponent then (Binary64.units rank, Binary64.unitsInOne * Nat.pow 10 exponent.toNat)
  else (Binary64.units rank * Nat.pow 10 (-exponent).toNat, Binary64.unitsInOne)

def readsAs (rank : Fin Binary64.ranks) (d : Decimal) : Bool :=
  d.toBinary64 false == .finite false rank

/-- Of the two grid points around the magnitude the one that reads back as it; of two the nearer,
and the even one on a tie. -/
def nearestReading? (rank : Fin Binary64.ranks) (exponent : Int) : Option Decimal :=
  let (num, den) := onGrid rank exponent
  let below : Decimal := { coefficient := num / den, exponent }
  let above : Decimal := { coefficient := num / den + 1, exponent }
  match readsAs rank below, readsAs rank above with
  | false, false => none
  | true, false => some below
  | false, true => some above
  | true, true =>
    let middle := (2 * below.coefficient + 1) * den
    if 2 * num < middle ∨ 2 * num = middle ∧ below.coefficient % 2 = 0 then some below else some above

/-- The decimal of fewest digits that reads back as the magnitude, and of those the nearest. -/
def shortest (rank : Fin Binary64.ranks) : Decimal :=
  let point := pointPosition rank
  ((List.range 17).findSome? fun (n : Nat) => nearestReading? rank (point - (n + 1))).getD (exact rank)

end Decimal
end AgentConfig
