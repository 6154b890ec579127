import AgentConfig.Number.Decimal

namespace AgentConfig

/-- How a format lays out the digits of a floating-point number. The decimal point of a number stands
`point` places after its first digit's left edge; numbers with `least < point ≤ greatest` are written
positionally and all others with an exponent. -/
structure NumberLayout where
  least : Int
  greatest : Int
  exponentDigits : Nat
  pointBeforeExponent : Bool
  infinity : String
  nan : String

namespace NumberLayout

def strippedDigits (coefficient : Nat) : List Char :=
  ((decimalDigits coefficient).reverse.dropWhile (· == '0')).reverse

def padLeft (width : Nat) (digits : List Char) : List Char :=
  List.replicate (width - digits.length) '0' ++ digits

def positional (digits : List Char) (point : Int) : List Char :=
  if point ≤ 0 then '0' :: '.' :: List.replicate (-point).toNat '0' ++ digits
  else if digits.length ≤ point.toNat then
    digits ++ List.replicate (point.toNat - digits.length) '0' ++ ['.', '0']
  else digits.take point.toNat ++ '.' :: digits.drop point.toNat

def scientific (layout : NumberLayout) (digits : List Char) (exponent : Int) : List Char :=
  let fraction :=
    match digits.drop 1 with
    | [] => if layout.pointBeforeExponent then ['.', '0'] else []
    | rest => '.' :: rest
  let sign := if exponent < 0 then '-' else '+'
  digits.take 1 ++ fraction ++ 'e' :: sign :: padLeft layout.exponentDigits (decimalDigits exponent.natAbs)

/-- The text of a positive decimal. -/
def decimalText (layout : NumberLayout) (d : Decimal) : List Char :=
  let digits := strippedDigits d.coefficient
  let point : Int := (decimalDigits d.coefficient).length + d.exponent
  if layout.least < point ∧ point ≤ layout.greatest then positional digits point
  else scientific layout digits (point - 1)

def signed (negative : Bool) (text : List Char) : List Char :=
  if negative then '-' :: text else text

def write (layout : NumberLayout) : Binary64 → List Char
  | .nan => layout.nan.toList
  | .infinite negative => signed negative layout.infinity.toList
  | .finite negative rank =>
    signed negative (if rank.val = 0 then ['0', '.', '0'] else layout.decimalText (.shortest rank))

/-- Numbers turned into text on their own: `0.0001`, `1e-05`, `1e+16`. -/
def plain : NumberLayout where
  least := -4
  greatest := 16
  exponentDigits := 2
  pointBeforeExponent := false
  infinity := "inf"
  nan := "nan"

end NumberLayout
end AgentConfig
