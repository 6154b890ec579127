namespace AgentConfig

/-- How many magnitudes are finite: 2047 exponents with a fraction of 52 bits each. -/
def Binary64.ranks : Nat := 2047 * Nat.pow 2 52

/-- A double-precision number. The finite magnitudes are numbered in increasing order from zero,
so a finite number is a sign and a rank. -/
inductive Binary64 where
  | nan
  | infinite (negative : Bool)
  | finite (negative : Bool) (rank : Fin Binary64.ranks)
  deriving DecidableEq

namespace Binary64

/-- How many fractions there are for one exponent. -/
def fractions : Nat := Nat.pow 2 52

/-- The magnitude of a rank, counted in units of the least positive magnitude `2 ^ -1074`. -/
def units (rank : Nat) : Nat :=
  if rank / fractions = 0 then rank % fractions
  else (fractions + rank % fractions) * Nat.pow 2 (rank / fractions - 1)

/-- The number of units in one. -/
def unitsInOne : Nat := Nat.pow 2 1074

/-- The largest number at least `base` and below `base + 2 ^ bits` that satisfies a downward closed `p`,
found bit by bit. -/
def greatest (p : Nat → Bool) : Nat → Nat → Nat
  | 0, base => base
  | bits + 1, base => greatest p bits (if p (base + Nat.pow 2 bits) then base + Nat.pow 2 bits else base)

/-- The rank whose magnitude is nearest to `num / den` units. A tie goes to the even rank. -/
def nearestRank (num den : Nat) : Nat :=
  let below := greatest (fun rank => units rank * den ≤ num) 63 0
  let middle := (units below + units (below + 1)) * den
  if 2 * num < middle ∨ 2 * num = middle ∧ below % 2 = 0 then below else below + 1

/-- A rank past the finite ones is infinity. -/
def ofRank (negative : Bool) (rank : Nat) : Binary64 :=
  if h : rank < ranks then .finite negative ⟨rank, h⟩ else .infinite negative

/-- The number nearest to `± num / den`. -/
def ofRatio (negative : Bool) (num den : Nat) : Binary64 :=
  ofRank negative (nearestRank (num * unitsInOne) den)

def ofNat (n : Nat) : Binary64 :=
  ofRatio false n 1

def ofInt (n : Int) : Binary64 :=
  ofRatio (decide (n < 0)) n.natAbs 1

def zero (negative : Bool) : Binary64 :=
  .finite negative ⟨0, by decide⟩

def one : Binary64 :=
  ofNat 1

def isFinite : Binary64 → Bool
  | .finite .. => true
  | _ => false

/-- The integer that the number is, if it is one. -/
def toInt? : Binary64 → Option Int
  | .finite negative rank =>
    if units rank % unitsInOne = 0 then
      let whole : Int := (units rank / unitsInOne : Nat)
      some (if negative then -whole else whole)
    else none
  | _ => none

/-- Equality of values: the zeros are equal, and NaN differs from itself. -/
def equal : Binary64 → Binary64 → Bool
  | .nan, _ | _, .nan => false
  | .infinite m, .infinite n => m == n
  | .finite m r, .finite n s => r == s && (m == n || r.val == 0)
  | _, _ => false

def isZero : Binary64 → Bool
  | .finite _ rank => rank.val == 0
  | _ => false

def neg : Binary64 → Binary64
  | .nan => .nan
  | .infinite negative => .infinite !negative
  | .finite negative rank => .finite (!negative) rank

private def signedUnits (negative : Bool) (rank : Nat) : Int :=
  if negative then -(units rank : Int) else units rank

def add : Binary64 → Binary64 → Binary64
  | .nan, _ | _, .nan => .nan
  | .infinite m, .infinite n => if m = n then .infinite m else .nan
  | .infinite m, _ | _, .infinite m => .infinite m
  | .finite m r, .finite n s =>
    let sum := signedUnits m r + signedUnits n s
    if sum = 0 then zero (m && n)
    else ofRank (decide (sum < 0)) (nearestRank sum.natAbs 1)

def mul : Binary64 → Binary64 → Binary64
  | .nan, _ | _, .nan => .nan
  | .infinite m, .infinite n => .infinite (m != n)
  | .infinite m, .finite n s | .finite n s, .infinite m => if s.val = 0 then .nan else .infinite (m != n)
  | .finite m r, .finite n s => ofRank (m != n) (nearestRank (units r * units s) unitsInOne)

end Binary64
end AgentConfig
