import AgentConfig.Number.Decimal
import AgentConfig.Yaml.Error
import AgentConfig.Yaml.Tag

namespace AgentConfig.Yaml

/-- A date, and a time of day with its offset from universal time in minutes. -/
structure Moment where
  year : Nat
  month : Nat
  day : Nat
  time : Option (Nat × Nat × Nat)
  zone : Option Int

namespace Moment

def isLeapYear (year : Nat) : Bool :=
  year % 4 == 0 && (year % 100 != 0 || year % 400 == 0)

def daysInMonth (year month : Nat) : Nat :=
  if month = 2 then if isLeapYear year then 29 else 28
  else if month ∈ [4, 6, 9, 11] then 30
  else 31

/-- A run of `least` to `most` digits at the front. -/
def number? (least most : Nat) (s : List Char) : Option (Nat × List Char) :=
  (Tag.takeDigits least most s).map fun (digits, rest) => (natOfDigits digits, rest)

/-- An offset from universal time in minutes, or none at all. -/
def zone? (s : List Char) : Option (Option Int) :=
  match Tag.skipBlanks s with
  | [] => if s.isEmpty then some none else none
  | ['Z'] => some (some 0)
  | sign :: rest => do
    let negative ← if sign = '-' then some true else if sign = '+' then some false else none
    let (hours, rest) ← number? 1 2 rest
    let minutes ← match rest with
      | [] => some 0
      | _ => do
        let (minutes, rest) ← number? 2 2 (← Tag.expect? ':' rest)
        if rest.isEmpty then some minutes else none
    let offset : Int := (60 * hours + minutes : Nat)
    some (some (if negative then -offset else offset))

/-- A time of day and its offset, after the date and what parts the two. -/
def time? (s : List Char) : Option ((Nat × Nat × Nat) × Option Int) := do
  let (hour, s) ← number? 1 2 s
  let (minute, s) ← number? 2 2 (← Tag.expect? ':' s)
  let (second, s) ← number? 2 2 (← Tag.expect? ':' s)
  some ((hour, minute, second), ← zone? (Tag.afterFraction s))

/-- The numbers of a moment as they are written. -/
def ofText? (text : List Char) : Option Moment := do
  let (year, s) ← number? 4 4 (Tag.withoutFinalBreak text)
  let (month, s) ← number? 1 2 (← Tag.expect? '-' s)
  let (day, s) ← number? 1 2 (← Tag.expect? '-' s)
  match s with
  | [] => some { year, month, day, time := none, zone := none }
  | _ =>
    let (time, zone) ← time? (← Tag.afterTimeMark? s)
    some { year, month, day, time := some time, zone }

/-- An offset as whole days and the seconds that remain, the latter not negative. -/
def zoneFault (minutes : Int) : ScalarFault :=
  .zone (minutes.fdiv 1440) (minutes.fmod 1440 * 60)

/-- The first part of a moment that lies outside its range. -/
def fault? (m : Moment) : Option ScalarFault :=
  let zone := m.zone.filter fun minutes => minutes.natAbs ≥ 1440
  match m.time, zone with
  | some _, some minutes => some (zoneFault minutes)
  | time, _ =>
    if m.year = 0 then some (.year m.year)
    else if m.month = 0 ∨ 12 < m.month then some .month
    else if m.day = 0 ∨ daysInMonth m.year m.month < m.day then some .day
    else
      match time with
      | none => none
      | some (hour, minute, second) =>
        if 23 < hour then some .hour
        else if 59 < minute then some .minute
        else if 59 < second then some .second
        else none

/-- Whether a text is a moment that exists. -/
def check (text : List Char) : Except Error Unit :=
  match ofText? text with
  | none => .error (.scalar .moment)
  | some m =>
    match m.fault? with
    | some fault => .error (.scalar fault)
    | none => .ok ()

end Moment
end AgentConfig.Yaml
