import AgentConfig.Schema.Shape
import AgentConfig.Tree

namespace AgentConfig

/-- Which of its names a field is written under. -/
inductive Naming where
  | document
  | program
  deriving DecidableEq

def Label.key (label : Label) : Naming → String
  | .document => label.documentName
  | .program => label.name

/-- All values, if all are there. -/
def allSome {α : Type} : List (Option α) → Option (List α)
  | [] => some []
  | some a :: rest => (allSome rest).map (a :: ·)
  | none :: _ => none

mutual
/-- The data as a tree, or nothing if a part of them cannot be written. Infinity and NaN become null. -/
def Shape.write (naming : Naming) : {α : Type} → Shape α → α → Option Tree
  | _, .text _, s => some (.text s)
  | _, .secret, s =>
    match s with
    | .text s => some (.text s)
    | .foreign => none
  | _, .int, n => some (.int n)
  | _, .bool, b => some (.bool b)
  | _, .float, x => some (if x.isFinite then .float x else .null)
  | _, .choice choices, a => some (.text (choices.word a))
  | _, .nullable inner, a =>
    match a with
    | none => some .null
    | some a => inner.write naming a
  | _, .list item, as => (allSome (as.map (item.write naming))).map .list
  | _, .record _ fields parts, a => (fields.write naming (parts.split a)).map .record

/-- One entry for each field in order, except for empty fields that are left out when empty. -/
def Fields.write (naming : Naming) : {ρ : Type} → Fields ρ → ρ → Option (List (String × Tree))
  | _, .nil, _ => some []
  | _, .cons label shape _ rest, (a, r) =>
    match shape.write naming a, rest.write naming r with
    | some t, some entries =>
      some (if label.omitEmpty && t.isEmpty then entries else (label.key naming, t) :: entries)
    | _, _ => none
end

mutual
/-- Equality of data. Numbers count by value, so NaN differs from itself; so does a foreign object. -/
def Shape.equal : {α : Type} → Shape α → α → α → Bool
  | _, .text _, a, b => a == b
  | _, .secret, a, b =>
    match a, b with
    | .text a, .text b => a == b
    | _, _ => false
  | _, .int, a, b => a == b
  | _, .bool, a, b => a == b
  | _, .float, a, b => a.equal b
  | _, .choice choices, a, b => choices.word a == choices.word b
  | _, .nullable inner, a, b =>
    match a, b with
    | none, none => true
    | some a, some b => inner.equal a b
    | _, _ => false
  | _, .list item, as, bs => as.length == bs.length && (as.zip bs).all fun (a, b) => item.equal a b
  | _, .record _ fields parts, a, b => fields.equal (parts.split a) (parts.split b)

def Fields.equal : {ρ : Type} → Fields ρ → ρ → ρ → Bool
  | _, .nil, _, _ => true
  | _, .cons _ shape _ rest, (a, r), (b, s) => shape.equal a b && rest.equal r s
end

end AgentConfig
