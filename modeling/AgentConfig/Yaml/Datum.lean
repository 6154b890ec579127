import AgentConfig.Runtime
import AgentConfig.Yaml.Node
import AgentConfig.Yaml.Scalar.Moment
import AgentConfig.Yaml.Scalar.Number

namespace AgentConfig.Yaml

/-- A fault and the round in which it comes to light: a node is looked at one round after the
collection that it stands in, and the nodes of a round in the order of the text. -/
structure Timed where
  round : Nat
  error : Error

/-- The earlier of two faults; of one round the first. -/
def Timed.earlier : Option Timed → Option Timed → Option Timed
  | some a, some b => if b.round < a.round then some b else some a
  | some a, none => some a
  | none, b => b

def Timed.later (t : Timed) : Timed :=
  { t with round := t.round + 1 }

/-- A node with its value, and with what other nodes can ask of it: the text that stands for it as a
scalar, the items of a sequence, the entries of a mapping as written and with others merged into it. -/
inductive Datum where
  | scalar (tag : Tag) (text : Piece) (value : Value) (fault : Option Timed)
  | sequence (tag : Tag) (items : List Datum) (value : Value) (fault : Option Timed)
  | mapping (tag : Tag) (entries : List (Datum × Datum)) (merged : Except Error (List (Datum × Datum)))
      (text : Except Error Piece) (value : Value) (fault : Option Timed)

namespace Datum

def tag : Datum → Tag
  | scalar t .. | sequence t .. | mapping t .. => t

def value : Datum → Value
  | scalar _ _ v _ | sequence _ _ v _ | mapping _ _ _ _ v _ => v

def fault : Datum → Option Timed
  | scalar _ _ _ f | sequence _ _ _ f | mapping _ _ _ _ _ f => f

/-- What stands for a node that is not known yet. -/
def hole : Datum :=
  .sequence .sequence [] (.list []) none

def hasTag (tag : Tag) (d : Datum) : Bool :=
  d.tag == tag

/-- Lists, sets and maps cannot be keys. -/
def isHashable (d : Datum) : Bool :=
  match d.value with
  | .list _ | .set _ | .map _ => false
  | _ => true

/-- The text that stands for a node where a scalar is wanted. -/
def scalarText : Datum → Except Error Piece
  | scalar _ text _ _ => .ok text
  | sequence .. => .error (.value (.wrongKind .scalar .sequence))
  | mapping _ _ _ text _ _ => text

/-- For a mapping that is the text of its default entry. -/
def defaultText (entries : List (Datum × Datum)) : Except Error Piece :=
  match entries.find? (·.1.hasTag .default) with
  | some (_, v) => v.scalarText
  | none => .error (.value (.wrongKind .scalar .mapping))

/-- The bytes that a text in base 64 denotes. -/
def readBytes (text : List Char) : Except Error (List UInt8) :=
  let foreign := text.dropWhile (·.toNat < 128)
  match foreign with
  | [] =>
    match Text.readBase64 text with
    | .ok bytes => .ok bytes
    | .error e => .error (.value (.bytesNotBase64 e))
  | c :: _ =>
    let first := text.length - foreign.length
    let count := (foreign.takeWhile (128 ≤ ·.toNat)).length
    let place :=
      if count = 1 then
        let code := c.toNat
        let escape := if code < 0x100 then "\\x" ++ String.ofList (Text.hexDigits 2 code)
          else if code < 0x10000 then "\\u" ++ String.ofList (Text.hexDigits 4 code)
          else "\\U" ++ String.ofList (Text.hexDigits 8 code)
        s!"character '" ++ escape ++ s!"' in position {first}"
      else s!"characters in position {first}-{first + count - 1}"
    .error (.value (.bytesNotAscii ("'ascii' codec can't encode " ++ place ++ ": ordinal not in range(128)")))

/-- The value of a text, which nothing can be said about if a part of it is lost. -/
def textValue : Piece → Value
  | some s => .text (String.ofList s)
  | none => .brokenText

/-- The value of a scalar text under a tag, if scalars can have the tag. `isScalar` tells the text of a
scalar from the default text of a mapping. -/
def scalarValue? (tag : Tag) (isScalar : Bool) (text : Piece) : Option (Except Error Value) :=
  let chars := text.getD []
  match tag with
  | .null => some (.ok .null)
  | .bool => some (.bool <$> readBool chars)
  | .int => some (.int <$> readInt chars)
  | .float => some (.float <$> readFloat chars)
  | .bytes => some (.bytes <$> readBytes chars)
  | .moment =>
    some (if isScalar then (fun _ => .moment) <$> Moment.check chars else .error (.scalar .momentFromMapping))
  | .text => some (.ok (textValue text))
  | _ => none

/-- The entries of a mapping that is merged into another. -/
def entriesToMerge : Datum → Except Error (List (Datum × Datum))
  | .mapping _ _ merged .. => merged
  | _ => .error (.value .mapping)

/-- What a mapping takes over under a merge key: the entries of a mapping, or those of several with the
first of them last. -/
def mergeSource : Datum → Except Error (List (Datum × Datum))
  | .sequence _ items _ _ => (fun parts => parts.reverse.flatten) <$> items.mapM entriesToMerge
  | d => entriesToMerge d

/-- A key as it stands in a mapping, where a default key is the text that stands for it. -/
def asKey (d : Datum) : Datum :=
  if d.hasTag .default then
    match d.scalarText with
    | .ok text => .scalar .text text (textValue text) none
    | .error error => .scalar .text none .null (some { round := 0, error })
  else d

/-- The entries taken over and those of its own. -/
def splitMerges : List (Datum × Datum) → Except Error (List (Datum × Datum) × List (Datum × Datum))
  | [] => .ok ([], [])
  | (key, v) :: rest =>
    if key.hasTag .merge then do
      let more ← mergeSource v
      let (merged, own) ← splitMerges rest
      .ok (more ++ merged, own)
    else do
      let (merged, own) ← splitMerges rest
      .ok (merged, (key.asKey, v) :: own)

/-- The entries of a mapping once others are merged into it. Its own come last, so that they win. -/
def mergeEntries (entries : List (Datum × Datum)) : Except Error (List (Datum × Datum)) :=
  (fun (merged, own) => merged ++ own) <$> splitMerges entries

/-- The first fault of the keys and values of a mapping. -/
def entriesFault (entries : List (Datum × Datum)) : Option Timed :=
  entries.foldl (fun found (key, v) =>
    let keyFault := Timed.earlier key.fault
      (if key.isHashable then none else some { round := 0, error := .value .mapping })
    Timed.earlier found (Timed.earlier keyFault v.fault)) none

def entriesValue (entries : List (Datum × Datum)) : Value :=
  .map (entries.map fun (key, v) => (key.value, v.value))

/-- The fault of a collection whose items have some first fault. -/
def inside (fault : Option Timed) : Option Timed :=
  fault.map (·.later)

def failed (error : Error) : Option Timed :=
  some { round := 1, error }

/-- An ordered map or a list of pairs: a sequence of mappings with one entry each. -/
def pairsOf (fault : ValueFault) : List Datum → List Value × Option Timed
  | [] => ([], none)
  | .mapping _ [(key, v)] .. :: rest =>
    let (values, later) := pairsOf fault rest
    (.list [key.value, v.value] :: values, Timed.earlier (Timed.earlier key.fault v.fault) later)
  | _ :: _ => ([], some { round := 0, error := .value fault })

/-- A list of pairs as a value. -/
def pairsValue (fault : ValueFault) (kind : NodeKind) (items : List Datum) : Value × Option Timed :=
  match kind with
  | .sequence =>
    let (values, found) := pairsOf fault items
    (.list values, inside found)
  | _ => (.list [], failed (.value fault))

/-- What a node under a tag stands for, given its scalar text, its items and its merged entries. -/
def assess (tag : Tag) (kind : NodeKind) (text : Except Error Piece) (items : List Datum)
    (merged : Except Error (List (Datum × Datum))) : Value × Option Timed :=
  let ofMapping (read : List (Datum × Datum) → Value) : Value × Option Timed :=
    match kind with
    | .mapping =>
      match merged with
      | .ok entries => (read entries, inside (entriesFault entries))
      | .error e => (.null, failed e)
    | _ => (.null, failed (.value (.wrongKind .mapping kind)))
  match tag with
  | .sequence =>
    match kind with
    | .sequence => (.list (items.map value), inside (items.foldl (Timed.earlier · ·.fault) none))
    | _ => (.list [], failed (.value (.wrongKind .sequence kind)))
  | .mapping => ofMapping entriesValue
  | .set =>
    match ofMapping entriesValue with
    | (.map entries, fault) => (.set (Value.distinct (entries.map (·.1))), fault)
    | (_, fault) => (.set [], fault)
  | .orderedMap => pairsValue .orderedMap kind items
  | .pairs => pairsValue .pairs kind items
  | _ =>
    let found := match text with
      | .ok text => (scalarValue? tag (kind == NodeKind.scalar) text).getD (.error (.value (.unknownTag tag.name)))
      | .error e =>
        if (scalarValue? tag true none).isSome then .error e else .error (.value (.unknownTag tag.name))
    match found with
    | .ok v => (v, none)
    | .error error => (.null, some { round := 0, error })

/-- What is known of the nodes that have names. -/
abbrev Known := List (String × Datum)

def Known.add (known : Known) (anchor : Option String) (d : Datum) : Known :=
  match anchor with
  | some name => (name, d) :: known
  | none => known

mutual
/-- Works out a node and the named nodes in it. A name that stands for a node around it is looked up in
`outer`. -/
def ofNode (outer : Known) : Node → Known → Datum × Known
  | .aliasTo name, known => ((known.lookup name).getD ((outer.lookup name).getD hole), known)
  | .scalar anchor tag text, known =>
    let (v, fault) := assess tag .scalar (.ok text) [] (.ok [])
    let d := Datum.scalar tag text v fault
    (d, known.add anchor d)
  | .sequence anchor tag items, known =>
    let (items, known) := ofNodes outer items known
    let (v, fault) := assess tag .sequence (.error (.value (.wrongKind .scalar .sequence))) items (.ok [])
    let d := Datum.sequence tag items v fault
    (d, known.add anchor d)
  | .mapping anchor tag entries, known =>
    let (entries, known) := ofEntries outer entries known
    let merged := mergeEntries entries
    let text := defaultText entries
    let (v, fault) := assess tag .mapping text [] merged
    let d := Datum.mapping tag entries merged text v fault
    (d, known.add anchor d)

def ofNodes (outer : Known) : List Node → Known → List Datum × Known
  | [], known => ([], known)
  | node :: rest, known =>
    let (d, known) := ofNode outer node known
    let (ds, known) := ofNodes outer rest known
    (d :: ds, known)

def ofEntries (outer : Known) : List (Node × Node) → Known → List (Datum × Datum) × Known
  | [], known => ([], known)
  | (key, node) :: rest, known =>
    let (k, known) := ofNode outer key known
    let (d, known) := ofNode outer node known
    let (ds, known) := ofEntries outer rest known
    ((k, d) :: ds, known)
end

/-- How many times a node that contains itself is unfolded. No document is nested more deeply. -/
def unfoldings : Nat := 10

def ofRoot (node : Node) : Nat → Datum × Known
  | 0 => ofNode [] node []
  | n + 1 => ofNode (ofRoot node n).2 node []

end Datum

/-- The value of a node, or its first fault. -/
def valueOf (node : Node) : Except Error Value :=
  let d := (Datum.ofRoot node Datum.unfoldings).1
  match d.fault with
  | some t => .error t.error
  | none => .ok d.value

/-- The value that a text denotes; an empty text denotes null. No text is nested too deep: unlike JSON, of which a
known depth is read, YAML is taken to find a stack that is large enough. -/
def read (text : String) : Except Error Value := do
  match ← Node.ofText text with
  | none => return .null
  | some node => valueOf node

/-- The value that a text denotes, as a process comes to see it. -/
def load [Runtime] (text : String) : Except Error Value :=
  Value.arranged <$> read text

end AgentConfig.Yaml
