import AgentConfig.Yaml.Lexer
import AgentConfig.Yaml.Tag

namespace AgentConfig.Yaml

/-- The structure of a text: what stands where, under which tag and by which name others refer to it. -/
inductive Node where
  | aliasTo (name : String)
  | scalar (anchor : Option String) (tag : Tag) (text : Piece)
  | sequence (anchor : Option String) (tag : Tag) (items : List Node)
  | mapping (anchor : Option String) (tag : Tag) (entries : List (Node × Node))

namespace Node

/-- What has been read of a text: the tokens ahead, the handles of its tags and the names in use. -/
structure Reader where
  tokens : List Token
  handles : List (String × String)
  anchors : List String

def defaultHandles : List (String × String) :=
  [("!", "!"), ("!!", Tag.common)]

def emptyScalar : Node :=
  .scalar none .null (some [])

/-- The next token does not fit: a fault of the text goes before a fault of grammar. -/
def unexpected {α : Type} (tokens : List Token) (fault : GrammarFault) : Except Error α :=
  match tokens with
  | .fault e :: _ => .error e
  | _ => .error (.grammar fault)

/-- Reads an anchor and a tag, in either order and each at most once. -/
def properties : List Token → Option String × Option (Option String × String) × List Token
  | .anchor name :: .tag handle suffix :: rest => (some name, some (handle, suffix), rest)
  | .anchor name :: rest => (some name, none, rest)
  | .tag handle suffix :: .anchor name :: rest => (some name, some (handle, suffix), rest)
  | .tag handle suffix :: rest => (none, some (handle, suffix), rest)
  | tokens => (none, none, tokens)

/-- The whole name of a tag. -/
def tagName (r : Reader) : Option String × String → Except Error String
  | (none, suffix) => .ok suffix
  | (some handle, suffix) =>
    match r.handles.lookup handle with
    | some address => .ok (address ++ suffix)
    | none => .error (.grammar .undefinedHandle)

/-- The tag of a scalar. Without one, or with the tag `!`, the form of a plain scalar decides. -/
def scalarTag (tag : Option String) (plain : Bool) (text : Piece) : Tag :=
  match tag with
  | some "!" => (text.map Tag.ofPlain).getD .text
  | some name => .ofName name
  | none => if plain then (text.map Tag.ofPlain).getD .text else .text

def collectionTag (tag : Option String) (usual : Tag) : Tag :=
  match tag with
  | none | some "!" => usual
  | some name => .ofName name

/-- Takes a name into use, which must be new. -/
def define (r : Reader) (anchor : Option String) : Except Error Reader :=
  match anchor with
  | none => .ok r
  | some name =>
    if r.anchors.contains name then .error (.graph (.duplicateAnchor name))
    else .ok { r with anchors := name :: r.anchors }

/-- Where a node stands decides which forms it may have. -/
inductive Position where
  | flow
  | block
  | blockOrDashes
  deriving DecidableEq

def isFault (tokens : List Token) : Option Error :=
  match tokens with
  | .fault e :: _ => some e
  | _ => none

mutual
/-- Reads one node. -/
def read : Nat → Position → Reader → Except Error (Node × Reader)
  | 0, _, r => unexpected r.tokens .blockNode
  | fuel + 1, position, r =>
    match r.tokens with
    | .aliasTo name :: rest =>
      if r.anchors.contains name then .ok (.aliasTo name, { r with tokens := rest })
      else .error (.graph (.undefinedAlias name))
    | _ => do
      let (anchor, tag, tokens) := properties r.tokens
      if let some e := isFault tokens then .error e
      else
        let tag ← match tag with
          | some tag => some <$> tagName r tag
          | none => pure none
        let r := { r with tokens }
        match tokens with
        | .scalar text plain :: rest =>
          let r ← define r anchor
          .ok (.scalar anchor (scalarTag tag plain text) text, { r with tokens := rest })
        | .flowSequenceStart :: rest => do
          let r ← define r anchor
          let (items, r) ← readFlowItems fuel true { r with tokens := rest }
          .ok (.sequence anchor (collectionTag tag .sequence) items, r)
        | .flowMappingStart :: rest => do
          let r ← define r anchor
          let (entries, r) ← readFlowEntries fuel true { r with tokens := rest }
          .ok (.mapping anchor (collectionTag tag .mapping) entries, r)
        | t :: rest =>
          if t matches .entry && position = .blockOrDashes then do
            let r ← define r anchor
            let (items, r) ← readDashes fuel r
            .ok (.sequence anchor (collectionTag tag .sequence) items, r)
          else if t matches .sequenceStart && position ≠ .flow then do
            let r ← define r anchor
            let (items, r) ← readBlockItems fuel { r with tokens := rest }
            .ok (.sequence anchor (collectionTag tag .sequence) items, r)
          else if t matches .mappingStart && position ≠ .flow then do
            let r ← define r anchor
            let (entries, r) ← readBlockEntries fuel { r with tokens := rest }
            .ok (.mapping anchor (collectionTag tag .mapping) entries, r)
          else readNothing position anchor tag r
        | [] => readNothing position anchor tag r

/-- No content: an empty scalar if an anchor or a tag stands for it. -/
def readNothing (position : Position) (anchor tag : Option String) (r : Reader) : Except Error (Node × Reader) :=
  if anchor.isSome || tag.isSome then do
    let r ← define r anchor
    .ok (.scalar anchor (scalarTag tag true (some [])) (some []), r)
  else unexpected r.tokens (if position = .flow then .flowNode else .blockNode)

/-- Reads the items of a block sequence and its end. -/
def readBlockItems : Nat → Reader → Except Error (List Node × Reader)
  | 0, r => unexpected r.tokens .blockSequence
  | fuel + 1, r =>
    match r.tokens with
    | .entry :: rest => do
      let (item, r) ← match rest with
        | .entry :: _ | .blockEnd :: _ => pure (emptyScalar, { r with tokens := rest })
        | _ => read fuel .block { r with tokens := rest }
      let (items, r) ← readBlockItems fuel r
      .ok (item :: items, r)
    | .blockEnd :: rest => .ok ([], { r with tokens := rest })
    | tokens => unexpected tokens .blockSequence

/-- Reads the items of a sequence that is not indented. It ends before the first token that is no dash. -/
def readDashes : Nat → Reader → Except Error (List Node × Reader)
  | 0, r => unexpected r.tokens .blockSequence
  | fuel + 1, r =>
    match r.tokens with
    | .entry :: rest => do
      let (item, r) ← match rest with
        | .entry :: _ | .key :: _ | .value :: _ | .blockEnd :: _ => pure (emptyScalar, { r with tokens := rest })
        | _ => read fuel .block { r with tokens := rest }
      let (items, r) ← readDashes fuel r
      .ok (item :: items, r)
    | _ => .ok ([], r)

/-- Reads a key or a value of a block mapping after its mark. -/
def readBlockPart : Nat → Reader → Except Error (Node × Reader)
  | 0, r => unexpected r.tokens .blockMapping
  | fuel + 1, r =>
    match r.tokens with
    | .key :: _ | .value :: _ | .blockEnd :: _ => .ok (emptyScalar, r)
    | _ => read fuel .blockOrDashes r

/-- Reads the entries of a block mapping and its end. -/
def readBlockEntries : Nat → Reader → Except Error (List (Node × Node) × Reader)
  | 0, r => unexpected r.tokens .blockMapping
  | fuel + 1, r =>
    match r.tokens with
    | .key :: rest => do
      let (key, r) ← readBlockPart fuel { r with tokens := rest }
      let (value, r) ← match r.tokens with
        | .value :: rest => readBlockPart fuel { r with tokens := rest }
        | _ => pure (emptyScalar, r)
      let (entries, r) ← readBlockEntries fuel r
      .ok ((key, value) :: entries, r)
    | .blockEnd :: rest => .ok ([], { r with tokens := rest })
    | tokens => unexpected tokens .blockMapping

/-- Reads the value of a flow entry, if a colon stands before it. `closing` ends the collection. -/
def readFlowValue : Nat → Token → Reader → Except Error (Node × Reader)
  | 0, _, r => unexpected r.tokens .flowNode
  | fuel + 1, closing, r =>
    match r.tokens with
    | .value :: rest =>
      match rest with
      | t :: _ =>
        if t matches .comma || t.word == closing.word then .ok (emptyScalar, { r with tokens := rest })
        else read fuel .flow { r with tokens := rest }
      | [] => read fuel .flow { r with tokens := rest }
    | _ => .ok (emptyScalar, r)

/-- Reads a key and its value after the mark of a key in a flow collection. -/
def readFlowPair : Nat → Token → Reader → Except Error ((Node × Node) × Reader)
  | 0, _, r => unexpected r.tokens .flowNode
  | fuel + 1, closing, r => do
    let (key, r) ← match r.tokens with
      | t :: _ =>
        if t matches .value | .comma || t.word == closing.word then pure (emptyScalar, r) else read fuel .flow r
      | [] => read fuel .flow r
    let (value, r) ← readFlowValue fuel closing r
    .ok ((key, value), r)

/-- Reads the items of a flow sequence and its end. An item may be a single entry of a mapping. -/
def readFlowItems : Nat → Bool → Reader → Except Error (List Node × Reader)
  | 0, _, r => unexpected r.tokens .flowSequence
  | fuel + 1, first, r =>
    match r.tokens with
    | .flowSequenceEnd :: rest => .ok ([], { r with tokens := rest })
    | _ => do
      let r ← if first then pure r
        else
          match r.tokens with
          | .comma :: rest => pure { r with tokens := rest }
          | tokens => unexpected tokens .flowSequence
      match r.tokens with
      | .key :: rest =>
        let (pair, r) ← readFlowPair fuel .flowSequenceEnd { r with tokens := rest }
        let (items, r) ← readFlowItems fuel false r
        .ok (.mapping none .mapping [pair] :: items, r)
      | .flowSequenceEnd :: rest => .ok ([], { r with tokens := rest })
      | _ =>
        let (item, r) ← read fuel .flow r
        let (items, r) ← readFlowItems fuel false r
        .ok (item :: items, r)

/-- Reads the entries of a flow mapping and its end. A lone key has no value. -/
def readFlowEntries : Nat → Bool → Reader → Except Error (List (Node × Node) × Reader)
  | 0, _, r => unexpected r.tokens .flowMapping
  | fuel + 1, first, r =>
    match r.tokens with
    | .flowMappingEnd :: rest => .ok ([], { r with tokens := rest })
    | _ => do
      let r ← if first then pure r
        else
          match r.tokens with
          | .comma :: rest => pure { r with tokens := rest }
          | tokens => unexpected tokens .flowMapping
      match r.tokens with
      | .key :: rest =>
        let (pair, r) ← readFlowPair fuel .flowMappingEnd { r with tokens := rest }
        let (entries, r) ← readFlowEntries fuel false r
        .ok (pair :: entries, r)
      | .flowMappingEnd :: rest => .ok ([], { r with tokens := rest })
      | _ =>
        let (key, r) ← read fuel .flow r
        let (entries, r) ← readFlowEntries fuel false r
        .ok ((key, emptyScalar) :: entries, r)
end

/-- What the directives before a document say. -/
structure Prologue where
  version : Option (Nat × Nat)
  handles : List (String × String)

/-- Reads directives. -/
def readDirectives : Prologue → List Token → Except Error (Prologue × List Token)
  | p, .directive d :: rest =>
    match d with
    | .version major minor =>
      if p.version.isSome then .error (.grammar .duplicateVersion)
      else if major ≠ 1 then .error (.grammar .incompatibleVersion)
      else readDirectives { p with version := some (major, minor) } rest
    | .handle handle address =>
      if (p.handles.lookup handle).isSome then .error (.grammar (.duplicateHandle handle))
      else readDirectives { p with handles := (handle, address) :: p.handles } rest
    | .reserved => readDirectives p rest
  | p, tokens => .ok (p, tokens)

/-- Reads directives and the start of a document, and gives the handles of its tags. -/
def readExplicitStart (tokens : List Token) : Except Error (List (String × String) × List Token) := do
  let (p, tokens) ← readDirectives { version := none, handles := [] } tokens
  match tokens with
  | .documentStart :: rest => .ok (p.handles ++ defaultHandles, rest)
  | .fault e :: _ => .error e
  | t :: _ => .error (.grammar (.documentStart t.word))
  | [] => .error (.grammar (.documentStart Token.textEnd.word))

/-- Reads the content of a document, which may be empty after an explicit start. -/
def readContent (explicit : Bool) (handles : List (String × String)) (tokens : List Token) :
    Except Error (Node × List Token) := do
  let r : Reader := { tokens, handles, anchors := [] }
  let empty := explicit &&
    match tokens.head? with
    | some (.directive _) | some .documentStart | some .documentEnd | some .textEnd => true
    | _ => false
  if empty then .ok (emptyScalar, tokens)
  else
    let (node, r) ← read (2 * tokens.length + 2) .block r
    .ok (node, r.tokens)

/-- Fails unless the text ends here. -/
def expectEnd (tokens : List Token) : Except Error Unit := do
  let tokens ← match tokens with
    | .documentEnd :: rest => pure rest
    | .fault e :: _ => .error e
    | tokens => pure tokens
  let rest := tokens.dropWhile (· matches .documentEnd)
  match rest with
  | .textEnd :: _ => .ok ()
  | .fault e :: _ => .error e
  | _ => do
    let _ ← readExplicitStart rest
    .error (.graph .severalDocuments)

/-- The one document that tokens denote, if they denote any. -/
def ofTokens (tokens : List Token) : Except Error (Option Node) :=
  match tokens with
  | .fault e :: _ => .error e
  | .textEnd :: _ => .ok none
  | .directive _ :: _ | .documentStart :: _ => do
    let (handles, tokens) ← readExplicitStart tokens
    let (node, tokens) ← readContent true handles tokens
    expectEnd tokens
    .ok (some node)
  | _ => do
    let (node, tokens) ← readContent false defaultHandles tokens
    expectEnd tokens
    .ok (some node)

def ofText (text : String) : Except Error (Option Node) :=
  ofTokens (tokensOf text.toList)

end Node
end AgentConfig.Yaml
