import AgentConfig.Json.Token

namespace AgentConfig.Json

/-- How deep lists and records that are not empty may be nested in a document. -/
def depthLimit : Nat := 200

/-- The key of an entry and the colon after it. -/
def readKey : List Token → Except Error (String × List Token)
  | .text content :: rest => do
    let key ← content
    match rest with
    | [] => .error .endInObject
    | .colon :: rest => .ok (key, rest)
    | _ => .error .colonExpected
  | _ => .error .keyExpected

/-- The key after a comma. -/
def readNextKey : List Token → Except Error (String × List Token)
  | [] => .error .endInValue
  | .recordClose :: _ => .error .trailingComma
  | ts => readKey ts

mutual
/-- Reads a value from tokens; `depth` is how many further levels may be opened. -/
def readValue : Nat → Nat → List Token → Except Error (Tree × List Token)
  | 0, _, _ | _, _, [] => .error .endInValue
  | fuel + 1, depth, t :: rest =>
    match t with
    | .scalar value => (·, rest) <$> value
    | .text content => (.text ·, rest) <$> content
    | .listOpen =>
      match rest with
      | [] => .error .endInList
      | .listClose :: rest => .ok (.list [], rest)
      | _ =>
        match depth with
        | 0 => .error .tooDeep
        | depth + 1 => do
          let (items, rest) ← readItems fuel depth rest
          .ok (.list items, rest)
    | .recordOpen =>
      match rest with
      | [] => .error .endInObject
      | .recordClose :: rest => .ok (.record [], rest)
      | _ => do
        let (key, rest) ← readKey rest
        match depth with
        | 0 => .error .tooDeep
        | depth + 1 =>
          let (entries, rest) ← readEntries fuel depth key rest
          .ok (.record entries, rest)
    | _ => .error .valueExpected

/-- Reads the items of a list and its closing bracket. -/
def readItems : Nat → Nat → List Token → Except Error (List Tree × List Token)
  | 0, _, _ => .error .endInList
  | fuel + 1, depth, ts => do
    let (item, rest) ← readValue fuel depth ts
    match rest with
    | .listClose :: rest => .ok ([item], rest)
    | [.comma] => .error .endInValue
    | .comma :: .listClose :: _ => .error .trailingComma
    | .comma :: rest =>
      let (items, rest) ← readItems fuel depth rest
      .ok (item :: items, rest)
    | [] => .error .endInList
    | _ => .error .listCommaExpected

/-- Reads the value under `key`, the entries after it and the closing brace. -/
def readEntries : Nat → Nat → String → List Token → Except Error (List (String × Tree) × List Token)
  | 0, _, _, _ => .error .endInObject
  | fuel + 1, depth, key, ts => do
    let (value, rest) ← readValue fuel depth ts
    match rest with
    | .recordClose :: rest => .ok ([(key, value)], rest)
    | .comma :: rest =>
      let (next, rest) ← readNextKey rest
      let (entries, rest) ← readEntries fuel depth next rest
      .ok ((key, value) :: entries, rest)
    | [] => .error .endInObject
    | _ => .error .objectCommaExpected
end

/-- The data that a sequence of tokens denotes, nested at most so deep. -/
def readTokens (depth : Nat) (ts : List Token) : Except Error Tree := do
  let (t, rest) ← readValue (2 * ts.length + 1) depth ts
  if rest.isEmpty then .ok t else .error .trailingText

def readWithin (depth : Nat) (s : String) : Except Error Tree :=
  readTokens depth (tokensOf s.toList)

def read (s : String) : Except Error Tree :=
  readWithin depthLimit s

end AgentConfig.Json
