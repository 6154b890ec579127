import AgentConfig.Proofs.Yaml.Plain
import AgentConfig.Proofs.Yaml.Quoted
import AgentConfig.Yaml.Lexer

namespace AgentConfig.Yaml
namespace Lexer

/-- A state of reading tokens whose count is right. -/
def place (c : Cursor) (indents : List Nat) (keys : List (Option PossibleKey)) (allowKey : Bool) (tokens : List Token) :
    Lexer where
  cursor := c
  indents := indents
  keys := keys
  allowKey := allowKey
  tokens := tokens
  count := tokens.length

section place

variable (c : Cursor) (indents : List Nat) (keys : List (Option PossibleKey)) (allowKey : Bool) (tokens : List Token)

@[simp] theorem cursor_place : (place c indents keys allowKey tokens).cursor = c :=
  rfl

@[simp] theorem inFlow_place (key : Option PossibleKey) : (place c indents [key] allowKey tokens).inFlow = false :=
  rfl

end place

/-- At the next token, with the blocks closed that end before it. -/
def arrive (s : Lexer) : Except Error Lexer := do
  let s ← (skipToToken s.cursor.fuel s.skipMark).dropStale
  .ok (s.unwindTo s.cursor.column)

theorem step_eq_arrive (s : Lexer) : s.step = s.arrive >>= token := by
  rw [step, arrive]
  cases (skipToToken s.cursor.fuel s.skipMark).dropStale <;> rfl

/-- At a place in some column on a line of its own, where a token of a block may start. -/
def land (c : Cursor) (indents : List Nat) (tokens : List Token) : Lexer :=
  unwind c.column indents (place c [] [none] true tokens)

section land

variable {c : Cursor} {column : Nat} {indents : List Nat} {tokens : List Token}

theorem land_stay (reached : ∀ open_ ∈ indents.head?, open_ ≤ c.column) :
    land c indents tokens = place c indents [none] true tokens := by
  cases indents with
  | nil => rfl
  | cons open_ rest =>
    have stays : ¬ ((c.column : Int) < open_) := by
      have bound := reached open_ rfl
      omega
    rw [land, unwind, if_neg stays]
    rfl

@[simp] theorem cursor_land (c : Cursor) (indents : List Nat) (tokens : List Token) :
    (land c indents tokens).cursor = c := by
  have kept (s : Lexer) : (unwind c.column indents s).cursor = s.cursor := by
    induction indents generalizing s with
    | nil => rfl
    | cons open_ rest ih =>
      rw [unwind]
      split
      · exact ih (s.push .blockEnd)
      · rfl
  exact kept _

theorem land_close (closed : c.column < column) :
    land c (column :: indents) tokens = land c indents (.blockEnd :: tokens) := by
  have opens : (c.column : Int) < column := by exact_mod_cast closed
  rw [land, unwind, if_pos opens]
  rfl

end land

/-- A token or the end comes first. -/
structure Starts (rest : List Char) : Prop where
  inked : Inked rest
  comment : rest.headD endMark ≠ '#'
  mark : rest.headD endMark ≠ '\ufeff'

theorem Starts.of_isPrinted {ch : Char} {rest : List Char} (printed : isPrinted ch = true) (ink : ch ≠ ' ')
    (apart : ch ≠ '#') : Starts (ch :: rest) :=
  ⟨.of_isPrinted printed ink, apart, ne_of_isPrinted printed _ (by decide)⟩

theorem Starts.of_onset {rest : List Char} (onset : Onset rest) : Starts rest := by
  have inked := onset.inked
  obtain rfl | ⟨more, rfl⟩ | ⟨ch, more, rfl, name, apart⟩ := onset
  · exact ⟨inked, by decide, by decide⟩
  · exact .of_isPrinted (by decide) (by decide) (by decide)
  · have other : ch ≠ '#' := by
      rintro rfl
      exact absurd name (by decide)
    exact ⟨inked, other, ne_of_isPrinted (isPrinted_of_isNameChar name) _ (by decide)⟩

section arrive

variable {c : Cursor} {rest : List Char}

theorem skipToToken_spaces {k : Nat} (ahead : c.rest = spaces k ++ rest) (starts : Starts rest) (fuel : Nat)
    (indents : List Nat) (keys : List (Option PossibleKey)) (allowKey : Bool) (tokens : List Token) :
    skipToToken (fuel + 1) (place c indents keys allowKey tokens) =
      place (c.past (spaces k)) indents keys allowKey tokens := by
  have more := Cursor.rest_past ahead
  have stops : (c.past (spaces k)).head = rest.headD endMark := Cursor.head_eq more
  have still : (c.past (spaces k)).skipComment = c.past (spaces k) := by
    rw [Cursor.skipComment, stops, if_neg (by simpa using starts.comment)]
  have here : (place c indents keys allowKey tokens).cursor.skipSpaces.skipComment = c.past (spaces k) := by
    rw [place, Cursor.skipSpaces_of_rest ahead starts.inked.head?_ne, still]
  rw [skipToToken]
  simp only [here, (starts.inked.head more).2, Bool.false_eq_true, if_false]
  rfl

theorem skipToToken_newLine {k : Nat} (ahead : c.rest = newLine k ++ rest) (starts : Starts rest) (fuel : Nat)
    (indents : List Nat) (key : Option PossibleKey) (allowKey : Bool) (tokens : List Token) :
    skipToToken (fuel + 2) (place c indents [key] allowKey tokens) =
      place (c.past (newLine k)) indents [key] true tokens := by
  have feed : c.rest = '\n' :: (spaces k ++ rest) := ahead
  have none : c.skipSpaces = c := Cursor.skipSpaces_of_rest (show c.rest = spaces 0 ++ c.rest from rfl) (by simp [feed])
  have still : c.skipComment = c := by rw [Cursor.skipComment, Cursor.head_of_rest feed, if_neg (by decide)]
  have here : (place c indents [key] allowKey tokens).cursor.skipSpaces.skipComment = c := by
    rw [place, none, still]
  have onward := skipToToken_spaces (Cursor.next_of_rest feed).1 starts fuel indents [key] true tokens
  have fresh : (allowKey || !(place c indents [key] allowKey tokens).inFlow) = true := by simp [inFlow, place]
  rw [newLine, Cursor.past_cons, ← spaces, ← onward, skipToToken]
  simp only [here, Cursor.head_of_rest feed, Cursor.lineBreak_of_rest feed]
  rw [if_pos (by decide)]
  exact congrArg (fun allow => skipToToken (fuel + 1) (place c.next indents [key] allow tokens)) fresh

/-- A possible key that need not be one, on some line or before it. -/
def Light (key : Option PossibleKey) (line : Nat) : Prop :=
  ∀ k ∈ key, k.required = false ∧ k.line ≤ line

theorem Light.mono {key : Option PossibleKey} {line later : Nat} (light : Light key line) (le : line ≤ later) :
    Light key later := fun k mem => ⟨(light k mem).1, (light k mem).2.trans le⟩

theorem Light.none (line : Nat) : Light none line := by
  simp [Light]

/-- Such a key may be forgotten, alone or around flow collections. -/
theorem dropStale_light (flows : Nat) {indents : List Nat} {key : Option PossibleKey} {allowKey : Bool}
    {tokens : List Token} {line : Nat} (light : Light key line) :
    ∃ kept, Light kept line ∧ (line < c.line → kept = none) ∧
      (place c indents (List.replicate flows none ++ [key]) allowKey tokens).dropStale =
        .ok (place c indents (List.replicate flows none ++ [kept]) allowKey tokens) := by
  cases key with
  | none => exact ⟨none, .none line, fun _ => rfl, by simp [dropStale, place]⟩
  | some k =>
    have ⟨free, early⟩ := light k rfl
    refine ⟨(some k).filter (!(place c indents [some k] allowKey tokens).isStale ·), fun k' mem => ?_, fun later => ?_, ?_⟩
    · obtain rfl : k = k' := Option.some.inj (Option.filter_eq_some_iff.1 mem).1
      exact ⟨free, early⟩
    · have apart : k.line ≠ c.line := by omega
      simp [isStale, place, apart]
    · simp [dropStale, place, free]
      rfl

/-- On a later line nothing is left of it. -/
theorem dropStale_later {indents : List Nat} {key : Option PossibleKey} {allowKey : Bool} {tokens : List Token}
    {line : Nat} (light : Light key line) (later : line < c.line) :
    (place c indents [key] allowKey tokens).dropStale = .ok (place c indents [none] allowKey tokens) := by
  obtain ⟨kept, -, gone, dropped⟩ := dropStale_light (c := c) 0 light
  rw [gone later] at dropped
  exact dropped

theorem dropStale_kept {s : Lexer} {key : PossibleKey} (alone : s.keys = [some key]) (fresh : s.isStale key = false) :
    s.dropStale = .ok s := by
  obtain ⟨cursor, indents, keys, allowKey, tokens, count⟩ := s
  subst alone
  rw [dropStale, if_neg (by simp [fresh])]
  simp [fresh]

theorem unwind_indents (column : Int) (indents other : List Nat) (s : Lexer) :
    unwind column indents { s with indents := other } = unwind column indents s := by
  induction indents generalizing s with
  | nil => rfl
  | cons open_ rest ih =>
    rw [unwind, unwind]
    split
    · exact ih (s.push .blockEnd)
    · rfl

theorem skipMark_place {indents : List Nat} {keys : List (Option PossibleKey)} {allowKey : Bool} {tokens : List Token}
    (apart : c.head ≠ '\ufeff') : (place c indents keys allowKey tokens).skipMark = place c indents keys allowKey tokens := by
  rw [skipMark, if_neg]
  simp [place, apart]

/-- On a new line all blocks are closed that are indented by more. -/
theorem arrive_newLine {k : Nat} {indents : List Nat} {key : Option PossibleKey} {allowKey : Bool} {tokens : List Token}
    (ahead : c.rest = newLine k ++ rest) (starts : Starts rest) (light : Light key c.line) :
    (place c indents [key] allowKey tokens).arrive = .ok (land (c.past (newLine k)) indents tokens) := by
  have feed : c.head = '\n' := Cursor.head_of_rest ahead
  have later : c.line < (c.past (newLine k)).line := Cursor.line_past_lt ahead (by simp [newLine])
  have enough : c.fuel = c.rest.length - 1 + (c.fuel - c.rest.length - 1) + 2 := by
    have bound := c.rest_length_lt_fuel
    have positive : 0 < c.rest.length := by simp [ahead, newLine]
    omega
  have skipped : skipToToken c.fuel (place c indents [key] allowKey tokens).skipMark =
      place (c.past (newLine k)) indents [key] true tokens := by
    rw [skipMark_place (by rw [feed]; decide), enough]
    exact skipToToken_newLine ahead starts _ indents key allowKey tokens
  rw [arrive, cursor_place, skipped]
  simp only [dropStale_later light later, bind, Except.bind]
  rw [unwindTo, inFlow_place, if_neg (by simp)]
  exact congrArg Except.ok (unwind_indents _ indents [] _).symm

/-- Behind spaces the next token is reached. -/
theorem arrive_spaces (k : Nat) (indents : List Nat) (keys : List (Option PossibleKey)) (allowKey : Bool)
    (tokens : List Token) (ahead : c.rest = spaces k ++ rest) (starts : Starts rest) {kept : List (Option PossibleKey)}
    (fresh : (place (c.past (spaces k)) indents keys allowKey tokens).dropStale =
      .ok (place (c.past (spaces k)) indents kept allowKey tokens)) :
    (place c indents keys allowKey tokens).arrive =
      .ok ((place (c.past (spaces k)) indents kept allowKey tokens).unwindTo (c.past (spaces k)).column) := by
  have first : c.head ≠ '\ufeff' := by
    rw [Cursor.head_eq ahead]
    cases k with
    | zero => exact starts.mark
    | succ k => simp [spaces, List.replicate_succ]
  have skipped : skipToToken c.fuel (place c indents keys allowKey tokens).skipMark =
      place (c.past (spaces k)) indents keys allowKey tokens := by
    rw [skipMark_place first]
    exact skipToToken_spaces ahead starts c.size indents keys allowKey tokens
  rw [arrive, cursor_place, skipped]
  simp only [fresh, bind, Except.bind]
  rfl

/-- No block is closed before a token that stands further in. -/
theorem unwindTo_stay {indents : List Nat} {key : Option PossibleKey} {allowKey : Bool} {tokens : List Token}
    (inside : ∀ open_ ∈ indents.head?, open_ ≤ c.column) :
    (place c indents [key] allowKey tokens).unwindTo c.column = place c indents [key] allowKey tokens := by
  rw [unwindTo, inFlow_place, if_neg (by simp)]
  cases indents with
  | nil => rfl
  | cons open_ outer =>
    have bound := inside open_ rfl
    have stays : ¬ ((c.column : Int) < open_) := by omega
    simp only [place, unwind]
    rw [if_neg stays]

/-- At the start of a line blocks are closed. -/
theorem arrive_here {indents : List Nat} {tokens : List Token} (ahead : c.rest = rest) (starts : Starts rest) :
    (place c indents [none] true tokens).arrive = .ok (land c indents tokens) := by
  rw [arrive_spaces 0 indents [none] true tokens ahead starts rfl]
  exact congrArg Except.ok (unwind_indents _ indents [] (place c indents [none] true tokens)).symm

end arrive

/-- One token is read and the next one is reached. -/
inductive Moves (s : Lexer) : Lexer → Prop
  | move {t fresh s' : Lexer} : s.token = .ok t → (t.tokens.head? matches some .textEnd) = false →
      t.dropStale = .ok fresh → fresh.arrive = .ok s' → s'.cursor.rest.length < s.cursor.rest.length → Moves s s'

/-- Tokens are read from a token on. -/
abbrev Reaches : Lexer → Lexer → Prop :=
  Relation.ReflTransGen Moves

theorem step_of_arrive {s s' t : Lexer} (start : s.arrive = .ok s') (read : s'.token = .ok t) : s.step = .ok t := by
  rw [step_eq_arrive, start]
  exact read

theorem run_succ (fuel : Nat) (s : Lexer) :
    run (fuel + 1) s =
      match s.step with
      | .error e => s.certain ++ [.fault e]
      | .ok next =>
        if next.tokens.head? matches some .textEnd then next.tokens.reverse
        else
          match next.dropStale with
          | .error e => s.certain ++ [.fault e]
          | .ok next => run fuel next := by
  rfl

/-- The tokens of a text whose last one is reached. -/
theorem run_of_reaches {s s' last t : Lexer} (start : s.arrive = .ok s') (reaches : Reaches s' last)
    (final : last.token = .ok t) (ends : (t.tokens.head? matches some .textEnd) = true) {fuel : Nat}
    (enough : s'.cursor.rest.length < fuel) : run fuel s = t.tokens.reverse := by
  induction reaches using Relation.ReflTransGen.head_induction_on generalizing s fuel with
  | refl =>
    obtain ⟨fuel, rfl⟩ := Nat.exists_eq_add_one_of_ne_zero (by omega : fuel ≠ 0)
    rw [run_succ, step_of_arrive start final]
    simp only [ends, if_true]
  | head moves _ ih =>
    obtain ⟨fuel, rfl⟩ := Nat.exists_eq_add_one_of_ne_zero (by omega : fuel ≠ 0)
    obtain ⟨read, goesOn, fresh, onward, shorter⟩ := moves
    have rest := ih onward (by omega : _ < fuel)
    rw [run_succ, step_of_arrive start read]
    simp only [goesOn, fresh, Bool.false_eq_true, if_false, rest]

section token

/-- Marks of their own start no plain scalar. -/
theorem not_startsPlain {ch next : Char}
    (mark : (isBlankOrEnd ch || "-?:,[]\x7b\x7d#&*!|>'\"%@`".toList.contains ch) = true)
    (apart : (ch == '-' || ch == '?' || ch == ':') = false) : startsPlain false ch next = false := by
  simp only [Bool.or_eq_false_iff] at apart
  rw [startsPlain, mark]
  simp [apart.1.1, apart.1.2, apart.2]

theorem token_plain {s : Lexer} (starts : startsPlain false s.cursor.head (s.cursor.peek 1) = true)
    (block : s.inFlow = false) (apart : s.cursor.column = 0 → s.cursor.head ≠ '-' ∧ s.cursor.head ≠ '.') :
    s.token = s.plainScalar := by
  -- What may start a plain scalar is no indicator, so no branch of the scanner before the last is taken.
  have marked {ch : Char} (mark : (isBlankOrEnd ch || "-?:,[]\x7b\x7d#&*!|>'\"%@`".toList.contains ch) = true)
      (own : (ch == '-' || ch == '?' || ch == ':') = false) : s.cursor.head ≠ ch := by
    rintro rfl
    rw [not_startsPlain mark own] at starts
    exact absurd starts (by simp)
  rw [token]
  split
  iterate 11
    · rename_i first
      exact absurd first (marked (by decide) (by decide))
  have percent : (s.cursor.head == '%') = false := beq_eq_false_iff_ne.2 (marked (by decide) (by decide))
  have bar : (s.cursor.head == '|') = false := beq_eq_false_iff_ne.2 (marked (by decide) (by decide))
  have angle : (s.cursor.head == '>') = false := beq_eq_false_iff_ne.2 (marked (by decide) (by decide))
  -- A dash, a question mark or a colon starts one only if something visible follows.
  have inline {ch : Char} (dash : (ch == '-' || ch == '?' || ch == ':') = true) (first : s.cursor.head = ch) :
      isBlankOrEnd (s.cursor.peek 1) = false := by
    rw [startsPlain, first] at starts
    obtain (rfl | rfl) | rfl : (ch = '-' ∨ ch = '?') ∨ ch = ':' := by simpa using dash
    all_goals
      simp only [Bool.or_eq_true, Bool.and_eq_true, Bool.not_eq_true'] at starts
      exact (starts.resolve_left (by decide)).1
  have notMarks (mark : Char) (dash : mark = '-' ∨ mark = '.') :
      (s.cursor.column == 0 && s.cursor.atMarks mark) = false := by
    by_cases edge : s.cursor.column = 0
    · obtain rfl | rfl := dash
      · simp [Cursor.not_atMarks (apart edge).1]
      · simp [Cursor.not_atMarks (apart edge).2]
    · simp [edge]
  have other (ch : Char) (dash : (ch == '-' || ch == '?' || ch == ':') = true) :
      (s.cursor.head == ch && isBlankOrEnd (s.cursor.peek 1)) = false := by
    by_cases first : s.cursor.head = ch
    · simp [inline dash first]
    · simp [first]
  simp only [percent, bar, angle, block, starts, notMarks '-' (.inl rfl), notMarks '.' (.inr rfl), other '-' (by decide),
    other '?' (by decide), other ':' (by decide), Bool.false_or, Bool.or_false, Bool.false_and, Bool.false_eq_true,
    if_false, if_true]

theorem token_dash {s : Lexer} (dash : s.cursor.head = '-') (space : s.cursor.peek 1 = ' ') : s.token = s.blockEntry := by
  have dashes : s.cursor.atMarks '-' = false := by simp [Cursor.atMarks, space]
  have points : s.cursor.atMarks '.' = false := Cursor.not_atMarks (by rw [dash]; decide)
  have blank : isBlankOrEnd ' ' = true := by decide
  rw [token]
  simp [dash, space, dashes, points, blank]

theorem token_quote {s : Lexer} (double : Bool) (quote : s.cursor.head = if double then '"' else '\'') :
    s.token = s.keyToken (fun c => do
      let (text, c) ← readQuoted c
      .ok (.scalar text false, c)) := by
  rw [token]
  cases double with
  | false =>
    have single : s.cursor.head = '\'' := quote
    simp only [single]
  | true =>
    have both : s.cursor.head = '"' := quote
    simp only [both]

theorem token_colon {s : Lexer} (colon : s.cursor.head = ':') (blank : isBlankOrEnd (s.cursor.peek 1) = true) :
    s.token = s.colon := by
  have dashes : s.cursor.atMarks '-' = false := Cursor.not_atMarks (by rw [colon]; decide)
  have points : s.cursor.atMarks '.' = false := Cursor.not_atMarks (by rw [colon]; decide)
  rw [token]
  simp [colon, blank, dashes, points]

/-- The possible key that is remembered in front of a token. -/
def keyAt (c : Cursor) (indents : List Nat) (tokens : List Token) : PossibleKey where
  number := tokens.length
  required := (place c indents [none] true tokens).indent == c.column
  index := c.index
  line := c.line
  column := c.column

theorem saveKey_allowed (c : Cursor) (indents : List Nat) (tokens : List Token) :
    (place c indents [none] true tokens).saveKey = .ok (place c indents [some (keyAt c indents tokens)] true tokens) :=
  rfl

/-- In front of a token that stands further in than the block around it, nothing need be a key. -/
theorem saveKey_light {c : Cursor} {indents : List Nat} (allowKey : Bool) (tokens : List Token)
    (deep : ∀ open_ ∈ indents.head?, open_ < c.column) : ∃ key, Light key c.line ∧
      (place c indents [none] allowKey tokens).saveKey = .ok (place c indents [key] allowKey tokens) := by
  cases allowKey with
  | false => exact ⟨none, .none _, rfl⟩
  | true =>
    refine ⟨some (keyAt c indents tokens), fun k mem => ?_, rfl⟩
    obtain rfl := Option.some.inj mem
    refine ⟨?_, Nat.le_refl _⟩
    cases indents with
    | nil => simp [keyAt, indent, place]
    | cons open_ rest =>
      have further := deep open_ rfl
      simpa [keyAt, indent, place] using further.ne

end token

/-- From a token on, the start of a line is reached in some column before some text. -/
def Lands (s : Lexer) (column : Nat) (after : List Char) (indents : List Nat) (tokens : List Token) : Prop :=
  ∃ c : Cursor, c.rest = after ∧ c.column = column ∧ Reaches s (land c indents tokens)

/-- The same from behind a token. -/
def Comes (s : Lexer) (column : Nat) (after : List Char) (indents : List Nat) (tokens : List Token) : Prop :=
  ∃ s', s.arrive = .ok s' ∧ s'.cursor.rest.length ≤ s.cursor.rest.length ∧ Lands s' column after indents tokens

theorem Lands.trans {s : Lexer} {column column' : Nat} {after after' : List Char} {indents indents' : List Nat}
    {tokens tokens' : List Token} (lands : Lands s column after indents tokens)
    (onward : ∀ c : Cursor, c.rest = after → c.column = column →
      Lands (land c indents tokens) column' after' indents' tokens') : Lands s column' after' indents' tokens' := by
  obtain ⟨c, rest, here, reaches⟩ := lands
  obtain ⟨c', rest', here', reaches'⟩ := onward c rest here
  exact ⟨c', rest', here', reaches.trans reaches'⟩

theorem Comes.trans {s : Lexer} {column column' : Nat} {after after' : List Char} {indents indents' : List Nat}
    {tokens tokens' : List Token} (comes : Comes s column after indents tokens)
    (onward : ∀ c : Cursor, c.rest = after → c.column = column →
      Lands (land c indents tokens) column' after' indents' tokens') : Comes s column' after' indents' tokens' := by
  obtain ⟨s', arrived, le, lands⟩ := comes
  exact ⟨s', arrived, le, lands.trans onward⟩

/-- A block that is indented by more than the line is closed. -/
theorem Lands.close {s : Lexer} {column open_ : Nat} {after : List Char} {indents : List Nat} {tokens : List Token}
    (less : column < open_) (lands : Lands s column after (open_ :: indents) tokens) :
    Lands s column after indents (.blockEnd :: tokens) := by
  obtain ⟨c, rest, rfl, reaches⟩ := lands
  rw [land_close less] at reaches
  exact ⟨c, rest, rfl, reaches⟩

/-- What follows on the same line after a space. -/
theorem Comes.of_space {c : Cursor} {rest after : List Char} {indents result : List Nat} {allowKey : Bool}
    {tokens final : List Token} {next : Nat} (ahead : c.rest = ' ' :: rest) (starts : Starts rest)
    (deep : ∀ open_ ∈ indents.head?, open_ ≤ c.column + 1)
    (lands : ∀ c' : Cursor, c'.rest = rest → c'.column = c.column + 1 →
      Lands (place c' indents [none] allowKey tokens) next after result final) :
    Comes (place c indents [none] allowKey tokens) next after result final := by
  have space : c.rest = spaces 1 ++ rest := ahead
  have column : (c.past (spaces 1)).column = c.column + 1 := (Cursor.column_past space (by decide)).1
  have more := Cursor.rest_past space
  refine ⟨place (c.past (spaces 1)) indents [none] allowKey tokens, ?_, ?_, lands _ more column⟩
  · rw [arrive_spaces 1 indents [none] allowKey tokens space starts rfl]
    exact congrArg Except.ok (unwindTo_stay fun o mem => (deep o mem).trans column.ge)
  · rw [cursor_place, cursor_place, more, ahead]
    simp

/-- What follows on a new line. -/
theorem Comes.of_newLine {c : Cursor} {rest after : List Char} {indents result : List Nat} {allowKey : Bool}
    {tokens final : List Token} {k next : Nat} (ahead : c.rest = newLine k ++ rest) (starts : Starts rest)
    (lands : ∀ c' : Cursor, c'.rest = rest → c'.column = k → Lands (land c' indents tokens) next after result final) :
    Comes (place c indents [none] allowKey tokens) next after result final := by
  have more := Cursor.rest_past ahead
  refine ⟨land (c.past (newLine k)) indents tokens, arrive_newLine ahead starts (.none _), ?_,
    lands _ more (Cursor.column_past_newLine ahead)⟩
  rw [cursor_land, cursor_place, more, ahead]
  simp

theorem Lands.head {s s' : Lexer} {column : Nat} {after : List Char} {indents : List Nat} {tokens : List Token}
    (moves : Moves s s') (lands : Lands s' column after indents tokens) : Lands s column after indents tokens := by
  obtain ⟨c, rest, here, reaches⟩ := lands
  exact ⟨c, rest, here, .head moves reaches⟩

section scalar

theorem startsPlain_congr {flow : Bool} {ch next next' : Char} (same : isBlankOrEnd next = isBlankOrEnd next') :
    startsPlain flow ch next = startsPlain flow ch next' := by
  rw [startsPlain, startsPlain, same]

/-- What is written for a plain scalar starts as the scalar does. -/
theorem startsPlain_writePlain {c : Cursor} {indent column next : Nat} {s after : List Char} (words : Words s)
    (ahead : c.rest = writePlain indent false column s ++ (newLine next ++ after)) :
    startsPlain false c.head (c.peek 1) = startsPlain false (s.headD endMark) ((s.drop 1).headD endMark) := by
  obtain ⟨ch, tail, rfl, -, ink⟩ := words.head
  rw [writePlain, if_neg (fun fold => ink fold.1), List.cons_append] at ahead
  rw [Cursor.head_of_rest ahead, Cursor.peek_one_of_rest ahead]
  refine startsPlain_congr ?_
  cases tail with
  | nil => rfl
  | cons d tail =>
    rw [writePlain]
    split
    · next fold =>
      rw [fold.1]
      rfl
    · rfl

/-- A text that may stand without quotes. -/
structure Unquoted (s : List Char) : Prop where
  words : Words s
  unmarked : s.head? ≠ some '#'
  starts : startsPlain false (s.headD endMark) ((s.drop 1).headD endMark) = true

variable {c : Cursor} {indent open_ column next : Nat} {outer : List Nat} {allowKey : Bool} {tokens : List Token}
  {s after : List Char}

/-- A scalar without quotes and the line end after it. -/
theorem lands_plain (plain : Unquoted s)
    (ahead : c.rest = writePlain indent false column s ++ (newLine next ++ after)) (onset : Onset after)
    (inner : open_ < indent) (deep : open_ < c.column) (back : next ≤ open_) :
    Lands (place c (open_ :: outer) [none] allowKey tokens) next after (open_ :: outer)
      (.scalar (some s) true :: tokens) := by
  have inside : ∀ o ∈ (open_ :: outer).head?, o < c.column := by simpa using deep
  obtain ⟨key, light, saved⟩ := saveKey_light allowKey tokens inside
  have scalar := readPlain_writePlain plain.words plain.unmarked ahead inner (Nat.zero_lt_of_lt inner) deep
    (Nat.lt_succ_of_le back) onset
  generalize written : writePlain indent false column s ++ newLine next = w at scalar
  have whole : c.rest = w ++ after := by rw [ahead, ← written, List.append_assoc]
  have later : c.line < (c.past w).line := Cursor.line_past_lt whole (by simp [← written, newLine])
  have token : (place c (open_ :: outer) [none] allowKey tokens).token =
      .ok (place (c.past w) (open_ :: outer) [key] true (.scalar (some s) true :: tokens)) := by
    have least : ((place c (open_ :: outer) [key] allowKey tokens).indent + 1).toNat = open_ + 1 := by
      simp only [Lexer.indent, place]
      omega
    rw [token_plain ((startsPlain_writePlain plain.words ahead).trans plain.starts) rfl fun edge => absurd edge (Nat.ne_zero_of_lt deep),
      plainScalar, saved]
    simp only [bind, Except.bind, least, inFlow_place, cursor_place, scalar]
    rfl
  refine ⟨c.past w, Cursor.rest_past whole, ?_, .single (.move token rfl (dropStale_later light later)
    (arrive_here (Cursor.rest_past whole) (.of_onset onset)) ?_)⟩
  · rw [← written, Cursor.past_append]
    exact Cursor.column_past_newLine (Cursor.rest_past ahead)
  · rw [cursor_land, Cursor.rest_past whole]
    exact Cursor.length_rest_past whole (by simp [← written, newLine])

/-- A scalar between quotes and the line end after it. -/
theorem lands_quoted {double : Bool} {w : List Char} (quoted : Quoted double w s)
    (ahead : c.rest = (if double then '"' else '\'') :: (w ++ (newLine next ++ after))) (onset : Onset after)
    (deep : open_ < c.column) :
    Lands (place c (open_ :: outer) [none] allowKey tokens) next after (open_ :: outer)
      (.scalar (some s) false :: tokens) := by
  have inside : ∀ o ∈ (open_ :: outer).head?, o < c.column := by simpa using deep
  obtain ⟨key, light, saved⟩ := saveKey_light allowKey tokens inside
  have scalar := readQuoted_of_quoted quoted ahead (by simp [newLine])
  generalize whole : (if double then '"' else '\'') :: w = written at scalar
  have more : c.rest = written ++ (newLine next ++ after) := by rw [ahead, ← whole, List.cons_append]
  have token : (place c (open_ :: outer) [none] allowKey tokens).token =
      .ok (place (c.past written) (open_ :: outer) [key] false (.scalar (some s) false :: tokens)) := by
    rw [token_quote double (Cursor.head_of_rest ahead), keyToken, saved]
    simp only [bind, Except.bind, cursor_place, scalar]
    rfl
  have line := Cursor.rest_past more
  obtain ⟨kept, light, -, dropped⟩ := dropStale_light (c := c.past written) 0 light
  refine ⟨(c.past written).past (newLine next), Cursor.rest_past line, Cursor.column_past_newLine line, .single (.move token
    rfl dropped (arrive_newLine line (.of_onset onset) (light.mono (Cursor.line_past_le more))) ?_)⟩
  rw [cursor_land, Cursor.rest_past line]
  change after.length < c.rest.length
  rw [more, List.length_append, List.length_append, length_newLine]
  omega

/-- An empty flow collection and the line end after it. -/
theorem lands_flow {first last : Char} {t t' : Token} (printed : isPrinted last = true ∧ last ≠ ' ' ∧ last ≠ '#')
    (starts : ∀ s : Lexer, s.cursor.head = first → s.token = s.flowStart t)
    (ends : ∀ s : Lexer, s.cursor.head = last → s.token = s.flowEnd t')
    (goesOn : (some t matches some .textEnd) = false ∧ (some t' matches some .textEnd) = false)
    (ahead : c.rest = first :: last :: (newLine next ++ after)) (onset : Onset after) (deep : open_ < c.column) :
    Lands (place c (open_ :: outer) [none] allowKey tokens) next after (open_ :: outer) (t' :: t :: tokens) := by
  have inside : ∀ o ∈ (open_ :: outer).head?, o < c.column := by simpa using deep
  obtain ⟨key, light, saved⟩ := saveKey_light allowKey tokens inside
  have second := (Cursor.next_of_rest ahead).1
  have third := (Cursor.next_of_rest second).1
  have line : c.line ≤ c.next.next.line := Cursor.line_past_le (w := [first, last]) ahead
  have started : (place c (open_ :: outer) [none] allowKey tokens).token =
      .ok (place c.next (open_ :: outer) [none, key] true (t :: tokens)) := by
    rw [starts _ (Cursor.head_of_rest ahead), flowStart, saved]
    rfl
  -- The collection might be a key. That it is none comes out at one stop or another, and any of them will do.
  obtain ⟨kept, light, -, dropped⟩ := dropStale_light (c := c.next) 1 light
  obtain ⟨left, light, -, fresh⟩ := dropStale_light (c := c.next) 1 light
  have reached : (place c.next (open_ :: outer) [none, kept] true (t :: tokens)).arrive =
      .ok (place c.next (open_ :: outer) [none, left] true (t :: tokens)) :=
    arrive_spaces 0 _ _ _ _ second (.of_isPrinted printed.1 printed.2.1 printed.2.2) fresh
  have ended : (place c.next (open_ :: outer) [none, left] true (t :: tokens)).token =
      .ok (place c.next.next (open_ :: outer) [left] false (t' :: t :: tokens)) := by
    rw [ends _ (Cursor.head_of_rest second), flowEnd]
    rfl
  obtain ⟨rest, light, -, final⟩ := dropStale_light (c := c.next.next) 0 light
  have lands : Lands (place c.next (open_ :: outer) [none, left] true (t :: tokens)) next after (open_ :: outer)
      (t' :: t :: tokens) := by
    refine ⟨c.next.next.past (newLine next), Cursor.rest_past third, Cursor.column_past_newLine third,
      .single (.move ended goesOn.2 final (arrive_newLine third (.of_onset onset) (light.mono line)) ?_)⟩
    rw [cursor_land, Cursor.rest_past third]
    change after.length < c.next.rest.length
    rw [second, List.length_cons, List.length_append, length_newLine]
    omega
  refine lands.head (.move started goesOn.1 dropped reached ?_)
  change c.next.rest.length < c.rest.length
  rw [ahead, second]
  simp

end scalar

section block

theorem Lands.of_token {s : Lexer} {c : Cursor} {inner indents : List Nat} {allowKey : Bool} {t : Token}
    {tokens result : List Token} {next : Nat} {after : List Char}
    (read : s.token = .ok (place c inner [none] allowKey (t :: tokens)))
    (goesOn : (some t matches some .textEnd) = false) (shorter : c.rest.length < s.cursor.rest.length)
    (comes : Comes (place c inner [none] allowKey (t :: tokens)) next after indents result) :
    Lands s next after indents result := by
  obtain ⟨s', arrived, le, lands⟩ := comes
  exact lands.head (.move read goesOn rfl arrived (lt_of_le_of_lt le shorter))

/-- The open blocks and the new marks once a block is opened in some column, unless one is open there. -/
inductive Opens (column : Nat) (start : Token) : List Nat → List Nat → List Token → Prop
  | inside (outer : List Nat) : Opens column start (column :: outer) (column :: outer) []
  | deeper {indents : List Nat} : (∀ open_ ∈ indents.head?, open_ < column) →
      Opens column start indents (column :: indents) [start]

namespace Opens

variable {column : Nat} {start : Token} {indents inner : List Nat} {marks : List Token}

theorem head_le (opens : Opens column start indents inner marks) : ∀ open_ ∈ indents.head?, open_ ≤ column := by
  cases opens with
  | inside outer => simp
  | deeper less => exact fun open_ mem => (less open_ mem).le

end Opens

theorem openBlock_inside {c : Cursor} {column : Nat} {outer : List Nat} {keys : List (Option PossibleKey)}
    {allowKey : Bool} {tokens : List Token} :
    (place c (column :: outer) keys allowKey tokens).openBlock column = none := by
  simp [openBlock, indent, place]

theorem openBlock_deeper {c : Cursor} {column : Nat} {indents : List Nat} {keys : List (Option PossibleKey)}
    {allowKey : Bool} {tokens : List Token} (less : ∀ open_ ∈ indents.head?, open_ < column) :
    (place c indents keys allowKey tokens).openBlock column = some (place c (column :: indents) keys allowKey tokens) := by
  have inside : (place c indents keys allowKey tokens).indent < column := by
    cases indents with
    | nil =>
      simp only [indent, place]
      omega
    | cons open_ outer =>
      have bound := less open_ rfl
      simp only [indent, place]
      omega
  rw [openBlock, if_pos inside]
  rfl

variable {c : Cursor} {indents inner result : List Nat} {tokens marks final : List Token} {next : Nat}
  {after : List Char}

/-- A dash before an item, and the start of a sequence if it opens one. -/
theorem lands_dash (opens : Opens c.column .sequenceStart indents inner marks) {rest : List Char}
    (ahead : c.rest = '-' :: ' ' :: rest)
    (comes : ∀ c' : Cursor, c'.rest = ' ' :: rest → c'.column = c.column + 1 →
      Comes (place c' inner [none] true (.entry :: (marks ++ tokens))) next after result final) :
    Lands (place c indents [none] true tokens) next after result final := by
  have dash : c.rest = ['-'] ++ ' ' :: rest := ahead
  have onward := comes (c.past ['-']) (Cursor.rest_past dash) (Cursor.column_past dash (by decide)).1
  have entered : (place c indents [none] true tokens).token =
      .ok (place (c.past ['-']) inner [none] true (.entry :: (marks ++ tokens))) := by
    rw [token_dash (Cursor.head_of_rest ahead) (Cursor.peek_one_of_rest ahead), blockEntry, openFor]
    cases opens with
    | inside outer =>
      rw [cursor_place, openBlock_inside]
      rfl
    | deeper less =>
      rw [cursor_place, openBlock_deeper less]
      rfl
  exact .of_token entered rfl (Cursor.length_rest_past (Cursor.rest_past dash ▸ dash) (by simp)) onward

theorem startsPlain_of_isNameChar {ch : Char} (name : isNameChar ch = true) (apart : ch ≠ '-') (next : Char) :
    startsPlain false ch next = true := by
  have marks : ∀ d ∈ "-?:,[]\x7b\x7d#&*!|>'\"%@`".toList, d ≠ '-' → isNameChar d = false := by decide
  have plain : "-?:,[]\x7b\x7d#&*!|>'\"%@`".toList.contains ch = false := by
    rw [← Bool.not_eq_true, List.contains_iff_mem]
    intro mem
    rw [marks ch mem apart] at name
    exact absurd name (by decide)
  have ink : ch ≠ ' ' := by
    rintro rfl
    exact absurd name (by decide)
  rw [startsPlain, plain, isBlankOrEnd_of_isPrinted (isPrinted_of_isNameChar name)]
  simp [ink]

/-- The mark of a key, and of the mapping that it opens, are put in front of it once its colon is read. -/
theorem colon_place (opens : Opens c.column .mappingStart indents inner marks) (c' : Cursor) (t : Token)
    (tokens : List Token) :
    (place c' indents [some (keyAt c indents tokens)] false (t :: tokens)).colon =
      .ok (place c'.next inner [none] false (.value :: t :: .key :: (marks ++ tokens))) := by
  have keyed : (place c' indents [none] false (t :: tokens)).insert tokens.length .key =
      place c' indents [none] false (t :: .key :: tokens) := by
    simp [insert, place]
  have started : (place c' (c.column :: indents) [none] false (t :: .key :: tokens)).insert tokens.length .mappingStart =
      place c' (c.column :: indents) [none] false (t :: .key :: .mappingStart :: tokens) := by
    have later : tokens.length + 1 + 1 - tokens.length = 2 := by omega
    simp [insert, place, later]
  change Except.ok ((((if ((place c' indents [none] false (t :: tokens)).insert tokens.length .key).inFlow then none
    else ((place c' indents [none] false (t :: tokens)).insert tokens.length .key).openBlock c.column).map
      (·.insert tokens.length .mappingStart)).getD
        ((place c' indents [none] false (t :: tokens)).insert tokens.length .key)).take 1 .value) = _
  rw [keyed, inFlow_place, if_neg (by simp)]
  cases opens with
  | inside outer =>
    rw [openBlock_inside]
    rfl
  | deeper less =>
    rw [openBlock_deeper less, Option.map_some, started]
    rfl

section key

variable {key rest : List Char} (isKey : IsKey key) (ahead : c.rest = key ++ ':' :: rest)
  (blank : isBlankOrEnd (rest.headD endMark) = true)

include isKey ahead blank

/-- A key is read, and its colon is reached. -/
theorem moves_key (tokens : List Token) (inside : ∀ open_ ∈ indents.head?, open_ ≤ c.column) :
    Moves (place c indents [none] true tokens)
      (place (c.past key) indents [some (keyAt c indents tokens)] false (.scalar (some key) true :: tokens)) := by
  obtain ⟨first, tail, shape, name, dash⟩ := isKey.head
  have colon := Cursor.rest_past ahead
  have ⟨column, line⟩ := Cursor.column_past ahead fun ch mem => (isKey.printed ch mem).1
  have index := Cursor.index_past ahead
  have named : (place c indents [none] true tokens).token =
      .ok (place (c.past key) indents [some (keyAt c indents tokens)] false (.scalar (some key) true :: tokens)) := by
    have head : c.head = first := Cursor.head_of_rest (by rw [ahead, shape, List.cons_append])
    have point : first ≠ '.' := by
      rintro rfl
      exact absurd name (by decide)
    have plain : startsPlain false c.head (c.peek 1) = true := by
      rw [head]
      exact startsPlain_of_isNameChar name dash _
    rw [token_plain plain rfl fun _ => by rw [cursor_place, head]; exact ⟨dash, point⟩, plainScalar, saveKey_allowed]
    simp only [bind, Except.bind]
    rw [inFlow_place, cursor_place, readPlain_key isKey _ ahead blank]
    rfl
  -- The colon stands on the same line and close enough, so the key does not get stale.
  have fresh : (place (c.past key) indents [some (keyAt c indents tokens)] false (.scalar (some key) true :: tokens)).dropStale =
      .ok (place (c.past key) indents [some (keyAt c indents tokens)] false (.scalar (some key) true :: tokens)) := by
    refine dropStale_kept rfl ?_
    simp [isStale, keyAt, line, index, isKey.short]
  have reached : (place (c.past key) indents [some (keyAt c indents tokens)] false
      (.scalar (some key) true :: tokens)).arrive =
      .ok (place (c.past key) indents [some (keyAt c indents tokens)] false (.scalar (some key) true :: tokens)) := by
    rw [arrive_spaces 0 _ _ _ _ colon (.of_isPrinted (by decide) (by decide) (by decide)) fresh]
    have further : c.column ≤ (c.past key).column := by omega
    exact congrArg Except.ok (unwindTo_stay fun o mem => (inside o mem).trans further)
  refine .move named rfl fresh reached ?_
  exact Cursor.length_rest_past (Cursor.rest_past ahead ▸ ahead) isKey.nonempty

/-- The colon of a key is read, and with it the start of a mapping if the key opens one. -/
theorem token_value (tokens : List Token) (opens : Opens c.column .mappingStart indents inner marks) :
    (place (c.past key) indents [some (keyAt c indents tokens)] false (.scalar (some key) true :: tokens)).token =
      .ok (place (c.past key).next inner [none] false
        (.value :: .scalar (some key) true :: .key :: (marks ++ tokens))) ∧
      (c.past key).next.rest = rest ∧ (c.past key).next.column = c.column + key.length + 1 := by
  have colon := Cursor.rest_past ahead
  have ⟨column, _⟩ := Cursor.column_past ahead fun ch mem => (isKey.printed ch mem).1
  have onward := (Cursor.column_past (w := [':']) colon (by decide)).1
  have next : isBlankOrEnd ((c.past key).peek 1) = true := by
    rw [Cursor.peek_one_of_rest colon]
    exact blank
  refine ⟨(token_colon (Cursor.head_of_rest colon) next).trans (colon_place opens _ _ tokens),
    (Cursor.next_of_rest colon).1, ?_⟩
  rw [Cursor.past_cons, Cursor.past_nil, List.length_singleton] at onward
  omega

/-- A key and its colon, and the start of a mapping if the key opens one. -/
theorem lands_key (opens : Opens c.column .mappingStart indents inner marks)
    (comes : ∀ c' : Cursor, c'.rest = rest → c.column ≤ c'.column →
      Comes (place c' inner [none] false (.value :: .scalar (some key) true :: .key :: (marks ++ tokens))) next after
        result final) :
    Lands (place c indents [none] true tokens) next after result final := by
  obtain ⟨valued, further, column⟩ := token_value isKey ahead blank tokens opens
  have shorter : (c.past key).next.rest.length < (c.past key).rest.length := by
    rw [Cursor.rest_past ahead, further]
    simp
  exact (Lands.of_token valued rfl shorter (comes _ further (by omega))).head
    (moves_key isKey ahead blank tokens opens.head_le)

end key

end block

end Lexer
end AgentConfig.Yaml
