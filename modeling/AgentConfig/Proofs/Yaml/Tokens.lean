import AgentConfig.Proofs.Json.Reader
import AgentConfig.Proofs.Yaml.Lexing
import AgentConfig.Proofs.Yaml.Number

namespace AgentConfig

mutual
/-- The keys of all records in a tree. -/
def Tree.keys : Tree → List String
  | .list items => itemKeys items
  | .record entries => entryKeys entries
  | _ => []

def Tree.itemKeys : List Tree → List String
  | [] => []
  | t :: rest => t.keys ++ itemKeys rest

def Tree.entryKeys : List (String × Tree) → List String
  | [] => []
  | (key, t) :: rest => key :: (t.keys ++ entryKeys rest)
end

namespace Yaml

mutual
/-- The tokens of a tree after a key or a dash. -/
def tokensFor (dash : Bool) : Tree → List Token
  | .null => [.scalar (some "null".toList) true]
  | .bool b => [.scalar (some (if b then "true" else "false").toList) true]
  | .int n => [.scalar (some (Json.writeInt n)) true]
  | .float x => [.scalar (some (numberLayout.write x)) true]
  | .text s => [.scalar (some s.toList) (styleOf s.toList = .plain)]
  | .list [] => [.flowSequenceStart, .flowSequenceEnd]
  | .record [] => [.flowMappingStart, .flowMappingEnd]
  | .list (t :: rest) =>
    if dash then .sequenceStart :: .entry :: (tokensFor true t ++ itemTokens rest) ++ [.blockEnd]
    else .entry :: (tokensFor true t ++ itemTokens rest)
  | .record ((key, t) :: rest) =>
    .mappingStart :: .key :: .scalar (some key.toList) true :: .value :: (tokensFor false t ++ entryTokens rest) ++
      [.blockEnd]

def itemTokens : List Tree → List Token
  | [] => []
  | t :: rest => .entry :: (tokensFor true t ++ itemTokens rest)

def entryTokens : List (String × Tree) → List Token
  | [] => []
  | (key, t) :: rest =>
    .key :: .scalar (some key.toList) true :: .value :: (tokensFor false t ++ entryTokens rest)
end

section scalar

theorem styleOf_eq_plain {s : List Char} (plain : styleOf s = .plain) :
    Tag.ofPlain s = .text ∧ allowsPlain s = true := by
  rw [styleOf] at plain
  split_ifs at plain with allowed
  exact allowed

/-- A text in the plain style may stand without quotes. -/
theorem unquoted_of_styleOf {s : List Char} (plain : styleOf s = .plain) : Lexer.Unquoted s := by
  obtain ⟨text, allowed⟩ := styleOf_eq_plain plain
  have nonempty : s ≠ [] := by
    rintro rfl
    exact absurd text (by decide)
  obtain ⟨words, unmarked⟩ := Words.of_allowsPlain nonempty allowed
  refine ⟨words, unmarked, ?_⟩
  obtain ⟨c, rest, rfl, printed, ink⟩ := words.head
  have inked : isBlankOrEnd c = false := by simp [isBlankOrEnd_of_isPrinted printed, ink]
  simp only [allowsPlain, startsWithMark, Bool.and_eq_true, Bool.not_eq_true', Bool.or_eq_false_iff] at allowed
  obtain ⟨⟨marked, blank⟩, -⟩ := allowed.1.1.2.1
  rw [Lexer.startsPlain]
  by_cases dash : "?:-".toList.contains c = true
  · have next : isBlankOrEnd (rest.headD endMark) = false :=
      (Bool.and_eq_false_iff.1 blank).resolve_left (by rw [dash]; decide)
    have three : c = '?' ∨ c = ':' ∨ c = '-' := by simpa using dash
    simp only [List.headD_cons, List.drop_one, List.tail_cons, next]
    obtain rfl | rfl | rfl := three <;> decide
  · have all : ∀ d ∈ "-?:,[]\x7b\x7d#&*!|>'\"%@`".toList,
        "?:-".toList.contains d = true ∨ "#,[]\x7b\x7d&*!|>'\"%@`".toList.contains d = true := by decide
    have plain : "-?:,[]\x7b\x7d#&*!|>'\"%@`".toList.contains c = false := by
      rw [← Bool.not_eq_true, List.contains_iff_mem]
      intro mem
      rcases all c mem with some | some
      · exact dash some
      · exact absurd (marked.symm.trans some) (by decide)
    rw [List.headD_cons, inked, plain]
    rfl

/-- A word that may stand without quotes. -/
structure Bare (s : List Char) : Prop where
  word : IsWord s
  unmarked : s.head? ≠ some '#'
  starts : Lexer.startsPlain false (s.headD endMark) ((s.drop 1).headD endMark) = true

theorem Bare.unquoted {s : List Char} (bare : Bare s) : Lexer.Unquoted s :=
  ⟨.word bare.word, bare.unmarked, bare.starts⟩

theorem bare_null : Bare "null".toList :=
  ⟨⟨by decide, by decide, by decide⟩, by decide, by decide⟩

theorem bare_bool (b : Bool) : Bare (if b then "true" else "false").toList := by
  cases b <;> exact ⟨⟨by decide, by decide, by decide⟩, by decide, by decide⟩

theorem isNameChar_of_isDigit {c : Char} (digit : isDigit c = true) : isNameChar c = true := by
  simp [isNameChar, digit]

theorem bare_signed {first : Char} {more : List Char} (number : IsNumber (first :: more))
    (digit : isDigit first = true) (negative : Bool) : Bare (NumberLayout.signed negative (first :: more)) := by
  have word := (number.signed negative).isWord
  have printed := isPrinted_of_isNameChar (isNameChar_of_isDigit digit)
  have ink := ne_of_isDigit digit ' ' (by decide)
  cases negative with
  | true =>
    have next : isBlankOrEnd first = false := by simp [isBlankOrEnd_of_isPrinted printed, ink]
    refine ⟨word, by simp [NumberLayout.signed], ?_⟩
    simp only [NumberLayout.signed, if_true, List.headD_cons, List.drop_one, List.tail_cons, Lexer.startsPlain, next]
    decide
  | false =>
    refine ⟨word, ?_, ?_⟩
    · simpa [NumberLayout.signed] using ne_of_isDigit digit '#' (by decide)
    · exact Lexer.startsPlain_of_isNameChar (isNameChar_of_isDigit digit) (ne_of_isDigit digit '-' (by decide)) _

theorem bare_writeInt (n : Int) : Bare (Json.writeInt n) := by
  obtain ⟨first, more, shape, digit, number⟩ := exists_decimalDigits_cons n.natAbs
  rw [writeInt_eq_signed, shape]
  exact bare_signed number digit _

theorem bare_write (x : Binary64) : Bare (numberLayout.write x) := by
  cases x with
  | nan =>
    exact ⟨⟨by decide, by decide, by decide⟩, by decide, by decide⟩
  | infinite negative =>
    cases negative <;> exact ⟨⟨by decide, by decide, by decide⟩, by decide, by decide⟩
  | finite negative rank =>
    obtain ⟨parts, text, wellFormed, point, -, value⟩ := numberLayout.rank_parts rank
    obtain ⟨fraction, pointed⟩ := Option.ne_none_iff_exists'.1 (point rfl)
    obtain ⟨first, more, shape, digit⟩ := exists_text_cons wellFormed
    have number := isNumber_text wellFormed
    rw [NumberLayout.write, ← text]
    rw [shape] at number ⊢
    exact bare_signed number digit negative

end scalar

namespace Lexer

section

variable {c : Cursor} {indent next : Nat} {outer : List Nat} {allowKey : Bool} {tokens : List Token}
  {s after : List Char}

/-- A text without quotes behind a space. -/
theorem comes_plain (plain : Unquoted s) {inset column : Nat}
    (ahead : c.rest = ' ' :: (writePlain inset false column s ++ (newLine next ++ after))) (onset : Onset after)
    (inner : indent < inset) (deep : indent ≤ c.column) (back : next ≤ indent) :
    Comes (place c (indent :: outer) [none] allowKey tokens) next after (indent :: outer)
      (.scalar (some s) true :: tokens) := by
  have starts : Starts (writePlain inset false column s ++ (newLine next ++ after)) := by
    obtain ⟨ch, tail, rfl, printed, ink⟩ := plain.words.head
    rw [writePlain, if_neg fun fold => ink fold.1]
    exact .of_isPrinted printed ink (by simpa using plain.unmarked)
  refine .of_space ahead starts (by simpa using deep.trans (Nat.le_succ _)) fun c' rest place => ?_
  exact lands_plain plain rest onset inner (by omega) back

theorem comes_word (bare : Bare s) (ahead : c.rest = ' ' :: (s ++ (newLine next ++ after))) (onset : Onset after)
    (deep : indent ≤ c.column) (back : next ≤ indent) :
    Comes (place c (indent :: outer) [none] allowKey tokens) next after (indent :: outer)
      (.scalar (some s) true :: tokens) := by
  have same : writePlain (indent + 1) false 0 s = s := by
    have written := writePlain_word (indent + 1) false 0 [] bare.word.nonempty fun c mem => (bare.word.printed c mem).2
    simpa [writePlain] using written
  rw [← same] at ahead
  exact comes_plain bare.unquoted ahead onset (Nat.lt_succ_self _) deep back

theorem comes_quoted {double : Bool} {w : List Char} (quoted : Quoted double w s)
    (ahead : c.rest = ' ' :: (if double then '"' else '\'') :: (w ++ (newLine next ++ after))) (onset : Onset after)
    (deep : indent ≤ c.column) :
    Comes (place c (indent :: outer) [none] allowKey tokens) next after (indent :: outer)
      (.scalar (some s) false :: tokens) := by
  have starts : Starts ((if double then '"' else '\'') :: (w ++ (newLine next ++ after))) := by
    cases double <;> exact .of_isPrinted (by decide) (by decide) (by decide)
  refine .of_space ahead starts (by simpa using deep.trans (Nat.le_succ _)) fun c' rest place => ?_
  exact lands_quoted quoted rest onset (by omega)

/-- A text, in the style that is right for it. -/
theorem comes_text (s : List Char) {column : Nat}
    (ahead : c.rest = ' ' :: (writeText (indent + 2) column s ++ (newLine next ++ after)))
    (onset : Onset after) (narrow : indent + 2 < lineWidth) (deep : indent ≤ c.column) (back : next ≤ indent) :
    Comes (place c (indent :: outer) [none] allowKey tokens) next after (indent :: outer)
      (.scalar (some s) (styleOf s = .plain) :: tokens) := by
  rw [writeText] at ahead
  cases style : styleOf s with
  | plain =>
    rw [style] at ahead
    exact comes_plain (unquoted_of_styleOf style) ahead onset (by omega) deep back
  | single =>
    rw [style] at ahead
    have allowed : allowsSingle s = true := by
      rw [styleOf] at style
      split_ifs at style with plain single
      exact single
    simp only [allowsSingle, Bool.and_eq_true, Bool.not_eq_true'] at allowed
    have visible := List.all_eq_true.1 allowed.1.1
    have quoted : Quoted false (writeSingle (indent + 2) endMark (column + 1) s ++ ['\'']) s :=
      quoted_writeSingle (by omega) visible allowed.1.2 allowed.2 fun feed => absurd feed (by decide)
    exact comes_quoted quoted (by simpa using ahead) onset deep
  | double =>
    rw [style] at ahead
    have quoted : Quoted true (writeDouble (indent + 2) true false (column + 1) s ++ ['"']) s :=
      quoted_writeDouble (by omega) narrow
    exact comes_quoted quoted (by simpa using ahead) onset deep

end

theorem exists_writeAfter_dash (indent column : Nat) (t : Tree) :
    ∃ w, writeAfter indent column true t = ' ' :: w := by
  cases t with
  | bool b => cases b <;> exact ⟨_, rfl⟩
  | list items => cases items <;> exact ⟨_, rfl⟩
  | record entries => cases entries <;> exact ⟨_, rfl⟩
  | _ => exact ⟨_, rfl⟩

theorem blank_writeAfter (indent column : Nat) (t : Tree) (rest : List Char) :
    isBlankOrEnd ((writeAfter indent column false t ++ rest).headD endMark) = true := by
  cases t with
  | bool b => cases b <;> rfl
  | list items => cases items <;> rfl
  | record entries => cases entries <;> rfl
  | _ => rfl

theorem starts_dash (rest : List Char) : Starts ('-' :: rest) :=
  .of_isPrinted (by decide) (by decide) (by decide)

theorem starts_key {key : List Char} (isKey : IsKey key) (rest : List Char) : Starts (key ++ rest) :=
  .of_onset (isKey.onset rest)

section flow

variable {c : Cursor} {indent next : Nat} {outer : List Nat} {allowKey : Bool} {tokens : List Token} {after : List Char}

theorem comes_emptyList (ahead : c.rest = ' ' :: '[' :: ']' :: (newLine next ++ after)) (onset : Onset after)
    (deep : indent ≤ c.column) :
    Comes (place c (indent :: outer) [none] allowKey tokens) next after (indent :: outer)
      (.flowSequenceEnd :: .flowSequenceStart :: tokens) := by
  have starts (s : Lexer) (first : s.cursor.head = '[') : s.token = s.flowStart .flowSequenceStart := by
    rw [token]
    simp only [first]
  have ends (s : Lexer) (last : s.cursor.head = ']') : s.token = s.flowEnd .flowSequenceEnd := by
    rw [token]
    simp only [last]
  refine .of_space ahead (.of_isPrinted (by decide) (by decide) (by decide)) (by simpa using deep.trans (Nat.le_succ _))
    fun c' rest place => ?_
  exact lands_flow (by decide) starts ends ⟨rfl, rfl⟩ rest onset (by omega)

theorem comes_emptyRecord (ahead : c.rest = ' ' :: '\x7b' :: '\x7d' :: (newLine next ++ after)) (onset : Onset after)
    (deep : indent ≤ c.column) :
    Comes (place c (indent :: outer) [none] allowKey tokens) next after (indent :: outer)
      (.flowMappingEnd :: .flowMappingStart :: tokens) := by
  have starts (s : Lexer) (first : s.cursor.head = '\x7b') : s.token = s.flowStart .flowMappingStart := by
    rw [token]
    simp only [first]
  have ends (s : Lexer) (last : s.cursor.head = '\x7d') : s.token = s.flowEnd .flowMappingEnd := by
    rw [token]
    simp only [last]
  refine .of_space ahead (.of_isPrinted (by decide) (by decide) (by decide)) (by simpa using deep.trans (Nat.le_succ _))
    fun c' rest place => ?_
  exact lands_flow (by decide) starts ends ⟨rfl, rfl⟩ rest onset (by omega)

end flow

/-- What is written for a tree after a key or a dash is read as its tokens. -/
def ReadsTree (t : Tree) : Prop :=
  ∀ {c : Cursor} {indent column next : Nat} {dash : Bool} {outer : List Nat} {tokens : List Token} {after : List Char},
    (∀ key ∈ t.keys, IsKey key.toList) → indent + 2 * t.depth + 2 < lineWidth →
    c.rest = writeAfter indent column dash t ++ (newLine next ++ after) → indent ≤ c.column →
    (dash = true → c.column = indent + 1) → next ≤ indent → Onset after →
    Comes (place c (indent :: outer) [none] dash tokens) next after (indent :: outer) ((tokensFor dash t).reverse ++ tokens)

/-- If what stands before more items is read up to them, they are read too. -/
def ReadsItems (rest : List Tree) : Prop :=
  ∀ {s : Lexer} {indent next : Nat} {outer : List Nat} {tokens : List Token} {after : List Char},
    (∀ key ∈ Tree.itemKeys rest, IsKey key.toList) → indent + 2 * Tree.itemDepth rest + 2 < lineWidth →
    next ≤ indent → Onset after →
    (∀ next' after', writeItems indent rest ++ (newLine next ++ after) = newLine next' ++ after' → next' ≤ indent →
      Onset after' → Comes s next' after' (indent :: outer) tokens) →
    Comes s next after (indent :: outer) ((itemTokens rest).reverse ++ tokens)

/-- The same for more entries. -/
def ReadsEntries (rest : List (String × Tree)) : Prop :=
  ∀ {s : Lexer} {indent next : Nat} {outer : List Nat} {tokens : List Token} {after : List Char},
    (∀ key ∈ Tree.entryKeys rest, IsKey key.toList) → indent + 2 * Tree.entryDepth rest + 2 < lineWidth →
    next ≤ indent → Onset after →
    (∀ next' after', writeEntries indent rest ++ (newLine next ++ after) = newLine next' ++ after' → next' ≤ indent →
      Onset after' → Comes s next' after' (indent :: outer) tokens) →
    Comes s next after (indent :: outer) ((entryTokens rest).reverse ++ tokens)

section block

variable {c : Cursor} {indent column next : Nat} {indents outer : List Nat} {marks tokens : List Token}
  {after : List Char}

theorem lands_items {t : Tree} {rest : List Tree} (tree : ReadsTree t) (items : ReadsItems rest)
    (keys : ∀ key ∈ Tree.itemKeys (t :: rest), IsKey key.toList)
    (narrow : indent + 2 * Tree.itemDepth (t :: rest) + 2 < lineWidth)
    (ahead : c.rest = '-' :: (writeAfter indent (indent + 1) true t ++ (writeItems indent rest ++ (newLine next ++ after))))
    (opens : Opens indent .sequenceStart indents (indent :: outer) marks) (here : c.column = indent)
    (back : next ≤ indent) (onset : Onset after) :
    Lands (place c indents [none] true tokens) next after (indent :: outer)
      ((itemTokens (t :: rest)).reverse ++ (marks ++ tokens)) := by
  obtain ⟨w, space⟩ := exists_writeAfter_dash indent (indent + 1) t
  have line : c.rest = '-' :: ' ' :: (w ++ (writeItems indent rest ++ (newLine next ++ after))) := by
    rw [ahead, space, List.cons_append]
  rw [Tree.itemDepth] at narrow
  rw [Tree.itemKeys] at keys
  have opened : Opens c.column .sequenceStart indents (indent :: outer) marks := by rwa [here]
  have whole : (itemTokens (t :: rest)).reverse ++ (marks ++ tokens) =
      (itemTokens rest).reverse ++ ((tokensFor true t).reverse ++ .entry :: (marks ++ tokens)) := by
    simp [itemTokens]
  rw [whole]
  refine lands_dash opened line fun c' rest' column' => ?_
  rw [← List.cons_append, ← space] at rest'
  refine items (fun key mem => keys key (List.mem_append_right _ mem)) (by omega) back onset
    fun next' after' text back' onset' => ?_
  rw [text] at rest'
  exact tree (fun key mem => keys key (List.mem_append_left _ mem)) (by omega) rest' (by omega) (fun _ => by omega) back'
    onset'

theorem lands_entries {key : String} {t : Tree} {rest : List (String × Tree)} (tree : ReadsTree t)
    (entries : ReadsEntries rest) (keys : ∀ k ∈ Tree.entryKeys ((key, t) :: rest), IsKey k.toList)
    (narrow : indent + 2 * Tree.entryDepth ((key, t) :: rest) + 2 < lineWidth)
    (ahead : c.rest = key.toList ++ ':' ::
      (writeAfter indent column false t ++ (writeEntries indent rest ++ (newLine next ++ after))))
    (opens : Opens indent .mappingStart indents (indent :: outer) marks) (here : c.column = indent)
    (back : next ≤ indent) (onset : Onset after) :
    Lands (place c indents [none] true tokens) next after (indent :: outer)
      ((entryTokens ((key, t) :: rest)).reverse ++ (marks ++ tokens)) := by
  rw [Tree.entryDepth] at narrow
  rw [Tree.entryKeys] at keys
  have opened : Opens c.column .mappingStart indents (indent :: outer) marks := by rwa [here]
  have whole : (entryTokens ((key, t) :: rest)).reverse ++ (marks ++ tokens) =
      (entryTokens rest).reverse ++
        ((tokensFor false t).reverse ++ .value :: .scalar (some key.toList) true :: .key :: (marks ++ tokens)) := by
    simp [entryTokens]
  rw [whole]
  refine lands_key (keys key List.mem_cons_self) ahead (blank_writeAfter indent column t _) opened
    fun c' rest' column' => ?_
  refine entries (fun k mem => keys k (List.mem_cons_of_mem _ (List.mem_append_right _ mem))) (by omega) back onset
    fun next' after' text back' onset' => ?_
  rw [text] at rest'
  exact tree (fun k mem => keys k (List.mem_cons_of_mem _ (List.mem_append_left _ mem))) (by omega) rest' (by omega)
    (by simp) back' onset'

end block

theorem readsItems_nil : ReadsItems [] := fun _ _ back onset comes =>
  comes _ _ rfl back onset

theorem readsEntries_nil : ReadsEntries [] := fun _ _ back onset comes =>
  comes _ _ rfl back onset

theorem readsItems_cons {t : Tree} {rest : List Tree} (tree : ReadsTree t) (items : ReadsItems rest) :
    ReadsItems (t :: rest) := by
  intro s indent next outer tokens after keys narrow back onset comes
  have text : writeItems indent (t :: rest) ++ (newLine next ++ after) = newLine indent ++
      ('-' :: (writeAfter indent (indent + 1) true t ++ (writeItems indent rest ++ (newLine next ++ after)))) := by
    simp [writeItems]
  obtain ⟨w, space⟩ := exists_writeAfter_dash indent (indent + 1) t
  have dashed : Onset ('-' :: (writeAfter indent (indent + 1) true t ++
      (writeItems indent rest ++ (newLine next ++ after)))) :=
    .inr (.inl ⟨_, by rw [space, List.cons_append]⟩)
  refine (comes _ _ text le_rfl dashed).trans fun c ahead here => ?_
  rw [land_stay (by simp [here])]
  exact lands_items tree items keys narrow ahead (.inside outer) here back onset

theorem readsEntries_cons {key : String} {t : Tree} {rest : List (String × Tree)} (tree : ReadsTree t)
    (entries : ReadsEntries rest) : ReadsEntries ((key, t) :: rest) := by
  intro s indent next outer tokens after keys narrow back onset comes
  have text : writeEntries indent ((key, t) :: rest) ++ (newLine next ++ after) = newLine indent ++ (key.toList ++ ':' ::
      (writeAfter indent (indent + key.toList.length + 1) false t ++
        (writeEntries indent rest ++ (newLine next ++ after)))) := by
    simp [writeEntries]
  have isKey := keys key (by simp [Tree.entryKeys])
  refine (comes _ _ text le_rfl (isKey.onset _)).trans fun c ahead here => ?_
  rw [land_stay (by simp [here])]
  exact lands_entries tree entries keys narrow ahead (.inside outer) here back onset

theorem readsTree_list {t : Tree} {rest : List Tree} (tree : ReadsTree t) (items : ReadsItems rest) :
    ReadsTree (.list (t :: rest)) := by
  intro c indent column next dash outer tokens after keys narrow ahead deep behind back onset
  have depth : (Tree.list (t :: rest)).depth = Tree.itemDepth (t :: rest) + 1 := rfl
  cases dash with
  | false =>
    have lines : c.rest = newLine indent ++
        ('-' :: (writeAfter indent (indent + 1) true t ++ (writeItems indent rest ++ (newLine next ++ after)))) := by
      simpa [writeAfter] using ahead
    refine .of_newLine lines (starts_dash _) fun c' rest' here => ?_
    rw [land_stay (by simp [here])]
    exact lands_items tree items keys (by omega) rest' (.inside outer) here back onset
  | true =>
    have line : c.rest = ' ' :: '-' :: (writeAfter (indent + 2) (indent + 3) true t ++
        (writeItems (indent + 2) rest ++ (newLine next ++ after))) := by
      simpa [writeAfter] using ahead
    have here := behind rfl
    refine .of_space line (starts_dash _) (by simpa using deep.trans (Nat.le_succ _)) fun c' rest' further => ?_
    have lands : Lands (place c' (indent :: outer) [none] true tokens) next after ((indent + 2) :: indent :: outer)
        ((itemTokens (t :: rest)).reverse ++ ([.sequenceStart] ++ tokens)) :=
      lands_items tree items keys (by omega) rest' (.deeper (by simp)) (by omega) (by omega) onset
    simpa [tokensFor, itemTokens] using lands.close (by omega)

theorem readsTree_record {key : String} {t : Tree} {rest : List (String × Tree)} (tree : ReadsTree t)
    (entries : ReadsEntries rest) : ReadsTree (.record ((key, t) :: rest)) := by
  intro c indent column next dash outer tokens after keys narrow ahead deep behind back onset
  have depth : (Tree.record ((key, t) :: rest)).depth = Tree.entryDepth ((key, t) :: rest) + 1 := rfl
  have isKey := keys key (by simp [Tree.keys, Tree.entryKeys])
  have opened (c' : Cursor) (here : c'.column = indent + 2) (rest' : c'.rest = key.toList ++ ':' ::
      (writeAfter (indent + 2) (indent + 2 + key.toList.length + 1) false t ++
        (writeEntries (indent + 2) rest ++ (newLine next ++ after)))) :
      Lands (place c' (indent :: outer) [none] true tokens) next after (indent :: outer)
        ((tokensFor dash (.record ((key, t) :: rest))).reverse ++ tokens) := by
    have lands : Lands (place c' (indent :: outer) [none] true tokens) next after ((indent + 2) :: indent :: outer)
        ((entryTokens ((key, t) :: rest)).reverse ++ ([.mappingStart] ++ tokens)) :=
      lands_entries tree entries keys (by omega) rest' (.deeper (by simp)) here (by omega) onset
    simpa [tokensFor, entryTokens] using lands.close (by omega)
  cases dash with
  | false =>
    have lines : c.rest = newLine (indent + 2) ++ (key.toList ++ ':' ::
        (writeAfter (indent + 2) (indent + 2 + key.toList.length + 1) false t ++
          (writeEntries (indent + 2) rest ++ (newLine next ++ after)))) := by
      simpa [writeAfter] using ahead
    refine .of_newLine lines (starts_key isKey _) fun c' rest' here => ?_
    rw [land_stay (by simp [here])]
    exact opened c' here rest'
  | true =>
    have line : c.rest = ' ' :: (key.toList ++ ':' ::
        (writeAfter (indent + 2) (indent + 2 + key.toList.length + 1) false t ++
          (writeEntries (indent + 2) rest ++ (newLine next ++ after)))) := by
      simpa [writeAfter] using ahead
    have here := behind rfl
    refine .of_space line (starts_key isKey _) (by simpa using deep.trans (Nat.le_succ _)) fun c' rest' further => ?_
    exact opened c' (by omega) rest'

mutual
theorem readsTree : ∀ t : Tree, ReadsTree t
  | .null => fun _ _ ahead deep _ back onset => comes_word bare_null ahead onset deep back
  | .bool b => fun _ _ ahead deep _ back onset =>
    comes_word (bare_bool b) (by cases b <;> exact ahead) onset deep back
  | .int n => fun _ _ ahead deep _ back onset => comes_word (bare_writeInt n) ahead onset deep back
  | .float x => fun _ _ ahead deep _ back onset => comes_word (bare_write x) ahead onset deep back
  | .text s => fun _ narrow ahead deep _ back onset =>
    comes_text s.toList ahead onset (by simpa [Tree.depth] using narrow) deep back
  | .list [] => fun _ _ ahead deep _ _ onset => comes_emptyList ahead onset deep
  | .record [] => fun _ _ ahead deep _ _ onset => comes_emptyRecord ahead onset deep
  | .list (t :: rest) => readsTree_list (readsTree t) (readsItems rest)
  | .record ((_, t) :: rest) => readsTree_record (readsTree t) (readsEntries rest)

theorem readsItems : ∀ items : List Tree, ReadsItems items
  | [] => readsItems_nil
  | t :: rest => readsItems_cons (readsTree t) (readsItems rest)

theorem readsEntries : ∀ entries : List (String × Tree), ReadsEntries entries
  | [] => readsEntries_nil
  | (_, t) :: rest => readsEntries_cons (readsTree t) (readsEntries rest)
end

end Lexer

end Yaml
end AgentConfig
