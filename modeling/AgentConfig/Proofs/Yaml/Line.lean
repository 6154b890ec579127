import AgentConfig.Proofs.Yaml.Datum

namespace AgentConfig.Yaml

/-- A key and a word behind it, with nothing that follows. -/
def line (key word : List Char) : List Char :=
  key ++ ':' :: ' ' :: word

namespace Lexer

variable {c : Cursor} {open_ : Nat} {key word : List Char}

/-- The last word of a text is read up to its end. -/
theorem moves_lastWord (outer : List Nat) (tokens : List Token) (bare : Bare word) (ahead : c.rest = word)
    (deep : open_ < c.column) :
    Moves (place c (open_ :: outer) [none] false tokens)
      (place (c.past word) (open_ :: outer) [none] false (.scalar (some word) true :: tokens)) := by
  have whole : c.rest = word ++ [] := by rw [ahead, List.append_nil]
  have ends := Cursor.rest_past whole
  have column := (Cursor.column_past whole fun ch mem => (bare.word.printed ch mem).1).1
  have onset : Onset [] := .inl rfl
  have starts : startsPlain false c.head (c.peek 1) = true := by
    obtain ⟨ch, tail, rfl⟩ := List.exists_cons_of_ne_nil bare.word.nonempty
    rw [Cursor.head_of_rest ahead, Cursor.peek_one_of_rest ahead]
    exact bare.starts
  have token : (place c (open_ :: outer) [none] false tokens).token =
      .ok (place (c.past word) (open_ :: outer) [none] false (.scalar (some word) true :: tokens)) := by
    have scalar := fun least => readPlain_word bare.word bare.unmarked least whole rfl onset.inked
    have saved : (place c (open_ :: outer) [none] false tokens).saveKey =
      .ok (place c (open_ :: outer) [none] false tokens) := rfl
    rw [token_plain starts rfl fun edge => absurd edge (Nat.ne_zero_of_lt deep), plainScalar, saved]
    simp only [bind, Except.bind, inFlow_place, cursor_place, scalar]
    rfl
  -- Nothing is left to skip, and the end of the text lies further in than the block.
  have arrived : (place (c.past word) (open_ :: outer) [none] false (.scalar (some word) true :: tokens)).arrive =
      .ok (place (c.past word) (open_ :: outer) [none] false (.scalar (some word) true :: tokens)) := by
    have further : open_ ≤ (c.past word).column := by omega
    rw [arrive_spaces 0 _ _ _ _ ends (.of_onset onset) rfl]
    have inside : ∀ o ∈ (open_ :: outer).head?, o ≤ (c.past word).column := by simpa using further
    exact congrArg Except.ok (unwindTo_stay inside)
  refine .move token rfl rfl arrived ?_
  rw [cursor_place, cursor_place, ends]
  exact Cursor.length_rest_past whole bare.word.nonempty

/-- A key, its colon and a word are read up to the end of the text. -/
theorem reaches_line (tokens : List Token) (isKey : IsKey key) (bare : Bare word) (ahead : c.rest = line key word) :
    ∃ c' : Cursor, c'.rest = [] ∧ Reaches (place c [] [none] true tokens)
      (place c' [c.column] [none] false
        (.scalar (some word) true :: .value :: .scalar (some key) true :: .key :: .mappingStart :: tokens)) := by
  have deeper : Opens c.column .mappingStart [] [c.column] [.mappingStart] := .deeper (by simp)
  have blank : isBlankOrEnd ((' ' :: word).headD endMark) = true := rfl
  have inside : ∀ o ∈ ([] : List Nat).head?, o ≤ c.column := by simp
  have first := moves_key isKey ahead blank tokens inside
  obtain ⟨valued, rest, column⟩ := token_value isKey ahead blank tokens deeper
  have space : (c.past key).next.rest = spaces 1 ++ word := rest
  have further := (Cursor.column_past space (by decide)).1
  have more := Cursor.rest_past space
  have starts : Starts word := by
    obtain ⟨ch, tail, rfl⟩ := List.exists_cons_of_ne_nil bare.word.nonempty
    have printed := bare.word.printed ch (by simp)
    exact .of_isPrinted printed.1 printed.2 (by simpa using bare.unmarked)
  have arrived : (place (c.past key).next [c.column] [none] false
      (.value :: .scalar (some key) true :: .key :: ([.mappingStart] ++ tokens))).arrive =
      .ok (place ((c.past key).next.past (spaces 1)) [c.column] [none] false
        (.value :: .scalar (some key) true :: .key :: ([.mappingStart] ++ tokens))) := by
    rw [arrive_spaces 1 _ _ _ _ space starts rfl]
    refine congrArg Except.ok (unwindTo_stay fun o mem => ?_)
    obtain rfl := Option.some.inj mem
    omega
  have second : Moves _ _ := .move valued rfl rfl arrived (by
    rw [cursor_place, cursor_place, more, Cursor.rest_past ahead]
    simp)
  have third := moves_lastWord [] (.value :: .scalar (some key) true :: .key :: ([.mappingStart] ++ tokens)) bare more
    (by omega : c.column < _)
  exact ⟨_, Cursor.rest_past (by rw [more, List.append_nil]), .head first (.head second (.single third))⟩

end Lexer

variable {key word : List Char}

theorem tokensOf_line (isKey : IsKey key) (bare : Bare word) : tokensOf (line key word) =
    [.mappingStart, .key, .scalar (some key) true, .value, .scalar (some word) true, .blockEnd, .textEnd] := by
  have visible : Visible (line key word) := by
    simp [line, isKey.visible, bare.visible, visible_words]
  have accepted : (line key word).find? (!isAcceptable ·) = none := by
    rw [List.find?_eq_none]
    intro c mem
    simp [Visible.isAcceptable (visible c mem)]
  have start : (Lexer.start (line key word)).arrive = .ok (Lexer.place (.start (line key word)) [] [none] true []) := by
    refine (Lexer.arrive_here rfl (.of_onset (isKey.onset _))).trans ?_
    rw [Lexer.land_stay (by simp)]
  obtain ⟨c, ends, reaches⟩ := Lexer.reaches_line (c := .start (line key word)) [] isKey bare rfl
  have enough : (Lexer.place (.start (line key word)) [] [none] true []).cursor.rest.length <
      (line key word).length + 2 := by
    simp [Cursor.start]
  rw [tokensOf, accepted]
  exact Lexer.run_of_reaches start reaches (Lexer.token_end ends) rfl enough

/-- A line of a key and a word is read as a mapping with one entry. -/
theorem read_line {v : Value} (isKey : IsKey key) (name : Tag.ofPlain key = .text) (bare : Bare word)
    (denotes : Denotes (scalarNode word true) v) :
    read (String.ofList (line key word)) = .ok (.map [(.text (String.ofList key), v)]) := by
  have node : Node.ofText (String.ofList (line key word)) =
      .ok (some (.mapping none .mapping [(scalarNode key true, scalarNode word true)])) := by
    rw [Node.ofText, String.toList_ofList, tokensOf_line isKey bare]
    refine Node.ofTokens_of_read (.mapping true) (Node.read_mapping (by decide) ?_)
    exact Node.readBlockEntries_cons (.scalar _ _ _) key (Node.read_scalar _ _ _ _ _) (Node.readBlockEntries_end _ _)
  have value := valueOf_of_denotes (DenotesEntries.cons name denotes denotesEntries_nil).mapping
  simp only [read, node, value, bind, Except.bind]

/-- A decimal with a point denotes the number nearest to it. -/
theorem denotes_decimal {parts : NumberParts} {fraction : List Char} (wellFormed : parts.WellFormed)
    (pointed : parts.fraction = some fraction) :
    Denotes (scalarNode parts.text true) (.float (parts.value.toBinary64 false)) := by
  obtain ⟨first, more, shape, digit⟩ := exists_text_cons wellFormed
  have number := isNumber_text wellFormed
  have unsigned : Tag.withoutSign (NumberLayout.signed false (first :: more)) = first :: more :=
    withoutSign_signed false digit
  rw [shape] at number
  have tagged := ofPlain_float number digit false (isFloat_text wellFormed pointed (unsigned.trans shape.symm))
  rw [← shape] at tagged
  have value := readFloat_signed wellFormed pointed false
  refine denotes_scalarNode tagged ?_
  simp only [NumberLayout.signed, Bool.false_eq_true, if_false] at value
  simp [Datum.assess, Datum.scalarValue?, value]

theorem bare_decimal {parts : NumberParts} (wellFormed : parts.WellFormed) : Bare parts.text := by
  obtain ⟨first, more, shape, digit⟩ := exists_text_cons wellFormed
  have number := isNumber_text wellFormed
  rw [shape] at number ⊢
  exact bare_signed number digit false

end AgentConfig.Yaml
