import AgentConfig.Proofs.Json.Reader

namespace AgentConfig.Json

/-- Where a character stands: outside of all texts, in one, or behind a backslash in one. -/
inductive Place where
  | outside
  | inside
  | escaped
deriving DecidableEq

/-- Where the next character stands. -/
def Place.next (c : Char) : Place → Place
  | .outside => if c = '"' then .inside else .outside
  | .inside => if c = '"' then .outside else if c = '\\' then .escaped else .inside
  | .escaped => .inside

/-- What is left without the white space outside of texts. -/
def dense : Place → List Char → List Char
  | _, [] => []
  | place, c :: rest =>
    if place = .outside ∧ isSpace c then dense place rest else c :: dense (place.next c) rest

/-- A part that is kept as it is and behind which the text goes on in another place. -/
def Kept (place : Place) (used : List Char) (place' : Place) : Prop :=
  ∀ rest, dense place (used ++ rest) = used ++ dense place' rest

variable {place place' place'' : Place} {c : Char} {used more s rest : List Char}

theorem kept_nil (place : Place) : Kept place [] place :=
  fun _ => rfl

theorem Kept.append (first : Kept place used place') (second : Kept place' more place'') :
    Kept place (used ++ more) place'' := by
  intro rest
  rw [List.append_assoc, first, second, List.append_assoc]

theorem Kept.cons (visible : ¬ (place = .outside ∧ isSpace c)) (next : Kept (place.next c) used place') :
    Kept place (c :: used) place' := by
  intro rest
  rw [List.cons_append, dense, if_neg visible, next, List.cons_append]

/-- In texts nothing is left out. -/
theorem Kept.inside_cons (quote : c ≠ '"') (backslash : c ≠ '\\') (next : Kept .inside used place') :
    Kept .inside (c :: used) place' := by
  refine .cons (by simp) ?_
  rwa [Place.next, if_neg quote, if_neg backslash]

theorem dense_space (space : isSpace c) (rest : List Char) : dense .outside (c :: rest) = dense .outside rest := by
  rw [dense, if_pos ⟨rfl, space⟩]

/-- What is read in front of `rest` stands in a part that is kept, and is read there whatever is behind it. -/
def Finds {α : Type} (place : Place) (read : List Char → Except Error (α × List Char)) (place' : Place) (s : List Char)
    (a : α) (rest : List Char) : Prop :=
  ∃ used, s = used ++ rest ∧ Kept place used place' ∧ ∀ after, read (used ++ after) = .ok (a, after)

/-- Digits after `\u` are found again whatever is behind them. -/
theorem hex4_eq_ok {n : Nat} (read : hex4 s = .ok (n, rest)) : Finds .inside hex4 .inside s n rest := by
  have digit : ∀ {c : Char} {n : Nat}, hexValue? c = some n → c ≠ '"' ∧ c ≠ '\\' := by
    intro c n value
    constructor <;> (rintro rfl; revert value; simp [hexValue?, isDigit])
  unfold hex4 at read
  split_ifs at read with few
  split at read
  · rename_i a b c d rest'
    split at read
    · rename_i ha hb hc hd
      simp only [Except.ok.injEq, Prod.mk.injEq] at read
      obtain ⟨rfl, rfl⟩ := read
      refine ⟨[a, b, c, d], rfl, ?_, fun after => ?_⟩
      · have last := (kept_nil .inside).inside_cons (digit hd).1 (digit hd).2
        have behind := (last.inside_cons (digit hc).1 (digit hc).2).inside_cons (digit hb).1 (digit hb).2
        exact behind.inside_cons (digit ha).1 (digit ha).2
      · have few' : ¬ (String.ofList ((a :: b :: c :: d :: after).take 4)).utf8ByteSize < 4 := few
        rw [List.cons_append, List.cons_append, List.cons_append, List.cons_append, List.nil_append, hex4, if_neg few']
        simp only [ha, hb, hc, hd]
    · simp at read
  · simp at read

theorem lowHalf_eq_ok {high : Nat} (read : lowHalf high s = .ok (c, rest)) :
    Finds .inside (lowHalf high) .inside s c rest := by
  unfold lowHalf at read
  split at read
  · contradiction
  · contradiction
  · rename_i s
    obtain ⟨⟨low, behind⟩, digits, read⟩ := bind_eq_ok read
    dsimp only at read
    split_ifs at read with isLow
    simp only [Except.ok.injEq, Prod.mk.injEq] at read
    obtain ⟨rfl, rfl⟩ := read
    obtain ⟨used, rfl, kept, again⟩ := hex4_eq_ok digits
    refine ⟨'\\' :: 'u' :: used, rfl, .cons (by decide) (.cons (by decide) kept), fun after => ?_⟩
    simp [lowHalf, again, bind, Except.bind, isLow]
  · contradiction

theorem escaped_eq_ok (read : escaped s = .ok (c, rest)) : Finds .escaped escaped .inside s c rest := by
  unfold escaped at read
  split at read
  · contradiction
  · rename_i s
    obtain ⟨⟨code, behind⟩, digits, found⟩ := bind_eq_ok read
    obtain ⟨used, rfl, kept, again⟩ := hex4_eq_ok digits
    dsimp only at found
    split_ifs at found with low high
    · obtain ⟨more, rfl, kept', again'⟩ := lowHalf_eq_ok found
      refine ⟨'u' :: (used ++ more), by simp, .cons (by simp) (kept.append kept'), fun after => ?_⟩
      simp [escaped, again, again', bind, Except.bind, low, high]
    · simp only [Except.ok.injEq, Prod.mk.injEq] at found
      obtain ⟨rfl, rfl⟩ := found
      refine ⟨'u' :: used, rfl, .cons (by simp) kept, fun after => ?_⟩
      simp [escaped, again, bind, Except.bind, low, high]
  · rename_i d s other
    have one : Kept .escaped [d] .inside := .cons (by simp) (kept_nil .inside)
    split at read
    all_goals first
      | contradiction
      | (simp only [Except.ok.injEq, Prod.mk.injEq] at read
         obtain ⟨rfl, rfl⟩ := read
         exact ⟨[_], rfl, one, fun after => rfl⟩)

/-- A text is found again whatever is behind its closing quote. -/
theorem readText_eq_ok {fuel : Nat} {content : List Char} (read : readText fuel s = .ok (content, rest)) :
    ∃ used, s = used ++ rest ∧ Kept .inside used .outside ∧
      ∀ fuel' after, used.length ≤ fuel' → readText fuel' (used ++ after) = .ok (content, after) := by
  -- The fuel of the second reading is any that suffices, so that it goes along with the first.
  induction fuel generalizing s content with
  | zero => simp [readText] at read
  | succ fuel ih =>
    rcases s with _ | ⟨c, s⟩
    · simp [readText] at read
    rw [readText] at read
    split_ifs at read with quote backslash control
    · simp only [Except.ok.injEq, Prod.mk.injEq] at read
      obtain ⟨rfl, rfl⟩ := read
      refine ⟨[c], rfl, .cons (by simp) ?_, fun fuel' after enough => ?_⟩
      · rw [Place.next, if_pos quote]
        exact kept_nil .outside
      · obtain ⟨fuel', rfl⟩ := exists_fuel enough
        rw [quote]
        exact readText_quote fuel' after
    · obtain ⟨⟨a, behind⟩, meaning, more⟩ := bind_eq_ok read
      obtain ⟨⟨as, behind'⟩, found, same⟩ := bind_eq_ok more
      simp only [Except.ok.injEq, Prod.mk.injEq] at same
      obtain ⟨rfl, rfl⟩ := same
      obtain ⟨first, rfl, kept, again⟩ := escaped_eq_ok meaning
      obtain ⟨others, rfl, kept', again'⟩ := ih found
      refine ⟨c :: (first ++ others), by simp, .cons (by simp) ?_, fun fuel' after enough => ?_⟩
      · rw [Place.next, if_neg quote, if_pos backslash]
        exact kept.append kept'
      · obtain ⟨fuel', rfl⟩ := exists_fuel enough
        simp only [List.length_cons, List.length_append] at enough
        rw [backslash, List.cons_append, List.append_assoc, readText_escape (again _), again' _ _ (by omega)]
        rfl
    · obtain ⟨⟨as, behind⟩, found, same⟩ := bind_eq_ok read
      simp only [Except.ok.injEq, Prod.mk.injEq] at same
      obtain ⟨rfl, rfl⟩ := same
      obtain ⟨others, rfl, kept, again⟩ := ih found
      refine ⟨c :: others, rfl, kept.inside_cons quote backslash, fun fuel' after enough => ?_⟩
      obtain ⟨fuel', rfl⟩ := exists_fuel enough
      rw [List.cons_append, readText_self quote backslash control, again _ _ (by simpa using enough)]
      rfl

theorem kept_digits (all : used.all isDigit) : Kept .outside used .outside := by
  induction used with
  | nil => exact kept_nil .outside
  | cons c used ih =>
    rw [List.all_cons, Bool.and_eq_true] at all
    have quote : c ≠ '"' := by
      rintro rfl
      exact absurd all.1 (by decide)
    refine .cons ?_ ?_
    · simp [not_isSpace_of_startsScalar (startsScalar_digit all.1)]
    · rw [Place.next, if_neg quote]
      exact ih all.2

theorem readWord_eq_ok {word : List Char} (read : readWord word s = .ok rest) : s = word ++ rest := by
  induction word generalizing s with
  | nil => exact Except.ok.inj read
  | cons w word ih =>
    rcases s with _ | ⟨c, s⟩
    · contradiction
    rw [readWord] at read
    split_ifs at read with same
    rw [same, ih read, List.cons_append]

theorem readFraction_eq_ok {fraction : Option (List Char)} (read : readFraction s = .ok (fraction, rest)) :
    ∃ used, s = used ++ rest ∧ Kept .outside used .outside ∧ (∀ c ∈ used.head?, isDigit c = false) ∧
      ∀ after, (after.head?.all fun c => !isDigit c) → after.head? ≠ some '.' →
        readFraction (used ++ after) = .ok (fraction, after) := by
  unfold readFraction at read
  split at read
  · obtain ⟨⟨digits, behind⟩, found, same⟩ := bind_eq_ok read
    simp only [Except.ok.injEq, Prod.mk.injEq] at same
    obtain ⟨rfl, rfl⟩ := same
    obtain ⟨rfl, nonempty, all⟩ := readDigits_eq_ok found
    refine ⟨'.' :: digits, rfl, .cons (by decide) (kept_digits all), ?_, fun after stop _ => ?_⟩
    · rintro _ ⟨⟩
      rfl
    · exact readFraction_some nonempty all stop
  · simp only [Except.ok.injEq, Prod.mk.injEq] at read
    obtain ⟨rfl, rfl⟩ := read
    exact ⟨[], rfl, kept_nil .outside, by simp, fun after _ point => readFraction_none point⟩

/-- The signs of an exponent, which may be missing, and whether they make it negative. -/
def exponentSigns : List (List Char × Bool) :=
  [(['-'], true), (['+'], false), ([], false)]

theorem readExponent_signed {sign digits : List Char} {negative : Bool} (letter : c = 'e' ∨ c = 'E')
    (signed : (sign, negative) ∈ exponentSigns) (nonempty : digits ≠ []) (all : digits.all isDigit)
    (stop : rest.head?.all fun c => !isDigit c) :
    readExponent (c :: (sign ++ (digits ++ rest))) =
      .ok (some (if negative then -(natOfDigits digits : Int) else natOfDigits digits), rest) := by
  have read := readDigits_append nonempty all stop
  obtain ⟨d, more, rfl, digit⟩ := exists_digit_cons nonempty all
  rw [List.cons_append] at read ⊢
  simp only [exponentSigns, List.mem_cons, Prod.mk.injEq, List.not_mem_nil, or_false] at signed
  rcases signed with ⟨rfl, rfl⟩ | ⟨rfl, rfl⟩ | ⟨rfl, rfl⟩
  · simp [readExponent, letter, read, bind, Except.bind]
  · simp [readExponent, letter, read, bind, Except.bind]
  · rw [List.nil_append, readExponent, if_pos letter]
    · simp [read, bind, Except.bind]
    · rintro _ ⟨⟩
      exact absurd digit (by decide)
    · rintro _ ⟨⟩
      exact absurd digit (by decide)

theorem readExponent_eq_ok {exponent : Option Int} (read : readExponent s = .ok (exponent, rest)) :
    ∃ used, s = used ++ rest ∧ Kept .outside used .outside ∧ (∀ c ∈ used.head?, c = 'e' ∨ c = 'E') ∧
      ∀ after, EndsScalar after → readExponent (used ++ after) = .ok (exponent, after) := by
  have absent : ∀ after, EndsScalar after → readExponent ([] ++ after) = .ok (none, after) := fun after ends =>
    readExponent_none (ends.head_ne (by decide)) (ends.head_ne (by decide))
  unfold readExponent at read
  split at read
  · simp only [Except.ok.injEq, Prod.mk.injEq] at read
    obtain ⟨rfl, rfl⟩ := read
    exact ⟨[], rfl, kept_nil .outside, by simp, absent⟩
  · rename_i c s
    split_ifs at read with letter
    · have marked : Kept .outside [c] .outside := by rcases letter with rfl | rfl <;> exact fun _ => rfl
      split at read
      rename_i negative behind signed
      obtain ⟨⟨digits, rest'⟩, found, same⟩ := bind_eq_ok read
      simp only [Except.ok.injEq, Prod.mk.injEq] at same
      obtain ⟨rfl, rfl⟩ := same
      obtain ⟨rfl, nonempty, all⟩ := readDigits_eq_ok found
      obtain ⟨sign, shape, known, kept⟩ : ∃ sign, s = sign ++ (digits ++ rest') ∧ (sign, negative) ∈ exponentSigns ∧
          Kept .outside sign .outside := by
        split at signed <;> simp only [Prod.mk.injEq] at signed <;> obtain ⟨rfl, rfl⟩ := signed
        · exact ⟨['-'], rfl, by decide, fun _ => rfl⟩
        · exact ⟨['+'], rfl, by decide, fun _ => rfl⟩
        · exact ⟨[], rfl, by decide, fun _ => rfl⟩
      refine ⟨c :: (sign ++ digits), by simp [shape], marked.append (kept.append (kept_digits all)), ?_, fun after ends => ?_⟩
      · rintro _ ⟨⟩
        exact letter
      · have again := readExponent_signed letter known nonempty all (ends.stops (by decide))
        simpa using again
    · simp only [Except.ok.injEq, Prod.mk.injEq] at read
      obtain ⟨rfl, rfl⟩ := read
      exact ⟨[], rfl, kept_nil .outside, by simp, absent⟩

theorem readUnsigned_eq_ok {limit : Nat} {negative : Bool} {t : Tree}
    (read : readUnsigned limit negative s = .ok (t, rest)) :
    ∃ c used, s = c :: used ++ rest ∧ isDigit c ∧ Kept .outside (c :: used) .outside ∧
      ∀ after, EndsScalar after → readUnsigned limit negative (c :: used ++ after) = .ok (t, after) := by
  obtain ⟨whole, _, fraction, _, exponent, digits, leading, short, atFraction, atExponent, value⟩ :=
    readUnsigned_eq_ok_iff.mp read
  obtain ⟨rfl, nonempty, all⟩ := readDigits_eq_ok digits
  obtain ⟨inFraction, rfl, kept, head, again⟩ := readFraction_eq_ok atFraction
  obtain ⟨inExponent, rfl, kept', head', again'⟩ := readExponent_eq_ok atExponent
  obtain ⟨c, more, rfl, digit⟩ := exists_digit_cons nonempty all
  refine ⟨c, more ++ (inFraction ++ inExponent), by simp, digit, ?_, fun after ends => ?_⟩
  · exact (kept_digits all).append (kept.append kept')
  · have stop : after.head?.all fun c => !isDigit c := ends.stops (by decide)
    have noPoint : after.head? ≠ some '.' := ends.head_ne (by decide)
    have stopped : (inExponent ++ after).head?.all (fun c => !isDigit c) ∧ (inExponent ++ after).head? ≠ some '.' := by
      rcases inExponent with _ | ⟨e, inExponent⟩
      · exact ⟨stop, noPoint⟩
      · rcases head' e rfl with rfl | rfl <;> simp [isDigit]
    have stopped' : (inFraction ++ (inExponent ++ after)).head?.all fun c => !isDigit c := by
      rcases inFraction with _ | ⟨p, inFraction⟩
      · exact stopped.1
      · simpa using head p rfl
    have whole : c :: (more ++ (inFraction ++ inExponent)) ++ after = c :: more ++ (inFraction ++ (inExponent ++ after)) := by
      simp
    rw [whole]
    exact readUnsigned_eq_ok_iff.mpr ⟨_, _, _, _, _, readDigits_append nonempty all stopped', leading, short,
      again _ stopped.1 stopped.2, again' _ ends, value⟩

/-- The part that a scalar takes is kept and is read as the scalar wherever one may end. -/
def Takes (limit : Nat) (s : List Char) (t : Tree) (rest : List Char) : Prop :=
  ∃ used, s = used ++ rest ∧ Kept .outside used .outside ∧ Reads limit used t

theorem takes_word {limit : Nat} (front : List Char) {word : List Char} {t u : Tree} (reads : Reads limit (front ++ word) u)
    (kept : Kept .outside (front ++ word) .outside) (read : (u, ·) <$> readWord word s = .ok (t, rest)) :
    Takes limit (front ++ s) t rest := by
  obtain ⟨behind, found, same⟩ := map_eq_ok read
  simp only [Prod.mk.injEq] at same
  obtain ⟨rfl, rfl⟩ := same
  exact ⟨front ++ word, by rw [readWord_eq_ok found, List.append_assoc], kept, reads⟩

theorem readScalar_eq_ok {limit : Nat} {t : Tree} (read : readScalar limit s = .ok (t, rest)) : Takes limit s t rest := by
  unfold readScalar at read
  split at read
  · exact takes_word ['-', 'I'] ⟨⟨'-', rfl, rfl⟩, fun _ _ => rfl⟩ (fun _ => rfl) read
  · obtain ⟨c, used, rfl, digit, kept, again⟩ := readUnsigned_eq_ok read
    have sign : Kept .outside ['-'] .outside := fun _ => rfl
    exact ⟨'-' :: c :: used, rfl, sign.append kept, reads_of_readUnsigned true rfl digit again⟩
  · exact takes_word ['t'] (reads_bool limit true) (fun _ => rfl) read
  · exact takes_word ['f'] (reads_bool limit false) (fun _ => rfl) read
  · exact takes_word ['n'] (reads_null limit) (fun _ => rfl) read
  · exact takes_word ['N'] ⟨⟨'N', rfl, rfl⟩, fun _ _ => rfl⟩ (fun _ => rfl) read
  · exact takes_word ['I'] ⟨⟨'I', rfl, rfl⟩, fun _ _ => rfl⟩ (fun _ => rfl) read
  · obtain ⟨c, used, rfl, digit, kept, again⟩ := readUnsigned_eq_ok read
    exact ⟨c :: used, rfl, kept, reads_of_readUnsigned false rfl digit again⟩

/-- In front of these tokens a scalar may end. -/
inductive Closes : List Token → Prop
  | nil : Closes []
  | list (ts : List Token) : Closes (.listClose :: ts)
  | record (ts : List Token) : Closes (.recordClose :: ts)
  | comma (ts : List Token) : Closes (.comma :: ts)

/-- Whether all tokens can be read and every scalar stands where one may end. -/
def Tidy : List Token → Prop
  | [] => True
  | .scalar (.ok _) :: ts => Closes ts ∧ Tidy ts
  | .scalar (.error _) :: _ | .text (.error _) :: _ | .junk :: _ => False
  | _ :: ts => Tidy ts

theorem closes_itemTokens (items : List Tree) (ts : List Token) : Closes (itemTokens items ++ ts) := by
  cases items with
  | nil => exact .list ts
  | cons t items => exact .comma _

theorem closes_entryTokens (entries : List (String × Tree)) (ts : List Token) : Closes (entryTokens entries ++ ts) := by
  cases entries with
  | nil => exact .record ts
  | cons entry entries => exact .comma _

mutual
theorem tidy_tokensFor : ∀ (t : Tree) {ts : List Token}, Closes ts → Tidy ts → Tidy (tokensFor t ++ ts)
  | .null, _, closes, tidy | .bool _, _, closes, tidy | .int _, _, closes, tidy | .float _, _, closes, tidy =>
    ⟨closes, tidy⟩
  | .text _, _, _, tidy | .list [], _, _, tidy | .record [], _, _, tidy => tidy
  | .list (t :: items), ts, _, tidy => by
    rw [tokensFor, List.cons_append, List.append_assoc]
    exact tidy_tokensFor t (closes_itemTokens items ts) (tidy_itemTokens items tidy)
  | .record ((key, t) :: entries), ts, _, tidy => by
    rw [tokensFor, List.cons_append, List.cons_append, List.cons_append, List.append_assoc]
    exact tidy_tokensFor t (closes_entryTokens entries ts) (tidy_entryTokens entries tidy)

theorem tidy_itemTokens : ∀ (items : List Tree) {ts : List Token}, Tidy ts → Tidy (itemTokens items ++ ts)
  | [], _, tidy => tidy
  | t :: items, ts, tidy => by
    rw [itemTokens, List.cons_append, List.append_assoc]
    exact tidy_tokensFor t (closes_itemTokens items ts) (tidy_itemTokens items tidy)

theorem tidy_entryTokens : ∀ (entries : List (String × Tree)) {ts : List Token}, Tidy ts →
    Tidy (entryTokens entries ++ ts)
  | [], _, tidy => tidy
  | (key, t) :: entries, ts, tidy => by
    rw [entryTokens, List.cons_append, List.cons_append, List.cons_append, List.append_assoc]
    exact tidy_tokensFor t (closes_entryTokens entries ts) (tidy_entryTokens entries tidy)
end

variable {limit fuel : Nat}

/-- Where a scalar may end, it may also end without white space. -/
theorem endsScalar_dense (enough : s.length ≤ fuel) (closes : Closes (tokens limit fuel s)) :
    EndsScalar (dense .outside s) := by
  induction fuel generalizing s with
  | zero =>
    obtain rfl := List.length_eq_zero_iff.mp (Nat.le_zero.mp enough)
    exact endsScalar_nil
  | succ fuel ih =>
    rcases s with _ | ⟨c, s⟩
    · exact endsScalar_nil
    by_cases space : isSpace c
    · rw [tokens_space space] at closes
      rw [dense_space space]
      exact ih (by simpa using enough) closes
    · rw [dense, if_neg fun ⟨_, blank⟩ => space blank]
      refine endsScalar_cons _ ?_
      simp only [tokens, if_neg space] at closes
      split at closes
      · cases closes
      · decide
      · cases closes
      · decide
      · decide
      · cases closes
      · split at closes <;> cases closes
      · split_ifs at closes
        · split at closes <;> cases closes
        · cases closes

/-- Without white space a text has the same tokens. -/
theorem lexes_dense (enough : s.length ≤ fuel) (tidy : Tidy (tokens limit fuel s)) :
    Lexes limit (dense .outside s) (tokens limit fuel s) [] := by
  induction fuel generalizing s with
  | zero =>
    obtain rfl := List.length_eq_zero_iff.mp (Nat.le_zero.mp enough)
    exact lexes_nil []
  | succ fuel ih =>
    rcases s with _ | ⟨c, s⟩
    · exact lexes_nil []
    have bound : s.length ≤ fuel := by simpa using enough
    by_cases space : isSpace c
    · rw [tokens_space space] at tidy ⊢
      rw [dense_space space]
      exact ih bound tidy
    · simp only [tokens, if_neg space] at tidy ⊢
      split at tidy
      · exact (lexes_mark (t := .listOpen) rfl _).append (ih bound tidy)
      · exact (lexes_mark (t := .listClose) rfl _).append (ih bound tidy)
      · exact (lexes_mark (t := .recordOpen) rfl _).append (ih bound tidy)
      · exact (lexes_mark (t := .recordClose) rfl _).append (ih bound tidy)
      · exact (lexes_mark (t := .comma) rfl _).append (ih bound tidy)
      · exact (lexes_mark (t := .colon) rfl _).append (ih bound tidy)
      · split at tidy
        · rename_i content after read
          obtain ⟨used, rfl, kept, again⟩ := readText_eq_ok read
          have shorter : after.length ≤ fuel := by
            rw [List.length_append] at bound
            omega
          have text := (lexes_text again _).append (ih shorter tidy)
          have begun : dense .outside ('"' :: (used ++ after)) = '"' :: used ++ dense .outside after := by
            rw [dense, if_neg (by decide), Place.next, if_pos rfl, kept, List.cons_append]
          rwa [begun]
        · contradiction
      · split_ifs at tidy with starts
        · split at tidy
          · rename_i t after read
            obtain ⟨used, whole, kept, reads⟩ := readScalar_eq_ok read
            obtain ⟨d, head, -⟩ := reads.starts
            have shorter : after.length ≤ fuel := by
              have lengths := congrArg List.length whole
              have some_used : 0 < used.length := List.length_pos_iff.mpr (by rintro rfl; simp at head)
              simp only [List.length_cons, List.length_append] at lengths
              omega
            -- Without white space a scalar might run on into the next token, but behind it stands one that closes it.
            have scalar : Lexes limit used [.scalar (.ok t)] (dense .outside after ++ []) := by
              rw [List.append_nil]
              exact reads.lexes (endsScalar_dense shorter tidy.1)
            rw [if_pos starts, whole, kept]
            exact scalar.append (ih shorter tidy.2)
          · contradiction
        · contradiction

theorem tokensOf_dense {s : String} {t : Tree} (read : Json.read s = .ok t) :
    tokensOf (dense .outside s.toList) = tokensOf s.toList := by
  have same := tokens_eq_tokensFor (read : readTokens depthLimit (tokens digitLimit s.toList.length s.toList) = .ok t)
  have tidy := tidy_tokensFor t .nil (by trivial)
  rw [List.append_nil, ← same] at tidy
  obtain ⟨fuel, -, eq⟩ := lexes_dense le_rfl tidy (dense .outside s.toList).length (by rw [List.append_nil])
  have ended : tokens digitLimit fuel [] = [] := by cases fuel <;> rfl
  rw [List.append_nil, ended, List.append_nil] at eq
  exact eq

/-- A text without the white space outside of the texts in it. -/
def unspaced (s : String) : String :=
  String.ofList (dense .outside s.toList)

/-- White space makes no difference to what is read. -/
theorem read_unspaced {s : String} {t : Tree} (read : Json.read s = .ok t) : Json.read (unspaced s) = .ok t := by
  rw [← read, Json.read, Json.read, readWithin, readWithin, unspaced, String.toList_ofList, tokensOf_dense read]

end AgentConfig.Json
