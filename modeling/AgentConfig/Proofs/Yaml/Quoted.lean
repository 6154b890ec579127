import AgentConfig.Proofs.Except
import AgentConfig.Proofs.Yaml.Cursor
import AgentConfig.Yaml.Scalar.Quoted

namespace AgentConfig.Yaml

section escape

@[simp] theorem length_upperHex (width n : Nat) : (upperHex width n).length = width := by
  rw [upperHex, List.length_map]
  induction width generalizing n with
  | zero => rfl
  | succ width ih => rw [Text.hexDigits, List.length_append, ih, List.length_singleton]

theorem hexValue?_toUpper_digitChar {n : Nat} (digit : n < 16) : Json.hexValue? (Nat.digitChar n).toUpper = some n := by
  revert n
  decide

theorem foldl_upperHex (width n m : Nat) :
    (upperHex width n).foldl (fun n c => do return 16 * (← n) + (← Json.hexValue? c)) (some m) =
      some (16 ^ width * m + n % 16 ^ width) := by
  induction width generalizing n m with
  | zero => simp [upperHex, Text.hexDigits, Nat.mod_one]
  | succ width ih =>
    have onward := ih (n / 16) m
    rw [upperHex] at onward ⊢
    have digit := hexValue?_toUpper_digitChar (Nat.mod_lt n (by decide : 0 < 16))
    rw [Text.hexDigits, List.map_append, List.foldl_append, onward]
    simp only [List.map_cons, List.map_nil, List.foldl_cons, List.foldl_nil, digit, Option.bind_eq_bind,
      Option.bind_some, Option.pure_def, Option.some.injEq]
    rw [Nat.pow_succ', Nat.mod_mul]
    ring

theorem hexNumber?_upperHex {width n : Nat} (bound : n < 16 ^ width) (rest : List Char) :
    hexNumber? width (upperHex width n ++ rest) = some n := by
  have taken : (upperHex width n ++ rest).take width = upperHex width n := by
    rw [List.take_append_of_le_length (by simp), List.take_of_length_le (by simp)]
  rw [hexNumber?, taken, if_pos (length_upperHex width n), foldl_upperHex, Nat.mod_eq_of_lt bound, Nat.mul_zero, Nat.zero_add]

theorem codePointPiece_toNat (c : Char) : codePointPiece c.toNat = .ok (some [c]) := by
  have valid := c.valid
  have same : c.toNat = c.val.toNat := rfl
  rw [UInt32.isValidChar, Nat.isValidChar] at valid
  rw [codePointPiece, if_neg (by omega), if_neg (by omega), if_neg (by omega), Char.ofNat_toNat]

theorem escape?_shape {c : Char} {form : List Char} (written : escape? c = some form) : ∃ body, form = '\\' :: body := by
  rw [escape?] at written
  split at written
  · exact ⟨_, (Option.some.inj written).symm⟩
  · split_ifs at written <;> exact ⟨_, (Option.some.inj written).symm⟩

/-- An escape is read as the character that it was written for. -/
theorem readEscape_escape? {ch : Char} {body rest : List Char} (written : escape? ch = some ('\\' :: body)) {c : Cursor}
    (ahead : c.rest = body ++ rest) : readEscape c = .ok (some [ch], c.past body) := by
  have short : ∀ pair ∈ shortEscapes, escapeReplacements.lookup pair.2 = some pair.1 := by decide
  have numbered (letter : Char) (width : Nat) (own : escapeReplacements.lookup letter = none)
      (wide : escapeWidth? letter = some width) (bound : ch.toNat < 16 ^ width)
      (form : body = letter :: upperHex width ch.toNat) : readEscape c = .ok (some [ch], c.past body) := by
    subst form
    have digits := (Cursor.next_of_rest ahead).1
    have value : hexNumber? width c.next.rest = some ch.toNat := by
      rw [digits]
      exact hexNumber?_upperHex bound rest
    simp [readEscape, Cursor.head_of_rest ahead, own, wide, value, codePointPiece_toNat, Cursor.past, bind, Except.bind]
  rw [escape?] at written
  split at written
  · next letter found =>
    obtain rfl : [letter] = body := by simpa using written
    obtain ⟨before, after, table, -⟩ := List.lookup_eq_some_iff.1 found
    have own := short (ch, letter) (by simp [table])
    rw [readEscape, Cursor.head_of_rest ahead, own, Cursor.past_cons, Cursor.past_nil]
  · have bound : ch.toNat < 16 ^ 8 := ch.val.toNat_lt
    split_ifs at written with visible byte word
    · exact numbered 'x' 2 (by decide) (by decide) (by omega) (by simpa using written.symm)
    · exact numbered 'u' 4 (by decide) (by decide) (by omega) (by simpa using written.symm)
    · exact numbered 'U' 8 (by decide) (by decide) bound (by simpa using written.symm)

end escape

/-- Something other than a blank or the end comes first. -/
def Firm (rest : List Char) : Prop :=
  isBlankOrEnd (rest.headD endMark) = false

namespace Firm

variable {c : Cursor} {rest : List Char}

theorem of_isPrinted {ch : Char} (printed : isPrinted ch = true) (ink : ch ≠ ' ') : Firm (ch :: rest) := by
  simpa [Firm, isBlankOrEnd_of_isPrinted printed] using ink

theorem ne_nil (firm : Firm rest) : rest ≠ [] := by
  rintro rfl
  rw [Firm] at firm
  exact absurd firm (by decide)

theorem append (firm : Firm rest) (after : List Char) : Firm (rest ++ after) := by
  obtain ⟨ch, more, rfl⟩ := List.exists_cons_of_ne_nil firm.ne_nil
  exact firm

theorem not_isBreak (firm : Firm rest) (ahead : c.rest = rest) : isBreak c.head = false := by
  have none := firm
  rw [Firm, ← Cursor.head_eq ahead] at none
  simp only [isBlankOrEnd, isSpaceOrEnd, isBreakOrEnd, Bool.or_eq_false_iff] at none
  exact none.2.2.2

theorem not_space (firm : Firm rest) : ∀ ch ∈ rest.head?, (ch == ' ' || ch == '\t') = false := by
  intro ch first
  cases rest with
  | nil => exact absurd first (by simp)
  | cons other rest =>
    obtain rfl : other = ch := by simpa using first
    simp only [Firm, List.headD_cons, isBlankOrEnd, isSpaceOrEnd, Bool.or_eq_false_iff] at firm
    simp [firm.1, firm.2.1]

end Firm

/-- Spaces, or none, and then something firm. -/
def Spaced (w : List Char) : Prop :=
  ∃ k w', w = spaces k ++ w' ∧ Firm w'

theorem Firm.spaced {w : List Char} (firm : Firm w) : Spaced w :=
  ⟨0, w, rfl, firm⟩

theorem Spaced.space {w : List Char} (spaced : Spaced w) : Spaced (' ' :: w) := by
  obtain ⟨k, w', rfl, firm⟩ := spaced
  exact ⟨k + 1, w', by simp [spaces, List.replicate_succ], firm⟩

section gap

variable {c : Cursor} {rest : List Char}

def feeds (n : Nat) : List Char :=
  List.replicate n '\n'

theorem all_spaces {k : Nat} : ∀ ch ∈ spaces k, (ch == ' ' || ch == '\t') = true := by
  intro ch mem
  obtain rfl := List.eq_of_mem_replicate mem
  decide

theorem quotedBreaks_feeds {k indent fuel : Nat} (ahead : c.rest = feeds k ++ (spaces indent ++ rest))
    (positive : 0 < indent) (firm : Firm rest) (enough : k < fuel) :
    quotedBreaks fuel c = .ok (feeds k, c.past (feeds k ++ spaces indent)) := by
  induction k generalizing c fuel with
  | zero =>
    obtain ⟨fuel, rfl⟩ := Nat.exists_eq_add_one_of_ne_zero (by omega : fuel ≠ 0)
    have inside : c.atSeparator = false := by
      obtain ⟨indent, rfl⟩ := Nat.exists_eq_add_one_of_ne_zero positive.ne'
      exact c.not_atSeparator (by simp [Cursor.head_eq ahead, feeds, spaces, List.replicate_succ])
    have blanks := Cursor.skipWhile_of_rest (c := c) (w := spaces indent) ahead all_spaces firm.not_space
    have stops := firm.not_isBreak (Cursor.rest_past (c := c) (w := spaces indent) ahead)
    simp [quotedBreaks, inside, blanks, stops, feeds]
  | succ k ih =>
    obtain ⟨fuel, rfl⟩ := Nat.exists_eq_add_one_of_ne_zero (by omega : fuel ≠ 0)
    have feed : c.rest = '\n' :: (feeds k ++ (spaces indent ++ rest)) := ahead
    have inside : c.atSeparator = false := c.not_atSeparator (by simp [Cursor.head_of_rest feed])
    have none : c.skipWhile (fun ch => ch == ' ' || ch == '\t') = c := by
      simpa using Cursor.skipWhile_of_rest (c := c) (w := []) feed (by simp) (by simp)
    have onward := ih (Cursor.next_of_rest feed).1 (by omega : k < fuel)
    simp only [quotedBreaks, inside, none, Cursor.head_of_rest feed, Cursor.lineBreak_of_rest feed, onward]
    rfl

/-- Spaces between words are read as they are. -/
theorem quotedGap_spaces {k : Nat} (ahead : c.rest = spaces k ++ rest) (firm : Firm rest) :
    quotedGap c = .ok (spaces k, c.past (spaces k)) := by
  have more := Cursor.rest_past ahead
  have stops := firm.not_isBreak more
  rw [quotedGap, Cursor.span_of_rest ahead all_spaces firm.not_space]
  simp [more, firm.ne_nil, stops]

/-- Of several line feeds one is lost, and a single one is read as a space. -/
theorem quotedGap_feeds {k indent : Nat} (ahead : c.rest = feeds (k + 1) ++ (spaces indent ++ rest))
    (positive : 0 < indent) (firm : Firm rest) :
    quotedGap c = .ok (foldBreaks ['\n'] (feeds k), c.past (feeds (k + 1) ++ spaces indent)) := by
  have feed : c.rest = '\n' :: (feeds k ++ (spaces indent ++ rest)) := ahead
  have none : c.span (fun ch => ch == ' ' || ch == '\t') = ([], c) := by
    simpa using Cursor.span_of_rest (c := c) (w := []) feed (by simp) (by simp)
  have onward := Cursor.next_of_rest feed
  have enough : k < c.next.fuel := by
    have bound := c.next.rest_length_lt_fuel
    simp only [onward.1, feeds, List.length_append, List.length_replicate] at bound
    omega
  have breaks := quotedBreaks_feeds onward.1 positive firm enough
  rw [quotedGap, none]
  simp only [feed, Cursor.head_of_rest feed, Cursor.lineBreak_of_rest feed, breaks]
  rfl

end gap

theorem quotedRest_gap {double : Bool} {c after : Cursor} {ch : Char} {rest s : List Char} {fuel : Nat}
    (ahead : c.rest = ch :: rest) (blank : isBlankOrEnd ch = true) (gap : quotedGap c = .ok (s, after)) :
    quotedRest double (fuel + 1) c = (do
      let (more, c) ← quotedRest double fuel after
      .ok (Piece.append (some s) more, c)) := by
  simp only [quotedRest, ahead, blank, if_true, gap, bind, Except.bind]

/-- The text `w`, which ends with a quote, is read as `t` inside quotes. -/
def Quoted (double : Bool) (w t : List Char) : Prop :=
  ∀ (c : Cursor) (fuel : Nat) (after : List Char), c.rest = w ++ after → after.head? ≠ some '\'' → w.length ≤ fuel →
    quotedRest double fuel c = .ok (some t, c.past w)

namespace Quoted

variable {double : Bool} {w t : List Char}

theorem single_close : Quoted false ['\''] [] := by
  intro c fuel after ahead apart enough
  obtain ⟨fuel, rfl⟩ := Nat.exists_eq_add_one_of_ne_zero (by simp at enough; omega : fuel ≠ 0)
  have close : c.rest = '\'' :: after := ahead
  have next : (c.peek 1 == '\'') = false := by
    rw [Cursor.peek_one_of_rest close]
    cases after with
    | nil => decide
    | cons ch after => simpa using apart
  simp [quotedRest, ahead, isBlankOrEnd, isSpaceOrEnd, isBreakOrEnd, isBreak, endMark, next, Cursor.past_cons]

theorem double_close : Quoted true ['"'] [] := by
  intro c fuel after ahead apart enough
  obtain ⟨fuel, rfl⟩ := Nat.exists_eq_add_one_of_ne_zero (by simp at enough; omega : fuel ≠ 0)
  simp [quotedRest, ahead, isBlankOrEnd, isSpaceOrEnd, isBreakOrEnd, isBreak, endMark, Cursor.past_cons]

/-- A piece in front of a text that is read in one round. -/
theorem step {v s : List Char} (quoted : Quoted double w t) (nonempty : v ≠ [])
    (round : ∀ (c : Cursor) (fuel : Nat) (after : List Char), c.rest = v ++ (w ++ after) →
      quotedRest double (fuel + 1) c = (do
        let (more, c) ← quotedRest double fuel (c.past v)
        .ok (Piece.append (some s) more, c))) : Quoted double (v ++ w) (s ++ t) := by
  intro c fuel after ahead apart enough
  have positive := List.length_pos_of_ne_nil nonempty
  rw [List.length_append] at enough
  obtain ⟨fuel, rfl⟩ := Nat.exists_eq_add_one_of_ne_zero (by omega : fuel ≠ 0)
  rw [List.append_assoc] at ahead
  rw [round c fuel after ahead, quoted (c.past v) fuel after (Cursor.rest_past ahead) apart (by omega), Cursor.past_append]
  rfl

/-- A character that stands for itself. -/
theorem char (quoted : Quoted double w t) {ch : Char} (printed : isPrinted ch = true) (ink : ch ≠ ' ')
    (inside : if double then ch ≠ '"' ∧ ch ≠ '\\' else ch ≠ '\'') : Quoted double (ch :: w) (ch :: t) := by
  refine quoted.step (v := [ch]) (s := [ch]) (by simp) fun c fuel after ahead => ?_
  have plain : isBlankOrEnd ch = false := by simpa [isBlankOrEnd_of_isPrinted printed] using ink
  cases double with
  | true =>
    simp only [if_true] at inside
    simp [quotedRest, ahead, plain, inside.1, inside.2, Cursor.past_cons]
  | false =>
    have apart : ch ≠ '\'' := inside
    simp [quotedRest, ahead, plain, apart, Cursor.past_cons]

/-- Between single quotes a quote is written twice. -/
theorem single_quote (quoted : Quoted false w t) : Quoted false ('\'' :: '\'' :: w) ('\'' :: t) := by
  refine quoted.step (v := ['\'', '\'']) (s := ['\'']) (by simp) fun c fuel after ahead => ?_
  have next : c.peek 1 = '\'' := Cursor.peek_one_of_rest ahead
  simp [quotedRest, ahead, isBlankOrEnd, isSpaceOrEnd, isBreakOrEnd, isBreak, endMark, next, Cursor.past]

/-- What follows a backslash between double quotes. -/
theorem escaped (quoted : Quoted true w t) {v s : List Char}
    (read : ∀ (c : Cursor) (after : List Char), c.rest = v ++ (w ++ after) →
      readEscape c = .ok (some s, c.past v)) : Quoted true ('\\' :: (v ++ w)) (s ++ t) := by
  refine quoted.step (v := '\\' :: v) (by simp) fun c fuel after ahead => ?_
  have body := read c.next after (Cursor.next_of_rest ahead).1
  simp [quotedRest, ahead, isBlankOrEnd, isSpaceOrEnd, isBreakOrEnd, isBreak, endMark, body, Cursor.past_cons, bind,
    Except.bind]

theorem escape (quoted : Quoted true w t) {ch : Char} {form : List Char} (written : escape? ch = some form) :
    Quoted true (form ++ w) (ch :: t) := by
  obtain ⟨body, rfl⟩ := escape?_shape written
  exact quoted.escaped (s := [ch]) fun c after ahead => readEscape_escape? written ahead

theorem escaped_space (quoted : Quoted true w t) : Quoted true ('\\' :: ' ' :: w) (' ' :: t) := by
  refine quoted.escaped (v := [' ']) (s := [' ']) fun c after ahead => ?_
  have own : escapeReplacements.lookup ' ' = some ' ' := by decide
  rw [readEscape, Cursor.head_of_rest ahead, own, Cursor.past_cons, Cursor.past_nil]

/-- A backslash at the end of a line: what follows on the next line goes on. -/
theorem fold (quoted : Quoted true w t) (firm : Firm w) {indent : Nat} (positive : 0 < indent) :
    Quoted true ('\\' :: (newLine indent ++ w)) t := by
  refine quoted.escaped (s := []) fun c after ahead => ?_
  have feed : c.rest = '\n' :: (spaces indent ++ (w ++ after)) := ahead
  have breaks := quotedBreaks_feeds (k := 0) (Cursor.next_of_rest feed).1 positive (firm.append after)
    (Nat.zero_lt_of_lt c.next.rest_length_lt_fuel)
  have own : escapeReplacements.lookup '\n' = none := by decide
  have wide : escapeWidth? '\n' = none := by decide
  simp only [readEscape, Cursor.head_of_rest feed, own, wide, Cursor.lineBreak_of_rest feed, breaks]
  rfl

/-- A blank in front of a text that is read after what it stands for. -/
theorem gap (quoted : Quoted double w t) {b : Char} {v s : List Char} (blank : isBlankOrEnd b = true)
    (read : ∀ (c : Cursor) (after : List Char), c.rest = b :: v ++ (w ++ after) →
      quotedGap c = .ok (s, c.past (b :: v))) : Quoted double (b :: v ++ w) (s ++ t) := by
  refine quoted.step (by simp) fun c fuel after ahead => ?_
  exact quotedRest_gap ahead blank (read c after ahead)

/-- Line feeds in front of a word. -/
theorem lines (quoted : Quoted double w t) (firm : Firm w) (k : Nat) {indent : Nat} (positive : 0 < indent) :
    Quoted double (feeds (k + 1) ++ (spaces indent ++ w)) (foldBreaks ['\n'] (feeds k) ++ t) := by
  have read := quoted.gap (b := '\n') (v := feeds k ++ spaces indent) (by decide) fun c after ahead =>
    quotedGap_feeds (by simpa [feeds, List.replicate_succ] using ahead) positive (firm.append after)
  simpa [feeds, List.replicate_succ] using read

/-- A single line end in front of a word stands for a space. -/
theorem line (quoted : Quoted double w t) (firm : Firm w) {indent : Nat} (positive : 0 < indent) :
    Quoted double (newLine indent ++ w) (' ' :: t) :=
  quoted.lines firm 0 positive

/-- Several of them stand for one less. -/
theorem more_lines (quoted : Quoted double w t) (firm : Firm w) (k : Nat) {indent : Nat} (positive : 0 < indent) :
    Quoted double (feeds (k + 2) ++ (spaces indent ++ w)) (feeds (k + 1) ++ t) :=
  quoted.lines firm (k + 1) positive

/-- A space in front of spaces and a word. -/
theorem space (quoted : Quoted double w t) (spaced : Spaced w) :
    Quoted double (' ' :: w) (' ' :: t) := by
  obtain ⟨k, w', rfl, firm⟩ := spaced
  cases k with
  | zero =>
    have blank : isBlankOrEnd ' ' = true := by decide
    exact quoted.gap (v := []) (s := [' ']) blank fun c after ahead =>
      quotedGap_spaces (k := 1) ahead (firm.append after)
  | succ k =>
    -- the spaces are read in one round, so the round that `quoted` speaks of is taken apart
    intro c fuel after ahead apart enough
    rw [List.length_cons] at enough
    obtain ⟨fuel, rfl⟩ := Nat.exists_eq_add_one_of_ne_zero (by omega : fuel ≠ 0)
    have more : c.next.rest = spaces (k + 1) ++ w' ++ after := (Cursor.next_of_rest ahead).1
    have round := quoted c.next (fuel + 1) after more apart (by omega)
    rw [List.append_assoc] at more
    rw [quotedRest_gap more (by decide) (quotedGap_spaces more (firm.append after))] at round
    obtain ⟨⟨rest, last⟩, ran, result⟩ := bind_eq_ok round
    have whole : c.rest = spaces (k + 2) ++ (w' ++ after) := by rw [ahead]; simp [spaces, List.replicate_succ]
    rw [quotedRest_gap whole (by decide) (quotedGap_spaces whole (firm.append after))]
    rw [spaces, List.replicate_succ, Cursor.past_cons, ← spaces, ran]
    cases rest with
    | none => exact absurd result (by simp [Piece.append])
    | some rest =>
      obtain ⟨rfl, rfl⟩ : spaces (k + 1) ++ rest = t ∧ last = c.next.past (spaces (k + 1) ++ w') := by
        simpa [Piece.append] using result
      simp [Piece.append, Cursor.past_cons, bind, Except.bind]

end Quoted

theorem hasPair_cons {a b c : Char} {s : List Char} (none : hasPair a b (c :: s) = false) :
    (c = a → s.head? ≠ some b) ∧ hasPair a b s = false := by
  cases s with
  | nil => simp [hasPair]
  | cons d s =>
    simp only [hasPair, Bool.or_eq_false_iff, Bool.and_eq_false_iff, beq_eq_false_iff_ne] at none
    refine ⟨fun first => ?_, none.2⟩
    simpa using none.1.resolve_left (not_not.2 first)

theorem hasPair_append {a b : Char} {s t : List Char} (none : hasPair a b (s ++ t) = false) : hasPair a b t = false := by
  induction s with
  | nil => exact none
  | cons c s ih => exact ih (hasPair_cons none).2

section single

variable {indent column : Nat} {before : Char} {s : List Char}

theorem isPrinted_of_isVisible {c : Char} (visible : isVisible c = true) (apart : c ≠ '\n') : isPrinted c = true := by
  simp only [isVisible, Bool.or_eq_true, beq_iff_eq] at visible
  exact visible.resolve_left apart

/-- A run of line feeds is written with one more, unless a line feed came before it. -/
theorem writeSingle_feeds (indent column k : Nat) (before : Char) {s : List Char} (stops : s.head? ≠ some '\n') :
    writeSingle indent before column (feeds (k + 1) ++ s) =
      (if before = '\n' then [] else ['\n']) ++
        (feeds (k + 1) ++ (spaces indent ++ writeSingle indent '\n' indent s)) := by
  induction k generalizing before column with
  | zero => simp [feeds, writeSingle, stops, newLine, spaces]
  | succ k ih =>
    rw [feeds, List.replicate_succ, List.cons_append, ← feeds, writeSingle]
    have goesOn : (feeds (k + 1) ++ s).head? = some '\n' := rfl
    rw [if_pos rfl, if_pos goesOn, ih, if_pos rfl, List.nil_append, List.cons_append]

/-- No blank stands in front of what is written for a text that starts with none. -/
theorem firm_writeSingle (visible : ∀ c ∈ s, isVisible c = true) (word : s.head? ≠ some ' ')
    (inline : s.head? ≠ some '\n') : Firm (writeSingle indent before column s ++ ['\'']) := by
  cases s with
  | nil => exact .of_isPrinted (by decide) (by decide)
  | cons c s =>
    have ink : c ≠ ' ' := by simpa using word
    have feed : c ≠ '\n' := by simpa using inline
    rw [writeSingle, if_neg feed]
    by_cases quote : c = '\''
    · rw [if_pos quote]
      exact .of_isPrinted (by decide) (by decide)
    · rw [if_neg quote, if_neg fun fold => ink fold.1]
      exact .of_isPrinted (isPrinted_of_isVisible (visible c (by simp)) feed) ink

/-- After a space come more spaces or something firm. -/
theorem spaced_writeSingle (visible : ∀ c ∈ s, isVisible c = true) (apart : hasPair ' ' '\n' (' ' :: s) = false) :
    Spaced (writeSingle indent ' ' column s ++ ['\'']) := by
  induction s generalizing column with
  | nil => exact (firm_writeSingle (by simp) (by simp) (by simp)).spaced
  | cons c s ih =>
    have ⟨inline, later⟩ := hasPair_cons apart
    by_cases space : c = ' '
    · subst space
      rw [writeSingle, if_neg (by decide), if_neg (by decide), if_neg (by simp)]
      exact (ih (fun d mem => visible d (by simp [mem])) later).space
    · exact (firm_writeSingle visible (by simpa using space) (inline rfl)).spaced

theorem exists_feeds (s : List Char) : ∃ k s', s = feeds k ++ s' ∧ s'.head? ≠ some '\n' := by
  induction s with
  | nil => exact ⟨0, [], rfl, by simp⟩
  | cons c s ih =>
    by_cases feed : c = '\n'
    · obtain ⟨k, s', rfl, stops⟩ := ih
      exact ⟨k + 1, s', by simp [feed, feeds, List.replicate_succ], stops⟩
    · exact ⟨0, c :: s, rfl, by simpa using feed⟩

/-- The text between single quotes is read back. -/
theorem quoted_writeSingle (positive : 0 < indent) (visible : ∀ c ∈ s, isVisible c = true)
    (ends : hasPair ' ' '\n' s = false) (starts : hasPair '\n' ' ' s = false)
    (fresh : before = '\n' → s.head? ≠ some '\n') :
    Quoted false (writeSingle indent before column s ++ ['\'']) s := by
  -- By the length, since a run of line feeds is written as a whole and takes off several characters.
  induction size : s.length using Nat.strong_induction_on generalizing s before column with
  | _ size ih =>
  subst size
  obtain ⟨k, s', rfl, stops⟩ := exists_feeds s
  cases k with
  | succ k =>
    have apart : before ≠ '\n' := fun feed => fresh feed rfl
    have shown : ∀ c ∈ s', isVisible c = true := fun c mem => visible c (by simp [mem])
    have word : s'.head? ≠ some ' ' := by
      have run : feeds (k + 1) ++ s' = feeds k ++ '\n' :: s' := by simp [feeds, List.replicate_succ']
      rw [run] at starts
      exact (hasPair_cons (hasPair_append starts)).1 rfl
    have inner (column : Nat) : Quoted false (writeSingle indent '\n' column s' ++ ['\'']) s' :=
      ih _ (by simp [feeds]) shown (hasPair_append ends) (hasPair_append starts) (fun _ => stops) rfl
    have firm (column : Nat) : Firm (writeSingle indent '\n' column s' ++ ['\'']) := firm_writeSingle shown word stops
    rw [writeSingle_feeds indent column k before stops, if_neg apart]
    simpa [feeds, List.replicate_succ] using (inner indent).more_lines (firm indent) k positive
  | zero =>
    cases s' with
    | nil => exact .single_close
    | cons c s =>
      have inline : c ≠ '\n' := by simpa using stops
      have shown : ∀ d ∈ s, isVisible d = true := fun d mem => visible d (by simp [mem])
      have inner (column : Nat) : Quoted false (writeSingle indent c column s ++ ['\'']) s :=
        ih _ (by simp [feeds]) shown (hasPair_cons ends).2 (hasPair_cons starts).2 (fun feed => absurd feed inline) rfl
      change Quoted false (writeSingle indent before column (c :: s) ++ ['\'']) (c :: s)
      rw [writeSingle, if_neg inline]
      by_cases quote : c = '\''
      · subst quote
        exact (inner (column + 2)).single_quote
      by_cases space : c = ' '
      · subst space
        rw [if_neg quote]
        by_cases fold : before ≠ ' ' ∧ before ≠ endMark ∧ s ≠ [] ∧ s.head? ≠ some ' ' ∧ lineWidth < column
        · -- The space becomes a line end, which the reader folds back because a word follows.
          have firm : Firm (writeSingle indent ' ' indent s ++ ['\'']) :=
            firm_writeSingle shown fold.2.2.2.1 ((hasPair_cons ends).1 rfl)
          rw [if_pos ⟨rfl, fold⟩, List.append_assoc]
          exact (inner indent).line firm positive
        · rw [if_neg fun both => fold both.2]
          exact (inner (column + 1)).space (spaced_writeSingle shown ends)
      · rw [if_neg quote, if_neg fun fold => space fold.1]
        exact (inner (column + 1)).char (isPrinted_of_isVisible (visible c (by simp)) inline) space quote

end single

section double

variable {indent column : Nat} {first afterEscape : Bool} {s : List Char}

/-- What has no escape stands for itself between double quotes. -/
theorem isPrinted_of_escape? {c : Char} (none : escape? c = none) : isPrinted c = true ∧ c ≠ '"' ∧ c ≠ '\\' := by
  have apart (d : Char) (own : escape? d ≠ Option.none) : c ≠ d := by
    rintro rfl
    exact own none
  refine ⟨?_, apart '"' (by decide), apart '\\' (by decide)⟩
  rw [escape?] at none
  split at none
  · exact absurd none (by simp)
  · split_ifs at none with visible
    simpa [isPrinted] using visible

theorem firm_backslash (w : List Char) : Firm ('\\' :: w) :=
  .of_isPrinted (by decide) (by decide)

/-- What is written for a character starts with a backslash, unless it is the character itself. -/
theorem writeDouble_cons (indent column : Nat) (first afterEscape : Bool) (c : Char) (rest : List Char) :
    (∃ w, writeDouble indent first afterEscape column (c :: rest) = '\\' :: w) ∨
      (escape? c = none ∧ ∃ column', writeDouble indent first afterEscape column (c :: rest) =
        c :: writeDouble indent false false column' rest) := by
  rw [writeDouble]
  cases written : escape? c with
  | some form =>
    obtain ⟨body, rfl⟩ := escape?_shape written
    left
    simp only
    split <;> exact ⟨_, rfl⟩
  | none =>
    simp only
    split
    · exact .inl ⟨_, rfl⟩
    · exact .inr ⟨trivial, _, rfl⟩

theorem spaced_writeDouble : Spaced (writeDouble indent first afterEscape column s ++ ['"']) := by
  induction s generalizing first afterEscape column with
  | nil => exact (Firm.of_isPrinted (by decide) (by decide)).spaced
  | cons c rest ih =>
    obtain ⟨w, written⟩ | ⟨plain, column', written⟩ := writeDouble_cons indent column first afterEscape c rest
    · rw [written]
      exact (firm_backslash _).spaced
    · rw [written]
      by_cases space : c = ' '
      · subst space
        exact ih.space
      · exact (Firm.of_isPrinted (isPrinted_of_escape? plain).1 space).spaced

theorem firm_writeDouble (word : s.head? ≠ some ' ') : Firm (writeDouble indent first afterEscape column s ++ ['"']) := by
  cases s with
  | nil => exact .of_isPrinted (by decide) (by decide)
  | cons c rest =>
    obtain ⟨w, written⟩ | ⟨plain, column', written⟩ := writeDouble_cons indent column first afterEscape c rest
    · rw [written]
      exact firm_backslash _
    · rw [written]
      exact .of_isPrinted (isPrinted_of_escape? plain).1 (by simpa using word)

/-- The text between double quotes is read back, also behind the backslash that marks a space at the
start of a line. -/
theorem quoted_writeDouble_both (positive : 0 < indent) (narrow : indent < lineWidth) :
    Quoted true (writeDouble indent first afterEscape column s ++ ['"']) s ∧
      (s.head? = some ' ' → column ≤ lineWidth →
        Quoted true ('\\' :: (writeDouble indent first afterEscape column s ++ ['"'])) s) := by
  -- Both at once: where the rest goes on with a space on a new line, the first part is read by the second of the rest.
  induction s generalizing first afterEscape column with
  | nil => exact ⟨.double_close, fun space => absurd space (by simp)⟩
  | cons c rest ih =>
    have inner (first afterEscape : Bool) (column : Nat) :
        Quoted true (writeDouble indent first afterEscape column rest ++ ['"']) rest :=
      ih.1
    rw [writeDouble]
    cases written : escape? c with
    | some form =>
      refine ⟨?_, fun space => ?_⟩
      · simp only
        split
        · have folded : Quoted true ('\\' :: (newLine indent ++ ((if rest.head? = some ' ' then ['\\'] else []) ++
              (writeDouble indent false true (indent + (if rest.head? = some ' ' then ['\\'] else []).length) rest ++
                ['"'])))) rest := by
            by_cases space : rest.head? = some ' '
            · rw [if_pos space]
              exact (ih.2 space narrow).fold (firm_backslash _) positive
            · rw [if_neg space]
              exact (inner _ _ _).fold (firm_writeDouble space) positive
          simpa only [List.append_assoc, List.cons_append] using folded.escape written
        · rw [List.append_assoc]
          exact (inner _ _ _).escape written
      · obtain rfl : c = ' ' := by simpa using space
        have plain : escape? ' ' = none := by decide
        exact absurd (plain.symm.trans written) (by simp)
    | none =>
      have ⟨printed, quote, backslash⟩ := isPrinted_of_escape? written
      have word (apart : c ≠ ' ') (column : Nat) :
          Quoted true (c :: (writeDouble indent false false column rest ++ ['"'])) (c :: rest) :=
        (inner _ _ _).char printed apart ⟨quote, backslash⟩
      refine ⟨?_, fun space narrowColumn => ?_⟩
      · simp only
        split
        · by_cases space : c = ' '
          · subst space
            have marked := (inner false false (indent + 1 + 1)).escaped_space
            simpa using marked.fold (firm_backslash _) positive
          · have plain := word space (indent + 0 + 1)
            simpa [space] using plain.fold (.of_isPrinted printed space) positive
        · by_cases space : c = ' '
          · subst space
            exact (inner _ _ _).space spaced_writeDouble
          · exact word space _
      · obtain rfl : c = ' ' := by simpa using space
        simp only
        rw [if_neg (by simp [Nat.not_lt.2 narrowColumn])]
        exact (inner _ _ _).escaped_space

/-- The text between double quotes is read back. -/
theorem quoted_writeDouble (positive : 0 < indent) (narrow : indent < lineWidth) :
    Quoted true (writeDouble indent first afterEscape column s ++ ['"']) s :=
  (quoted_writeDouble_both positive narrow).1

end double

/-- A quoted scalar is read from its opening quote to its closing one. -/
theorem readQuoted_of_quoted {double : Bool} {w t after : List Char} (quoted : Quoted double w t) {c : Cursor}
    (ahead : c.rest = (if double then '"' else '\'') :: (w ++ after)) (apart : after.head? ≠ some '\'') :
    readQuoted c = .ok (some t, c.past ((if double then '"' else '\'') :: w)) := by
  have more := (Cursor.next_of_rest ahead).1
  have enough : w.length ≤ c.fuel := by
    have bound := c.rest_length_lt_fuel
    simp only [ahead, List.length_cons, List.length_append] at bound
    omega
  have mark : (c.head == '"') = double := by
    rw [Cursor.head_of_rest ahead]
    cases double <;> rfl
  rw [readQuoted, mark, quoted c.next c.fuel after more apart enough, Cursor.past_cons]

end AgentConfig.Yaml
