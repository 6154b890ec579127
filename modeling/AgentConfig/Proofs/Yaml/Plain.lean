import AgentConfig.Proofs.Yaml.Cursor
import AgentConfig.Yaml.Token

namespace AgentConfig.Yaml

theorem isPrinted_of_isNameChar {c : Char} (name : isNameChar c = true) : isPrinted c = true := by
  have between (a b : Char) (low : isPrinted a = true) (high : isPrinted b = true) (above : a ≤ c) (below : c ≤ b) :
      isPrinted c = true := by
    simp only [isPrinted, Bool.and_eq_true, decide_eq_true_eq] at low high ⊢
    exact ⟨Char.le_trans low.1 above, Char.le_trans below high.2⟩
  simp only [isNameChar, isDigit, Bool.or_eq_true, Bool.and_eq_true, decide_eq_true_eq, beq_iff_eq] at name
  obtain (((digit | lower) | upper) | dash) | low := name
  · exact between '0' '9' (by decide) (by decide) digit.1 digit.2
  · exact between 'a' 'z' (by decide) (by decide) lower.1 lower.2
  · exact between 'A' 'Z' (by decide) (by decide) upper.1 upper.2
  · rw [dash]
    decide
  · rw [low]
    decide

/-- Neither a space nor a line break comes first. -/
def Inked (rest : List Char) : Prop :=
  rest.headD endMark ≠ ' ' ∧ isBreak (rest.headD endMark) = false

namespace Inked

variable {c : Cursor} {rest : List Char}

theorem head (inked : Inked rest) (ahead : c.rest = rest) : (c.head == ' ') = false ∧ isBreak c.head = false := by
  rw [Cursor.head_eq ahead]
  exact ⟨beq_eq_false_iff_ne.2 inked.1, inked.2⟩

theorem head?_ne (inked : Inked rest) : rest.head? ≠ some ' ' := by
  cases rest with
  | nil => simp
  | cons c rest => simpa using inked.1

theorem of_isPrinted {ch : Char} (printed : isPrinted ch = true) (ink : ch ≠ ' ') : Inked (ch :: rest) :=
  ⟨ink, isBreak_of_isPrinted printed⟩

end Inked

/-- What may stand at the start of a line of a block: nothing more, a dash before a space, or a word. -/
def Onset (after : List Char) : Prop :=
  after = [] ∨ (∃ rest, after = '-' :: ' ' :: rest) ∨ ∃ ch rest, after = ch :: rest ∧ isNameChar ch = true ∧ ch ≠ '-'

namespace Onset

variable {after : List Char}

theorem inked (onset : Onset after) : Inked after := by
  obtain rfl | ⟨rest, rfl⟩ | ⟨ch, rest, rfl, name, apart⟩ := onset
  · simp [Inked, endMark, isBreak]
  · simp [Inked, isBreak]
  · refine .of_isPrinted (isPrinted_of_isNameChar name) ?_
    rintro rfl
    exact absurd name (by decide)

/-- No document ends at the start of such a line. -/
theorem not_atSeparator (onset : Onset after) {c : Cursor} (k : Nat) (ahead : c.rest = spaces k ++ after) :
    c.atSeparator = false := by
  cases k with
  | succ k => exact c.not_atSeparator (by simp [Cursor.head_eq ahead, spaces, List.replicate_succ])
  | zero =>
    obtain rfl | ⟨rest, rfl⟩ | ⟨ch, rest, rfl, name, apart⟩ := onset
    · exact c.not_atSeparator (by rw [Cursor.head_eq ahead]; decide)
    · simp [Cursor.atSeparator, Cursor.atMarks, Cursor.peek, ahead, spaces]
    · have point : ch ≠ '.' := by
        rintro rfl
        exact absurd name (by decide)
      exact c.not_atSeparator (by simp [Cursor.head_eq ahead, spaces, apart, point])

end Onset

/-- A word of a plain scalar: no spaces, and no colon at its end. -/
structure IsWord (w : List Char) : Prop where
  nonempty : w ≠ []
  printed : ∀ c ∈ w, isPrinted c = true ∧ c ≠ ' '
  last : w.getLast? ≠ some ':'

/-- Words with spaces between them, none after the first with a number sign in front. -/
inductive Words : List Char → Prop
  | word {w} : IsWord w → Words w
  | more {w s} (k : Nat) : IsWord w → s.head? ≠ some '#' → Words s → Words (w ++ (spaces (k + 1) ++ s))

theorem plainWord_of_blank {rest : List Char} (stops : isBlankOrEnd (rest.headD endMark) = true) :
    plainWord false rest = [] := by
  cases rest with
  | nil => rfl
  | cons ch rest =>
    have blank : isBlankOrEnd ch = true := stops
    simp [plainWord, endsPlain, blank]

theorem plainWord_append {w rest : List Char} (printed : ∀ c ∈ w, isPrinted c = true ∧ c ≠ ' ')
    (last : w.getLast? ≠ some ':') (stops : plainWord false rest = []) : plainWord false (w ++ rest) = w := by
  induction w with
  | nil => exact stops
  | cons ch w ih =>
    have ⟨here, ink⟩ := printed ch (by simp)
    have blank : isBlankOrEnd ch = false := by simp [isBlankOrEnd_of_isPrinted here, ink]
    rw [List.cons_append, plainWord]
    cases w with
    | nil =>
      have other : ch ≠ ':' := by
        rintro rfl
        exact last rfl
      simp [endsPlain, blank, other, stops]
    | cons next w =>
      have ⟨printedNext, inkNext⟩ := printed next (by simp)
      have onward := ih (fun other mem => printed other (by simp [mem])) (by simpa using last)
      simp only [endsPlain, blank, List.cons_append, List.headD_cons, isBlankOrEnd_of_isPrinted printedNext,
        beq_eq_false_iff_ne.2 inkNext, Bool.and_false, Bool.false_and, Bool.or_false, Bool.false_eq_true, if_false]
      exact congrArg (ch :: ·) onward

namespace Words

variable {s : List Char}

theorem cons {c : Char} (printed : isPrinted c = true) (ink : c ≠ ' ') (words : Words s) : Words (c :: s) := by
  have longer {w : List Char} (word : IsWord w) : IsWord (c :: w) := by
    refine ⟨by simp, fun d mem => ?_, ?_⟩
    · obtain rfl | mem := List.mem_cons.1 mem
      · exact ⟨printed, ink⟩
      · exact word.printed d mem
    · rw [List.getLast?_cons, List.getLast?_eq_some_getLast word.nonempty]
      simpa [List.getLast?_eq_some_getLast word.nonempty] using word.last
  cases words with
  | word word => exact .word (longer word)
  | more k word unmarked rest => exact .more k (longer word) unmarked rest

theorem head (words : Words s) : ∃ c rest, s = c :: rest ∧ isPrinted c = true ∧ c ≠ ' ' := by
  have first {w : List Char} (word : IsWord w) (more : List Char) :
      ∃ c rest, w ++ more = c :: rest ∧ isPrinted c = true ∧ c ≠ ' ' := by
    obtain ⟨c, rest, rfl⟩ := List.exists_cons_of_ne_nil word.nonempty
    exact ⟨c, rest ++ more, rfl, word.printed c (by simp)⟩
  cases words with
  | word word => simpa using first word []
  | more k word _ _ => exact first word _

/-- What does not break a plain scalar consists of words. The induction takes off one character, so it
speaks of the spaces in front as well and of what stood before them. -/
theorem exists_of_breaksPlain {before : Char} (nonempty : s ≠ []) (printed : ∀ c ∈ s, isPrinted c = true)
    (ends : s.getLast? ≠ some ' ') (fine : breaksPlain before s = false) :
    ∃ k s', s = spaces k ++ s' ∧ Words s' ∧ (isBlankOrEnd before = true ∨ 0 < k → s'.head? ≠ some '#') := by
  induction s generalizing before with
  | nil => exact absurd rfl nonempty
  | cons c rest ih =>
    have here := printed c (by simp)
    simp only [breaksPlain, Bool.or_eq_false_iff, Bool.and_eq_false_iff, beq_eq_false_iff_ne] at fine
    obtain ⟨⟨colon, mark⟩, later⟩ := fine
    have lone (blank : isBlankOrEnd (rest.headD endMark) = true) (ink : c ≠ ' ') : IsWord [c] :=
      ⟨by simp, by simpa using ⟨here, ink⟩, by simpa using colon.resolve_right (by simp only [blank]; decide)⟩
    have unmarked (k : Nat) (none : ¬ 0 < k) (more : List Char) :
        isBlankOrEnd before = true ∨ 0 < k → (c :: more).head? ≠ some '#' := by
      rintro (blank | some)
      · simpa [blank] using mark
      · exact absurd some none
    cases rest with
    | nil => exact ⟨0, [c], rfl, .word (lone (by decide) (by simpa using ends)), unmarked 0 (by simp) []⟩
    | cons d rest =>
      have ⟨k, s', cut, words, apart⟩ := ih (by simp) (fun e mem => printed e (by simp [mem])) (by simpa using ends) later
      by_cases ink : c = ' '
      · subst ink
        exact ⟨k + 1, s', by simp [cut, spaces, List.replicate_succ], words, fun _ => apart (.inl (by decide))⟩
      · cases k with
        | zero => exact ⟨0, c :: s', by simp [cut, spaces], words.cons here ink, unmarked 0 (by simp) s'⟩
        | succ k =>
          have word := lone (by rw [cut]; rfl) ink
          exact ⟨0, [c] ++ (spaces (k + 1) ++ s'), by simp [cut, spaces], .more k word (apart (.inr k.succ_pos)) words,
            unmarked 0 (by simp) _⟩

/-- A text that may stand without quotes consists of words. -/
theorem of_allowsPlain (nonempty : s ≠ []) (allowed : allowsPlain s = true) : Words s ∧ s.head? ≠ some '#' := by
  obtain ⟨c, rest, rfl⟩ := List.exists_cons_of_ne_nil nonempty
  simp only [allowsPlain, Bool.and_eq_true, Bool.not_eq_true', List.headD_cons, List.drop_one, List.tail_cons] at allowed
  obtain ⟨⟨⟨visible, unmarked⟩, edges⟩, fine⟩ := allowed
  have printed : ∀ d ∈ c :: rest, isPrinted d = true := by
    intro d mem
    have shown := List.all_eq_true.1 visible d mem
    simp only [isVisible, Bool.and_eq_true, Bool.or_eq_true, beq_iff_eq, bne_iff_ne] at shown
    simpa [isPrinted] using shown.1.resolve_left shown.2
  simp only [hasSpaceAtEnd, Bool.or_eq_false_iff, beq_eq_false_iff_ne] at edges
  simp only [startsWithMark, Bool.or_eq_false_iff, Bool.and_eq_false_iff] at unmarked
  have colon : (c == ':' && isBlankOrEnd (rest.headD endMark)) = false := by
    by_cases first : c = ':'
    · subst first
      simpa using unmarked.1.1.2
    · simp [first]
  have apart : c ≠ '#' := by
    rintro rfl
    exact absurd unmarked.1.1.1 (by decide)
  -- The first character has been looked at, so any letter may stand in front of the text.
  have whole : breaksPlain 'a' (c :: rest) = false := by
    simp only [breaksPlain, colon, fine, Bool.or_false, Bool.false_or]
    simp [apart]
  obtain ⟨k, s', cut, words, -⟩ := exists_of_breaksPlain (by simp) printed edges.2.1 whole
  cases k with
  | zero =>
    have same : c :: rest = s' := by simpa [spaces] using cut
    rw [same]
    exact ⟨words, by simpa [← same] using apart⟩
  | succ k =>
    rw [spaces, List.replicate_succ, List.cons_append] at cut
    exact absurd (by rw [cut]; rfl) edges.1.1

end Words

theorem writePlain_word {w : List Char} (indent : Nat) (afterSpace : Bool) (column : Nat) (s : List Char) (nonempty : w ≠ []) (ink : ∀ c ∈ w, c ≠ ' ') :
    writePlain indent afterSpace column (w ++ s) = w ++ writePlain indent false (column + w.length) s := by
  induction w generalizing afterSpace column with
  | nil => exact absurd rfl nonempty
  | cons c w ih =>
    have here := ink c (by simp)
    rw [List.cons_append, writePlain, if_neg (fun fold => here fold.1)]
    have plain : (c == ' ') = false := beq_eq_false_iff_ne.2 here
    cases w with
    | nil => simp [plain]
    | cons d w =>
      rw [ih _ _ (by simp) fun e mem => ink e (by simp [mem]), List.length_cons (a := c)]
      simp [Nat.add_assoc, Nat.add_comm 1]

theorem writePlain_spaces (indent column k : Nat) (s : List Char) :
    writePlain indent true column (spaces k ++ s) = spaces k ++ writePlain indent true (column + k) s := by
  induction k generalizing column with
  | zero => rfl
  | succ k ih =>
    rw [spaces, List.replicate_succ, List.cons_append, writePlain, if_neg (by simp)]
    have onward := ih (column + 1)
    rw [spaces] at onward
    rw [show (' ' == ' ') = true from rfl, onward]
    simp [Nat.add_assoc, Nat.add_comm 1]

theorem length_le_writePlain (indent : Nat) (afterSpace : Bool) (column : Nat) (s : List Char) :
    s.length ≤ (writePlain indent afterSpace column s).length := by
  induction s generalizing afterSpace column with
  | nil => simp
  | cons c rest ih =>
    rw [writePlain]
    split
    · have shorter := ih true indent
      simp
      omega
    · have shorter := ih (c == ' ') (column + 1)
      simpa using shorter

/-- Between two words stand their spaces, or the start of a new line in place of a single one. -/
theorem writePlain_gap (indent column k : Nat) {s : List Char} (starts : s.head? ≠ some ' ') :
    ∃ gap column', writePlain indent false column (spaces (k + 1) ++ s) = gap ++ writePlain indent true column' s ∧
      (gap = spaces (k + 1) ∨ k = 0 ∧ gap = newLine indent) := by
  by_cases fold : k = 0 ∧ lineWidth < column
  · obtain ⟨rfl, past⟩ := fold
    refine ⟨newLine indent, indent, ?_, .inr ⟨rfl, rfl⟩⟩
    simp [spaces, writePlain, starts, past]
  · refine ⟨spaces (k + 1), column + 1 + k, ?_, .inl rfl⟩
    rw [spaces, List.replicate_succ, List.cons_append, writePlain]
    have kept : ¬ (' ' = ' ' ∧ (!false) = true ∧ (List.replicate k ' ' ++ s).head? ≠ some ' ' ∧ lineWidth < column) := by
      rintro ⟨-, -, single, past⟩
      cases k with
      | zero => exact fold ⟨rfl, past⟩
      | succ k => simp [List.replicate_succ] at single
    have onward := writePlain_spaces indent (column + 1) k s
    rw [spaces] at onward
    rw [if_neg kept, show (' ' == ' ') = true from rfl, onward]
    simp

section gap

variable {c : Cursor} {rest : List Char}

theorem plainBreaks_spaces {k fuel : Nat} (ahead : c.rest = spaces k ++ rest) (enough : k < fuel) (stops : Inked rest) :
    plainBreaks fuel c = (some [], c.past (spaces k)) := by
  induction k generalizing c fuel with
  | zero =>
    obtain ⟨fuel, rfl⟩ := Nat.exists_eq_add_one_of_ne_zero (by omega : fuel ≠ 0)
    have here := stops.head (c := c) ahead
    simp [plainBreaks, here, spaces]
  | succ k ih =>
    obtain ⟨fuel, rfl⟩ := Nat.exists_eq_add_one_of_ne_zero (by omega : fuel ≠ 0)
    rw [spaces, List.replicate_succ, List.cons_append] at ahead
    have onward := ih (Cursor.next_of_rest ahead).1 (by omega : k < fuel)
    rw [plainBreaks, Cursor.head_of_rest ahead, if_pos (by rfl), onward, spaces, spaces, List.replicate_succ, Cursor.past_cons]

/-- Spaces before a word are read as they are. -/
theorem plainGap_spaces {k : Nat} (ahead : c.rest = spaces k ++ rest) (stops : Inked rest) :
    plainGap c = (spaces k, false, c.past (spaces k)) := by
  have run : c.span (· == ' ') = (spaces k, c.past (spaces k)) := by
    refine Cursor.span_of_rest ahead (fun ch mem => ?_) fun ch first => ?_
    · simpa [spaces] using List.eq_of_mem_replicate mem
    · have other := stops.head?_ne
      rw [Option.mem_def.1 first] at other
      simpa using other
  have here := stops.head (Cursor.rest_past ahead)
  rw [plainGap, run]
  simp [here]

/-- The start of a new line is read as a space. -/
theorem plainGap_newLine {k : Nat} (ahead : c.rest = newLine k ++ rest) (inside : c.next.atSeparator = false)
    (stops : Inked rest) : plainGap c = ([' '], true, c.past (newLine k)) := by
  have none : c.span (· == ' ') = ([], c) := by
    have run := Cursor.span_of_rest (c := c) (w := []) (p := (· == ' ')) ahead (by simp) (by simp)
    simpa using run
  have feed : c.head = '\n' := Cursor.head_of_rest ahead
  have onward := Cursor.next_of_rest ahead
  have enough : k < c.next.fuel := by
    have bound := c.next.rest_length_lt_fuel
    rw [onward.1] at bound
    simp at bound
    omega
  rw [plainGap, none]
  simp [feed, isBreak, Cursor.lineBreak_of_rest ahead, inside, plainBreaks_spaces onward.1 enough stops, foldBreaks,
    spaces, newLine, Cursor.past_cons]

end gap

/-- The gap that is written between two words is read as the spaces that it stands for. -/
theorem plainGap_writePlain {s rest : List Char} (words : Words s) {k indent least column : Nat} {c : Cursor}
    (ahead : c.rest = writePlain indent false column (spaces (k + 1) ++ s) ++ rest) (deep : least ≤ indent)
    (positive : 0 < indent) (inside : least ≤ c.column) :
    ∃ gap column' broke, writePlain indent false column (spaces (k + 1) ++ s) = gap ++ writePlain indent true column' s ∧
      (∀ after, isBlankOrEnd ((gap ++ after).headD endMark) = true) ∧
        plainGap c = (spaces (k + 1), broke, c.past gap) ∧ least ≤ (c.past gap).column := by
  obtain ⟨ch, tail, rfl, printed, ink⟩ := words.head
  obtain ⟨gap, column', written, form⟩ :=
    writePlain_gap indent column k (by simpa using ink : (ch :: tail).head? ≠ some ' ')
  rw [written, List.append_assoc] at ahead
  have starts : Inked (writePlain indent true column' (ch :: tail) ++ rest) := by
    rw [writePlain, if_neg (fun fold => ink fold.1)]
    exact .of_isPrinted printed ink
  obtain rfl | ⟨rfl, rfl⟩ := form
  · refine ⟨_, column', false, written, fun _ => rfl, plainGap_spaces ahead starts, ?_⟩
    have onward := Cursor.column_past ahead fun d mem => by
      obtain rfl := List.eq_of_mem_replicate mem
      decide
    omega
  · have apart : c.next.atSeparator = false := by
      have more : c.next.rest = spaces indent ++ (writePlain indent true column' (ch :: tail) ++ rest) :=
        (Cursor.next_of_rest ahead).1
      obtain ⟨indent, rfl⟩ := Nat.exists_eq_add_one_of_ne_zero positive.ne'
      exact c.next.not_atSeparator (by simp [Cursor.head_eq more, spaces, List.replicate_succ])
    refine ⟨_, column', true, written, fun _ => rfl, plainGap_newLine ahead apart starts, ?_⟩
    rw [Cursor.column_past_newLine ahead]
    exact deep

/-- The words of a plain scalar are read back, with the start of the line that follows it. -/
theorem plainWords_writePlain {s after : List Char} (words : Words s) (unmarked : s.head? ≠ some '#')
    (gap : List Char) (broke : Bool) {indent least next column fuel : Nat} {afterSpace : Bool} {c : Cursor}
    (ahead : c.rest = writePlain indent afterSpace column s ++ (newLine next ++ after)) (deep : least ≤ indent)
    (positive : 0 < indent) (inside : least ≤ c.column) (outside : next < least) (onset : Onset after)
    (enough : s.length < fuel) :
    plainWords false least fuel gap broke c =
      { text := gap ++ s, brokeLine := true,
        after := c.past (writePlain indent afterSpace column s ++ newLine next) } := by
  induction words generalizing c gap afterSpace broke column fuel with
  | @word w word =>
    have written : writePlain indent afterSpace column w = w := by
      simpa [writePlain] using
        writePlain_word indent afterSpace column [] word.nonempty fun d mem => (word.printed d mem).2
    obtain ⟨fuel, rfl⟩ := Nat.exists_eq_add_one_of_ne_zero (by omega : fuel ≠ 0)
    rw [written] at ahead ⊢
    have more := Cursor.rest_past ahead
    have taken : plainWord false c.rest = w := by
      rw [ahead]
      exact plainWord_append word.printed word.last (plainWord_of_blank rfl)
    have ends := plainGap_newLine more (onset.not_atSeparator next (Cursor.next_of_rest more).1) onset.inked
    have column := Cursor.column_past_newLine more
    have first := Cursor.head_ne_of_rest ahead word.nonempty unmarked
    rw [plainWords, taken, first, ← Cursor.past, ends]
    simp [word.nonempty, column, outside, Cursor.past_append]
  | @more w s k word unmarkedRest words ih =>
    obtain ⟨fuel, rfl⟩ := Nat.exists_eq_add_one_of_ne_zero (by omega : fuel ≠ 0)
    rw [writePlain_word _ _ _ _ word.nonempty fun d mem => (word.printed d mem).2, List.append_assoc] at ahead ⊢
    have more := Cursor.rest_past ahead
    have here := (Cursor.column_past ahead fun d mem => (word.printed d mem).1).1
    obtain ⟨gap', column', broke', written, blank, read, within⟩ :=
      plainGap_writePlain words more deep positive (by omega : least ≤ (c.past w).column)
    rw [written] at ahead more ⊢
    rw [List.append_assoc] at more
    have taken : plainWord false c.rest = w := by
      rw [ahead, List.append_assoc]
      exact plainWord_append word.printed word.last (plainWord_of_blank (blank _))
    have first := Cursor.head_ne_of_rest ahead word.nonempty (by simpa [List.head?_append_of_ne_nil _ word.nonempty] using unmarked)
    have shorter : s.length < fuel := by
      have positive := List.length_pos_of_ne_nil word.nonempty
      simp only [List.length_append] at enough
      omega
    -- The gap is handed on to the next round, which puts it in front of the words that it reads.
    have onward := ih unmarkedRest (spaces (k + 1)) broke' (Cursor.rest_past more) within shorter
    have second : (((c.past w).past gap').head == '#') = false := by
      obtain ⟨ch, tail, rfl, printed, ink⟩ := words.head
      have goesOn := Cursor.rest_past more
      rw [writePlain, if_neg (fun fold => ink fold.1)] at goesOn
      rw [Cursor.head_of_rest goesOn]
      simpa using unmarkedRest
    rw [plainWords, taken, first, ← Cursor.past, read]
    simp only [second, onward]
    simp [word.nonempty, within, spaces, Cursor.past_append]

theorem readPlain_writePlain {s after : List Char} (words : Words s) (unmarked : s.head? ≠ some '#')
    {indent least next column : Nat} {c : Cursor}
    (ahead : c.rest = writePlain indent false column s ++ (newLine next ++ after)) (deep : least ≤ indent)
    (positive : 0 < indent) (inside : least ≤ c.column) (outside : next < least) (onset : Onset after) :
    readPlain false least c =
      { text := s, brokeLine := true, after := c.past (writePlain indent false column s ++ newLine next) } := by
  have enough : s.length < c.fuel := by
    have bound := c.rest_length_lt_fuel
    have longer := length_le_writePlain indent false column s
    rw [ahead, List.length_append] at bound
    omega
  rw [readPlain, plainWords_writePlain words unmarked [] false ahead deep positive inside outside onset enough, List.nil_append]

/-- A word that may stand as a key: letters, digits and the like, and not too many of them. -/
structure IsKey (key : List Char) : Prop where
  nonempty : key ≠ []
  names : ∀ c ∈ key, isNameChar c = true
  first : key.head? ≠ some '-'
  short : key.length ≤ 1024

namespace IsKey

variable {key : List Char}

instance : Decidable (IsKey key) :=
  decidable_of_iff (key ≠ [] ∧ (∀ c ∈ key, isNameChar c = true) ∧ key.head? ≠ some '-' ∧ key.length ≤ 1024)
    ⟨fun ⟨nonempty, names, first, short⟩ => { nonempty, names, first, short },
      fun isKey => ⟨isKey.nonempty, isKey.names, isKey.first, isKey.short⟩⟩

theorem printed (isKey : IsKey key) : ∀ c ∈ key, isPrinted c = true ∧ c ≠ ' ' := by
  intro c mem
  refine ⟨isPrinted_of_isNameChar (isKey.names c mem), ?_⟩
  rintro rfl
  exact absurd (isKey.names ' ' mem) (by decide)

theorem head (isKey : IsKey key) : ∃ c rest, key = c :: rest ∧ isNameChar c = true ∧ c ≠ '-' := by
  obtain ⟨c, rest, rfl⟩ := List.exists_cons_of_ne_nil isKey.nonempty
  exact ⟨c, rest, rfl, isKey.names c (by simp), by simpa using isKey.first⟩

theorem onset (isKey : IsKey key) (rest : List Char) : Onset (key ++ rest) := by
  obtain ⟨c, more, rfl, name, apart⟩ := isKey.head
  exact .inr (.inr ⟨c, more ++ rest, rfl, name, apart⟩)

end IsKey

/-- A word is read up to where it ends, if no space follows. -/
theorem readPlain_word {w rest : List Char} (word : IsWord w) (unmarked : w.head? ≠ some '#') (least : Nat) {c : Cursor}
    (ahead : c.rest = w ++ rest) (stops : plainWord false rest = []) (inked : Inked rest) :
    readPlain false least c = { text := w, brokeLine := false, after := c.past w } := by
  have taken : plainWord false c.rest = w := by
    rw [ahead]
    exact plainWord_append word.printed word.last stops
  have first := Cursor.head_ne_of_rest ahead word.nonempty unmarked
  have gap := plainGap_spaces (k := 0) (Cursor.rest_past ahead) inked
  rw [readPlain, Cursor.fuel, plainWords, taken, first, ← Cursor.past, gap]
  simp [word.nonempty, spaces]

/-- A key is read up to its colon. -/
theorem readPlain_key {key rest : List Char} (isKey : IsKey key) (least : Nat) {c : Cursor}
    (ahead : c.rest = key ++ ':' :: rest) (blank : isBlankOrEnd (rest.headD endMark) = true) :
    readPlain false least c = { text := key, brokeLine := false, after := c.past key } := by
  have other {ch : Char} (mark : isNameChar ch = false) : ch ∉ key := fun mem =>
    absurd (isKey.names ch mem) (by simp [mark])
  have word : IsWord key :=
    ⟨isKey.nonempty, isKey.printed, fun colon => other (by decide) (List.mem_of_getLast? colon)⟩
  have stops : plainWord false (':' :: rest) = [] := by
    simp only [plainWord, endsPlain, blank]
    simp
  exact readPlain_word word (fun mark => other (by decide) (List.mem_of_head? mark)) least ahead stops
    (.of_isPrinted (by decide) (by decide))

end AgentConfig.Yaml
