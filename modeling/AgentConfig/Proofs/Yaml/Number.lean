import AgentConfig.Proofs.Number.Layout
import AgentConfig.Proofs.Yaml.Plain
import AgentConfig.Yaml.Datum
import Mathlib.Data.List.TakeWhile

namespace AgentConfig.Yaml

/-- Each character of a number is read as it is. -/
theorem numberChars_plain : ∀ c ∈ numberChars, isPrinted c = true ∧ c ≠ ' ' ∧ c ≠ '_' ∧ c ≠ ':' ∧ c ≠ '\n' ∧ c.toLower = c ∧
    isNumberSpace c = false ∧ ((Text.digitValue? c).map Nat.digitChar).getD c = c := by
  decide

/-- A text of such characters. -/
structure IsNumber (s : List Char) : Prop where
  nonempty : s ≠ []
  chars : ∀ c ∈ s, c ∈ numberChars

namespace IsNumber

variable {s : List Char}

theorem withoutUnderscores_eq (number : IsNumber s) : withoutUnderscores s = s := by
  refine List.filter_eq_self.2 fun c mem => ?_
  simpa using (numberChars_plain c (number.chars c mem)).2.2.1

theorem lower_eq (number : IsNumber s) : Text.lower s = s :=
  List.map_congr_left (fun c mem => (numberChars_plain c (number.chars c mem)).2.2.2.2.2.1) |>.trans s.map_id

theorem not_contains_colon (number : IsNumber s) : s.contains ':' = false := by
  rw [← Bool.not_eq_true, List.contains_iff_mem]
  exact fun mem => (numberChars_plain ':' (number.chars ':' mem)).2.2.2.1 rfl

theorem withoutFinalBreak_eq (number : IsNumber s) : Tag.withoutFinalBreak s = s := by
  rw [Tag.withoutFinalBreak]
  split
  · next rest shape =>
    have mem : '\n' ∈ s := by
      rw [← List.mem_reverse, shape]
      simp
    exact absurd rfl (numberChars_plain '\n' (number.chars '\n' mem)).2.2.2.2.1
  · rfl

theorem plainDigits_eq (number : IsNumber s) : plainDigits s = s := by
  have kept {t : List Char} (chars : ∀ c ∈ t, c ∈ numberChars) : t.dropWhile isNumberSpace = t := by
    cases t with
    | nil => rfl
    | cons c t => simp [(numberChars_plain c (chars c (by simp))).2.2.2.2.2.2.1]
  have trimmed : Text.trimBy isNumberSpace s = s := by
    rw [Text.trimBy, kept number.chars, kept (fun c mem => number.chars c (by simpa using mem)), List.reverse_reverse]
  refine (congrArg _ ((List.map_congr_left fun c mem => ?_).trans s.map_id)).trans trimmed
  have plain := (numberChars_plain c (number.chars c mem)).2.2.2.2.2.2.2
  cases value : Text.digitValue? c with
  | none => rfl
  | some n =>
    rw [value] at plain
    exact plain

theorem isWord (number : IsNumber s) : IsWord s where
  nonempty := number.nonempty
  printed c mem := ⟨(numberChars_plain c (number.chars c mem)).1, (numberChars_plain c (number.chars c mem)).2.1⟩
  last colon := (numberChars_plain ':' (number.chars ':' (List.mem_of_getLast? colon))).2.2.2.1 rfl

end IsNumber

section sign

variable {first : Char} {more : List Char}

theorem ne_of_isDigit {c : Char} (digit : isDigit c = true) (d : Char) (apart : isDigit d = false) : c ≠ d := by
  rintro rfl
  rw [digit] at apart
  exact absurd apart (by decide)

theorem splitSign_signed (negative : Bool) (digit : isDigit first = true) :
    splitSign (NumberLayout.signed negative (first :: more)) = .ok (if negative then -1 else 1, first :: more) := by
  cases negative with
  | true => rfl
  | false =>
    have minus := ne_of_isDigit digit '-' (by decide)
    have plus := ne_of_isDigit digit '+' (by decide)
    simp [NumberLayout.signed, splitSign, minus, plus]

theorem withoutSign_signed (negative : Bool) (digit : isDigit first = true) :
    Tag.withoutSign (NumberLayout.signed negative (first :: more)) = first :: more := by
  cases negative with
  | true => rfl
  | false =>
    have minus := ne_of_isDigit digit '-' (by decide)
    have plus := ne_of_isDigit digit '+' (by decide)
    simp [NumberLayout.signed, Tag.withoutSign, minus, plus]

theorem IsNumber.signed (number : IsNumber (first :: more)) (negative : Bool) :
    IsNumber (NumberLayout.signed negative (first :: more)) := by
  cases negative with
  | false => exact number
  | true =>
    refine ⟨by simp [NumberLayout.signed], fun c mem => ?_⟩
    obtain rfl | mem := List.mem_cons.1 mem
    · decide
    · exact number.chars c mem

/-- The first character of a number tells it from words. -/
theorem exists_lead (digit : isDigit first = true) (more : List Char) (negative : Bool) :
    ∃ c rest, NumberLayout.signed negative (first :: more) = c :: rest ∧ "yYnNtTfFoO".toList.contains c = false ∧
      (isDigit c || c == '-' || c == '+') = true := by
  cases negative with
  | true => exact ⟨'-', first :: more, rfl, by decide, by decide⟩
  | false =>
    refine ⟨first, more, rfl, ?_, by simp [digit]⟩
    rw [← Bool.not_eq_true, List.contains_iff_mem]
    intro mem
    have words : ∀ c ∈ "yYnNtTfFoO".toList, isDigit c = false := by decide
    exact absurd (words first mem) (by simp [digit])

theorem ofPlain_float (number : IsNumber (first :: more)) (digit : isDigit first = true) (negative : Bool)
    (float : Tag.isFloat (NumberLayout.signed negative (first :: more)) = true) :
    Tag.ofPlain (NumberLayout.signed negative (first :: more)) = .float := by
  obtain ⟨c, rest, shape, word, lead⟩ := exists_lead digit more negative
  have whole := (number.signed negative).withoutFinalBreak_eq
  rw [shape] at whole float ⊢
  rw [Tag.ofPlain, whole]
  simp only [List.head?_cons, word, float, lead, Bool.true_or, Bool.false_and, Bool.true_and, Bool.false_eq_true,
    if_false, if_true]

theorem ofPlain_int (number : IsNumber (first :: more)) (digit : isDigit first = true) (negative : Bool)
    (float : Tag.isFloat (NumberLayout.signed negative (first :: more)) = false)
    (int : Tag.isInt (NumberLayout.signed negative (first :: more)) = true) :
    Tag.ofPlain (NumberLayout.signed negative (first :: more)) = .int := by
  obtain ⟨c, rest, shape, word, lead⟩ := exists_lead digit more negative
  have whole := (number.signed negative).withoutFinalBreak_eq
  rw [shape] at whole float int ⊢
  rw [Tag.ofPlain, whole]
  simp only [List.head?_cons, word, float, int, lead, Bool.and_false, Bool.false_and, Bool.true_and, Bool.false_eq_true,
    if_false, if_true]

end sign

section int

theorem isNumber_decimalDigits (n : Nat) : IsNumber (decimalDigits n) where
  nonempty := decimalDigits_ne_nil n
  chars _ mem := mem_numberChars_of_isDigit (isDigit_of_mem_decimalDigits mem)

/-- The digits of a natural number have a first one. -/
theorem exists_decimalDigits_cons (n : Nat) :
    ∃ first more, decimalDigits n = first :: more ∧ isDigit first = true ∧ IsNumber (first :: more) := by
  obtain ⟨first, more, shape⟩ := List.exists_cons_of_ne_nil (decimalDigits_ne_nil n)
  exact ⟨first, more, shape, isDigit_of_mem_decimalDigits (n := n) (by simp [shape]), shape ▸ isNumber_decimalDigits n⟩

theorem writeInt_eq_signed (n : Int) : Json.writeInt n = NumberLayout.signed (n < 0) (decimalDigits n.natAbs) := by
  simp [Json.writeInt, NumberLayout.signed]

/-- No word with a point in front is meant. -/
theorem not_contains_of_head {s : List Char} {words : List String} (points : ∀ w ∈ words, w.toList.head? = some '.')
    (other : s.head? ≠ some '.') : words.contains (String.ofList s) = false := by
  rw [← Bool.not_eq_true, List.contains_iff_mem]
  intro mem
  exact other (by simpa using points _ mem)

theorem isFloat_digits {s : List Char} (all : (Tag.withoutSign s).all isDigit = true)
    (nonempty : Tag.withoutSign s ≠ []) (point : s.head? ≠ some '.') : Tag.isFloat s = false := by
  obtain ⟨first, more, shape⟩ := List.exists_cons_of_ne_nil nonempty
  rw [shape] at all
  have digit := List.all_eq_true.1 all
  have unsigned : (first :: more).head? ≠ some '.' := by
    have apart := ne_of_isDigit (digit first (by simp)) '.' (by decide)
    simpa using apart
  have grouped : (first :: more).dropWhile Tag.isDigitOrUnderscore = [] :=
    List.dropWhile_eq_nil_iff.2 fun c mem => by simp [Tag.isDigitOrUnderscore, digit c mem]
  have pointless : (first :: more).dropWhile (· != '.') = [] :=
    List.dropWhile_eq_nil_iff.2 fun c mem => by simpa using ne_of_isDigit (digit c mem) '.' (by decide)
  have infinities : [".inf", ".Inf", ".INF"].contains (String.ofList (first :: more)) = false :=
    not_contains_of_head (by decide) unsigned
  have nans : [".nan", ".NaN", ".NAN"].contains (String.ofList s) = false := not_contains_of_head (by decide) point
  rw [Tag.isFloat, Tag.isDecimalFloat, Tag.isSexagesimalFloat, shape, infinities, nans, pointless, grouped]
  simp

theorem isInt_decimalDigits {s : List Char} {n : Nat} (shape : Tag.withoutSign s = decimalDigits n) :
    Tag.isInt s = true := by
  rw [Tag.isInt, shape]
  obtain ⟨first, more, digits⟩ := List.exists_cons_of_ne_nil (decimalDigits_ne_nil n)
  have digit : ∀ c ∈ first :: more, isDigit c = true := fun c mem =>
    isDigit_of_mem_decimalDigits (n := n) (by rwa [digits])
  by_cases zero : first = '0'
  · have none : n = 0 := decimalDigits_head_zero (by rw [digits, zero]; rfl)
    rw [none, decimalDigits_zero]
    rfl
  · have groups : more.all Tag.isDigitOrUnderscore = true := by
      refine List.all_eq_true.2 fun c mem => ?_
      simp [Tag.isDigitOrUnderscore, digit c (by simp [mem])]
    rw [digits]
    simp [zero, digit first, groups]

theorem ofPlain_writeInt (n : Int) : Tag.ofPlain (Json.writeInt n) = .int := by
  obtain ⟨first, more, shape, digit, number⟩ := exists_decimalDigits_cons n.natAbs
  have all := all_isDigit_decimalDigits n.natAbs
  rw [writeInt_eq_signed, shape]
  rw [shape] at all
  have unsigned : Tag.withoutSign (NumberLayout.signed (n < 0) (first :: more)) = first :: more :=
    withoutSign_signed (n < 0) digit
  have point : (NumberLayout.signed (n < 0) (first :: more)).head? ≠ some '.' := by
    have apart := ne_of_isDigit digit '.' (by decide)
    by_cases negative : n < 0 <;> simp [NumberLayout.signed, negative, apart]
  refine ofPlain_int number digit _ (isFloat_digits (by rwa [unsigned]) (by simp [unsigned]) point) ?_
  exact isInt_decimalDigits (n := n.natAbs) (by rw [unsigned, shape])

theorem baseDigit?_of_isDigit {c : Char} (digit : isDigit c = true) :
    baseDigit? 10 c = some (c.toNat - '0'.toNat) := by
  have bounds := isDigit_iff.1 digit
  have zero : '0'.toNat = 48 := rfl
  have small : c.toNat - '0'.toNat < 10 := by omega
  rw [baseDigit?, Json.hexValue?, if_pos digit, Option.filter_some, decide_eq_true small, if_pos rfl]

theorem foldl_baseDigit? {digits : List Char} (all : ∀ c ∈ digits, isDigit c = true) (n : Nat) :
    digits.foldl (fun (n : Int) c => (10 : Nat) * n + (baseDigit? 10 c).getD 0) n =
      (digits.foldl (fun n c => 10 * n + (c.toNat - '0'.toNat)) n : Nat) := by
  induction digits generalizing n with
  | nil => rfl
  | cons c digits ih =>
    have onward := ih (fun d mem => all d (by simp [mem])) (10 * n + (c.toNat - '0'.toNat))
    rw [List.foldl_cons, List.foldl_cons, ← onward, baseDigit?_of_isDigit (all c (by simp))]
    push_cast
    rfl

theorem readBase_decimalDigits {n : Nat} (short : (decimalDigits n).length ≤ digitLimit) :
    readBase 10 (decimalDigits n) = .ok (n : Int) := by
  have all : ∀ c ∈ decimalDigits n, isDigit c = true := fun c mem => isDigit_of_mem_decimalDigits mem
  have value := foldl_baseDigit? all 0
  rw [← natOfDigits, natOfDigits_decimalDigits] at value
  have known : (decimalDigits n).all (fun c => (baseDigit? 10 c).isSome) = true :=
    List.all_eq_true.2 fun c mem => by rw [baseDigit?_of_isDigit (all c mem)]; rfl
  obtain ⟨first, more, shape⟩ := List.exists_cons_of_ne_nil (decimalDigits_ne_nil n)
  have minus := ne_of_isDigit (all first (by simp [shape])) '-' (by decide)
  have plus := ne_of_isDigit (all first (by simp [shape])) '+' (by decide)
  have unmarked : withoutBaseMark 10 (decimalDigits n) = decimalDigits n := by
    unfold withoutBaseMark
    split
    · next c rest same =>
      rw [if_neg (by simp [baseLetter?])]
      exact same.symm
    · rfl
  have few : ¬ digitLimit < (decimalDigits n).length := Nat.not_lt.2 short
  rw [readBase, (isNumber_decimalDigits n).plainDigits_eq]
  rw [shape] at unmarked known few value ⊢
  split
  next negative unsigned same =>
  obtain ⟨rfl, rfl⟩ : false = negative ∧ first :: more = unsigned := by simpa [minus, plus] using same
  have fits : ¬ digitLimit ≤ more.length := by simpa using few
  have sum := by simpa using value
  simp [unmarked, known, fits, sum]

/-- An integer is read back from its digits, if they are not too many. -/
theorem readInt_writeInt {n : Int} (short : (decimalDigits n.natAbs).length ≤ digitLimit) :
    readInt (Json.writeInt n) = .ok n := by
  obtain ⟨first, more, shape, digit, number⟩ := exists_decimalDigits_cons n.natAbs
  have all : ∀ c ∈ first :: more, isDigit c = true := fun c mem =>
    isDigit_of_mem_decimalDigits (n := n.natAbs) (by rwa [shape])
  have value := readBase_decimalDigits short
  have sign : (if decide (n < 0) = true then -1 else 1) * (n.natAbs : Int) = n := by
    by_cases negative : n < 0 <;> simp only [negative, decide_true, decide_false, if_true, Bool.false_eq_true, if_false] <;> omega
  rw [shape] at value
  rw [readInt, writeInt_eq_signed, shape, (number.signed _).withoutUnderscores_eq, splitSign_signed _ digit]
  simp only [bind, Except.bind]
  split
  · next none => exact absurd none (by simp)
  · next digits same => exact absurd (all 'b' (by simp [same])) (by decide)
  · next digits same => exact absurd (all 'x' (by simp [same])) (by decide)
  · next rest _ _ same =>
    have zero : n.natAbs = 0 := decimalDigits_head_zero (by rw [shape, same]; rfl)
    have none : rest = [] := by
      rw [zero, decimalDigits_zero, same] at shape
      simpa using shape.symm
    rw [none, if_pos (by rfl), Int.natAbs_eq_zero.1 zero]
    rfl
  · rw [number.not_contains_colon, value]
    exact congrArg Except.ok sign

end int

section float

variable {parts : NumberParts} {fraction : List Char}

/-- The text of a number's exponent, or nothing. -/
theorem isExponent_exponentText (wellFormed : parts.WellFormed) :
    Tag.isExponent (NumberParts.exponentText parts.exponent) = true := by
  cases shape : parts.exponent with
  | none => rfl
  | some e =>
    obtain ⟨negative, digits⟩ := e
    obtain ⟨nonempty, all⟩ := wellFormed.exponent _ shape
    cases negative <;> simp [NumberParts.exponentText, Tag.isExponent, nonempty, all]

theorem stops_exponentText (parts : NumberParts) (p : Char → Bool) (letter : p 'e' = false) :
    (NumberParts.exponentText parts.exponent).head?.all (fun c => !p c) = true := by
  cases parts.exponent with
  | none => rfl
  | some e => simp [NumberParts.exponentText, letter]

theorem stops_point (digits : List Char) (p : Char → Bool) (point : p '.' = false) :
    ('.' :: digits).head?.all (fun c => !p c) = true := by
  simp [point]

theorem text_of_fraction (pointed : parts.fraction = some fraction) :
    parts.text = parts.whole ++ '.' :: (fraction ++ NumberParts.exponentText parts.exponent) := by
  simp [NumberParts.text, pointed, NumberParts.fractionText]

theorem isNumber_text (wellFormed : parts.WellFormed) : IsNumber parts.text where
  nonempty := by simp [NumberParts.text, wellFormed.whole_ne_nil]
  chars _ mem := wellFormed.mem_numberChars mem

theorem isFloat_text (wellFormed : parts.WellFormed) (pointed : parts.fraction = some fraction) {s : List Char}
    (unsigned : Tag.withoutSign s = parts.text) : Tag.isFloat s = true := by
  have grouping {digits : List Char} (all : digits.all isDigit = true) : digits.all Tag.isDigitOrUnderscore = true := by
    refine List.all_eq_true.2 fun c mem => ?_
    simp [Tag.isDigitOrUnderscore, List.all_eq_true.1 all c mem]
  have ⟨taken, dropped⟩ := takeWhile_append_of_all (grouping wellFormed.whole_digits)
    (stops_point (fraction ++ NumberParts.exponentText parts.exponent) Tag.isDigitOrUnderscore (by decide))
  have ⟨_, behind⟩ := takeWhile_append_of_all (grouping (wellFormed.fraction _ pointed).2)
    (stops_exponentText parts Tag.isDigitOrUnderscore (by decide))
  have grouped : Tag.isGrouped parts.whole = true := by
    obtain ⟨first, more, shape⟩ := List.exists_cons_of_ne_nil wellFormed.whole_ne_nil
    have all := wellFormed.whole_digits
    rw [shape, List.all_cons, Bool.and_eq_true] at all
    simp [shape, Tag.isGrouped, all.1, grouping all.2]
  have decimal : Tag.isDecimalFloat s = true := by
    rw [Tag.isDecimalFloat, unsigned, text_of_fraction pointed]
    simp only [taken, dropped, behind, isExponent_exponentText wellFormed, grouped, Bool.true_or, Bool.and_self]
  simp [Tag.isFloat, decimal]

theorem exponent?_exponentText (wellFormed : parts.WellFormed) :
    NumberText.exponent? (NumberParts.exponentText parts.exponent) = some parts.exponentValue := by
  cases shape : parts.exponent with
  | none => simp [NumberParts.exponentText, NumberText.exponent?, NumberParts.exponentValue, shape]
  | some e =>
    obtain ⟨negative, digits⟩ := e
    obtain ⟨nonempty, all⟩ := wellFormed.exponent _ shape
    cases negative <;>
      simp [NumberParts.exponentText, NumberText.exponent?, NumberParts.exponentValue, shape, nonempty, all]

theorem decimal?_text (wellFormed : parts.WellFormed) (pointed : parts.fraction = some fraction) :
    NumberText.decimal? parts.text = some parts.value := by
  have ⟨taken, dropped⟩ := takeWhile_append_of_all wellFormed.whole_digits
    (stops_point (fraction ++ NumberParts.exponentText parts.exponent) isDigit (by decide))
  have ⟨front, behind⟩ := takeWhile_append_of_all (wellFormed.fraction _ pointed).2
    (stops_exponentText parts isDigit (by decide))
  have nonempty : parts.whole.isEmpty = false := by simp [wellFormed.whole_ne_nil]
  rw [NumberText.decimal?, text_of_fraction pointed]
  simp only [taken, dropped, front, behind, nonempty, exponent?_exponentText wellFormed]
  simp [NumberParts.value, pointed]

theorem exists_text_cons (wellFormed : parts.WellFormed) :
    ∃ first more, parts.text = first :: more ∧ isDigit first = true := by
  obtain ⟨first, more, shape⟩ := List.exists_cons_of_ne_nil wellFormed.whole_ne_nil
  have all := wellFormed.whole_digits
  rw [shape, List.all_cons, Bool.and_eq_true] at all
  exact ⟨first, _, by rw [NumberParts.text, shape, List.cons_append, List.cons_append], all.1⟩

theorem ofList_ne_of_isDigit {first : Char} {more : List Char} (digit : isDigit first = true) {w : String}
    (word : w.toList.head?.any isDigit = false) : String.ofList (first :: more) ≠ w := by
  rintro rfl
  rw [String.toList_ofList, List.head?_cons, Option.any_some, digit] at word
  exact absurd word (by decide)

/-- A decimal with a point is read as its value. -/
theorem readDecimal_text (wellFormed : parts.WellFormed) (pointed : parts.fraction = some fraction) :
    readDecimal parts.text = .ok (parts.value.toBinary64 false) := by
  obtain ⟨first, more, shape, digit⟩ := exists_text_cons wellFormed
  have number := isNumber_text wellFormed
  have decimal := decimal?_text wellFormed pointed
  have minus := ne_of_isDigit digit '-' (by decide)
  have plus := ne_of_isDigit digit '+' (by decide)
  have signless : NumberText.float? parts.text = NumberText.unsigned? false parts.text := by
    simp [shape, NumberText.float?, minus, plus]
  have infinity : ¬ (String.ofList parts.text = "inf" ∨ String.ofList parts.text = "infinity") := by
    rw [shape, not_or]
    exact ⟨ofList_ne_of_isDigit digit (by decide), ofList_ne_of_isDigit digit (by decide)⟩
  have nan : String.ofList parts.text ≠ "nan" := by
    rw [shape]
    exact ofList_ne_of_isDigit digit (by decide)
  have value : NumberText.unsigned? false parts.text = some (parts.value.toBinary64 false) := by
    rw [NumberText.unsigned?, number.lower_eq]
    simp only [if_neg infinity, if_neg nan, decimal, Option.map_some]
  rw [readDecimal, number.plainDigits_eq, signless, value]

/-- A decimal with a point and perhaps a sign is read as its value. -/
theorem readFloat_signed (wellFormed : parts.WellFormed) (pointed : parts.fraction = some fraction) (negative : Bool) :
    readFloat (NumberLayout.signed negative parts.text) =
      .ok (if negative then (parts.value.toBinary64 false).neg else parts.value.toBinary64 false) := by
  obtain ⟨first, more, shape, digit⟩ := exists_text_cons wellFormed
  have number := isNumber_text wellFormed
  have decimal := readDecimal_text wellFormed pointed
  have point := ne_of_isDigit digit '.' (by decide)
  have infinity : parts.text ≠ ".inf".toList := by simp [shape, point]
  have nan : parts.text ≠ ".nan".toList := by simp [shape, point]
  rw [shape] at number
  have signed := number.signed negative
  rw [← shape] at number signed
  have sign : splitSign (NumberLayout.signed negative (first :: more)) = .ok (if negative then -1 else 1, first :: more) :=
    splitSign_signed negative digit
  rw [← shape] at sign
  rw [readFloat, signed.withoutUnderscores_eq, signed.lower_eq, sign]
  simp only [bind, Except.bind, if_neg infinity, if_neg nan, number.not_contains_colon, decimal]
  cases negative <;> rfl

/-- The text of a number is that of a floating-point number, and is read as it. -/
theorem float_write (x : Binary64) :
    Tag.ofPlain (numberLayout.write x) = .float ∧ readFloat (numberLayout.write x) = .ok x := by
  cases x with
  | nan => exact ⟨by decide, by rfl⟩
  | infinite negative => cases negative <;> exact ⟨by decide, by rfl⟩
  | finite negative rank =>
    obtain ⟨parts, text, wellFormed, point, -, value⟩ := numberLayout.rank_parts rank
    obtain ⟨fraction, pointed⟩ := Option.ne_none_iff_exists'.1 (point rfl)
    obtain ⟨first, more, shape, digit⟩ := exists_text_cons wellFormed
    have number := isNumber_text wellFormed
    have unsigned : Tag.withoutSign (NumberLayout.signed negative (first :: more)) = first :: more :=
      withoutSign_signed negative digit
    rw [NumberLayout.write, ← text]
    have read := readFloat_signed wellFormed pointed negative
    rw [value false] at read
    refine ⟨?_, read.trans (by cases negative <;> rfl)⟩
    rw [shape] at number ⊢
    exact ofPlain_float number digit negative (isFloat_text wellFormed pointed (unsigned.trans shape.symm))

end float

end AgentConfig.Yaml
