import AgentConfig.Json.Token
import AgentConfig.Json.Writer
import AgentConfig.Proofs.Except
import AgentConfig.Proofs.Number.Layout

namespace AgentConfig.Json

/-- What may stand after a scalar: the end of the text, a comma, a closing bracket or brace, or a line break. -/
def EndsScalar (rest : List Char) : Prop :=
  ∀ c ∈ rest.head?, c ∈ [',', ']', '}', '\n']

theorem endsScalar_nil : EndsScalar [] := by
  simp [EndsScalar]

theorem endsScalar_cons {c : Char} (rest : List Char) (member : c ∈ [',', ']', '}', '\n']) :
    EndsScalar (c :: rest) := by
  rintro _ ⟨⟩
  exact member

namespace EndsScalar

variable {rest : List Char}

/-- A property that no character after a scalar has. -/
theorem stops (ends : EndsScalar rest) {p : Char → Bool} (none : [',', ']', '}', '\n'].all fun c => !p c) :
    rest.head?.all fun c => !p c := by
  cases rest with
  | nil => rfl
  | cons c rest => exact List.all_eq_true.mp none c (ends c rfl)

theorem head_ne (ends : EndsScalar rest) {c : Char} (outside : c ∉ [',', ']', '}', '\n']) :
    rest.head? ≠ some c :=
  fun head => outside (ends c head)

end EndsScalar

variable {digits rest : List Char}

theorem readDigits_append (nonempty : digits ≠ []) (all : digits.all isDigit)
    (stop : rest.head?.all fun c => !isDigit c) : readDigits (digits ++ rest) = .ok (digits, rest) := by
  obtain ⟨first, more, rfl⟩ := List.exists_cons_of_ne_nil nonempty
  obtain ⟨taken, dropped⟩ := takeWhile_append_of_all all stop
  have firstDigit : isDigit first := List.all_eq_true.mp all first (List.mem_cons_self ..)
  have ok := congrArg₂ (fun (run after : List Char) => (Except.ok (run, after) : Except Error _)) taken dropped
  exact (if_pos firstDigit).trans ok

theorem readDigits_eq_ok {s : List Char} (read : readDigits s = .ok (digits, rest)) :
    s = digits ++ rest ∧ digits ≠ [] ∧ digits.all isDigit := by
  unfold readDigits at read
  split at read
  · contradiction
  · split_ifs at read with digit
    simp only [Except.ok.injEq, Prod.mk.injEq] at read
    obtain ⟨rfl, rfl⟩ := read
    exact ⟨List.takeWhile_append_dropWhile.symm, by simp [digit], List.all_takeWhile⟩

theorem readFraction_none (ends : rest.head? ≠ some '.') : readFraction rest = .ok (none, rest) := by
  unfold readFraction
  split
  · simp at ends
  · rfl

theorem readFraction_some (nonempty : digits ≠ []) (all : digits.all isDigit)
    (stop : rest.head?.all fun c => !isDigit c) :
    readFraction ('.' :: (digits ++ rest)) = .ok (some digits, rest) := by
  simp [readFraction, readDigits_append nonempty all stop, bind, Except.bind]

theorem readExponent_none (small : rest.head? ≠ some 'e') (capital : rest.head? ≠ some 'E') :
    readExponent rest = .ok (none, rest) := by
  cases rest with
  | nil => rfl
  | cons c rest =>
    have other : ¬ (c = 'e' ∨ c = 'E') := by
      rintro (rfl | rfl)
      · exact small rfl
      · exact capital rfl
    simp [readExponent, other]

theorem readExponent_some (negative : Bool) (nonempty : digits ≠ []) (all : digits.all isDigit)
    (stop : rest.head?.all fun c => !isDigit c) :
    readExponent ('e' :: (if negative then '-' else '+') :: (digits ++ rest)) =
      .ok (some (if negative then -(natOfDigits digits : Int) else natOfDigits digits), rest) := by
  cases negative <;> simp [readExponent, readDigits_append nonempty all stop, bind, Except.bind]

/-- The number that its digits, its fraction and its exponent denote. -/
def numberFrom (negative : Bool) (whole : List Char) (fraction : Option (List Char)) (exponent : Option Int) : Tree :=
  if fraction.isNone ∧ exponent.isNone then .int (if negative then -(natOfDigits whole : Int) else natOfDigits whole)
  else
    let digits := fraction.getD []
    let d : Decimal := { coefficient := natOfDigits (whole ++ digits), exponent := exponent.getD 0 - digits.length }
    .float (d.toBinary64 negative)

/-- A number is read part by part. -/
theorem readUnsigned_eq_ok_iff {limit : Nat} {negative : Bool} {s rest : List Char} {t : Tree} :
    readUnsigned limit negative s = .ok (t, rest) ↔
      ∃ whole afterWhole fraction afterFraction exponent, readDigits s = .ok (whole, afterWhole) ∧
        ¬ (whole.head? = some '0' ∧ whole.length ≠ 1) ∧ whole.length ≤ limit ∧
        readFraction afterWhole = .ok (fraction, afterFraction) ∧ readExponent afterFraction = .ok (exponent, rest) ∧
        numberFrom negative whole fraction exponent = t := by
  constructor
  · intro read
    obtain ⟨⟨whole, afterWhole⟩, digits, read⟩ := bind_eq_ok read
    dsimp only at read
    by_cases leading : whole.head? = some '0' ∧ whole.length ≠ 1
    · simp [leading] at read
    by_cases long : limit < whole.length
    · simp [leading, long] at read
    rw [if_neg leading, if_neg long] at read
    obtain ⟨⟨fraction, afterFraction⟩, atFraction, read⟩ := bind_eq_ok read
    obtain ⟨⟨exponent, afterExponent⟩, atExponent, read⟩ := bind_eq_ok read
    refine ⟨whole, afterWhole, fraction, afterFraction, exponent, digits, leading, Nat.le_of_not_lt long, atFraction, ?_⟩
    dsimp only at read
    cases fraction <;> cases exponent <;> simp only [Except.ok.injEq, Prod.mk.injEq] at read <;>
      exact ⟨by rw [atExponent, read.2], by rw [← read.1]; simp [numberFrom]⟩
  · rintro ⟨whole, afterWhole, fraction, afterFraction, exponent, digits, leading, short, atFraction, atExponent, rfl⟩
    simp only [readUnsigned, digits, bind, Except.bind, leading, if_false, Nat.not_lt.mpr short, atFraction, atExponent]
    cases fraction <;> cases exponent <;> simp [numberFrom]

/-- A number with a point or an exponent is read as the number that its parts denote. -/
theorem readUnsigned_parts {parts : NumberParts} (wellFormed : parts.WellFormed) {limit : Nat} {negative : Bool}
    (short : parts.whole.length ≤ limit) (ends : EndsScalar rest) :
    readUnsigned limit negative (parts.text ++ rest) = .ok (.float (parts.value.toBinary64 negative), rest) := by
  obtain ⟨whole, fraction, exponent⟩ := parts
  obtain ⟨nonempty, all, leading, fractionDigits, exponentDigits, decimal⟩ := wellFormed
  simp only at nonempty all leading fractionDigits exponentDigits decimal short
  have whole_ok : ¬ (whole.head? = some '0' ∧ whole.length ≠ 1) := fun ⟨zero, long⟩ => long (leading zero)
  have stop : rest.head?.all fun c => !isDigit c := ends.stops (by decide)
  -- From the back to the front, since each part must not run on into the one behind it.
  have exponentRead : readExponent (NumberParts.exponentText exponent ++ rest) =
      .ok (exponent.map fun e => if e.1 then -(natOfDigits e.2 : Int) else natOfDigits e.2, rest) := by
    cases exponent with
    | none => exact readExponent_none (ends.head_ne (by decide)) (ends.head_ne (by decide))
    | some e =>
      obtain ⟨nonempty, all⟩ := exponentDigits e rfl
      exact readExponent_some e.1 nonempty all stop
  have afterFraction : (NumberParts.exponentText exponent ++ rest).head?.all fun c => !isDigit c := by
    cases exponent with
    | none => exact stop
    | some e => rfl
  have fractionRead : readFraction (NumberParts.fractionText fraction ++ (NumberParts.exponentText exponent ++ rest)) =
      .ok (fraction, NumberParts.exponentText exponent ++ rest) := by
    cases fraction with
    | none =>
      refine readFraction_none ?_
      cases exponent with
      | none => exact ends.head_ne (by decide)
      | some e => exact (by decide : some 'e' ≠ some '.')
    | some digits =>
      obtain ⟨nonempty, all⟩ := fractionDigits digits rfl
      exact readFraction_some nonempty all afterFraction
  have afterWhole : (NumberParts.fractionText fraction ++ (NumberParts.exponentText exponent ++ rest)).head?.all
      fun c => !isDigit c := by
    cases fraction with
    | none => exact afterFraction
    | some digits => rfl
  rw [NumberParts.text, List.append_assoc, List.append_assoc]
  refine readUnsigned_eq_ok_iff.mpr ⟨whole, _, fraction, _, _, readDigits_append nonempty all afterWhole, whole_ok, short,
    fractionRead, exponentRead, ?_⟩
  cases fraction <;> cases exponent <;> simp_all [numberFrom, NumberParts.value, NumberParts.exponentValue]

theorem readUnsigned_int (n : Nat) {limit : Nat} {negative : Bool}
    (short : (decimalDigits n).length ≤ limit) (ends : EndsScalar rest) :
    readUnsigned limit negative (decimalDigits n ++ rest) = .ok (.int (if negative then -n else n), rest) := by
  have leading : ¬ ((decimalDigits n).head? = some '0' ∧ (decimalDigits n).length ≠ 1) := by
    rintro ⟨zero, long⟩
    rw [decimalDigits_head_zero zero] at long
    exact long rfl
  have fraction : readFraction rest = .ok (none, rest) := readFraction_none (ends.head_ne (by decide))
  have exponent : readExponent rest = .ok (none, rest) :=
    readExponent_none (ends.head_ne (by decide)) (ends.head_ne (by decide))
  have digits := readDigits_append (decimalDigits_ne_nil n) (all_isDigit_decimalDigits n) (ends.stops (by decide))
  refine readUnsigned_eq_ok_iff.mpr ⟨_, _, _, _, _, digits, leading, short, fraction, exponent, ?_⟩
  simp [numberFrom, natOfDigits_decimalDigits]

/-- An integer that is too long is refused. -/
theorem readUnsigned_long (n : Nat) {limit : Nat} (negative : Bool)
    (long : limit < (decimalDigits n).length) (ends : EndsScalar rest) :
    ∃ e, readUnsigned limit negative (decimalDigits n ++ rest) = .error e := by
  simp only [readUnsigned, readDigits_append (decimalDigits_ne_nil n) (all_isDigit_decimalDigits n)
    (ends.stops (by decide)), bind, Except.bind, long, if_true]
  split_ifs <;> exact ⟨_, rfl⟩

theorem readScalar_digit {c : Char} (digit : isDigit c) (limit : Nat) (rest : List Char) :
    readScalar limit (c :: rest) = readUnsigned limit false (c :: rest) := by
  unfold readScalar
  split <;> first | rfl | simp_all [isDigit]

theorem readScalar_minus {c : Char} (digit : isDigit c) (limit : Nat) (rest : List Char) :
    readScalar limit ('-' :: c :: rest) = readUnsigned limit true (c :: rest) := by
  unfold readScalar
  split <;> first | rfl | simp_all [isDigit]

/-- A text whose first character shows that it is a scalar, and that is read as `t` wherever a scalar may end. -/
structure Reads (limit : Nat) (text : List Char) (t : Tree) : Prop where
  starts : ∃ c ∈ text.head?, startsScalar c
  read : ∀ rest, EndsScalar rest → readScalar limit (text ++ rest) = .ok (t, rest)

theorem startsScalar_digit {c : Char} (digit : isDigit c) : startsScalar c := by
  simp [startsScalar, digit]

theorem reads_null (limit : Nat) : Reads limit "null".toList .null :=
  ⟨⟨'n', rfl, rfl⟩, fun _ _ => rfl⟩

theorem reads_bool (limit : Nat) (b : Bool) :
    Reads limit (if b then "true".toList else "false".toList) (.bool b) := by
  cases b
  · exact ⟨⟨'f', rfl, rfl⟩, fun _ _ => rfl⟩
  · exact ⟨⟨'t', rfl, rfl⟩, fun _ _ => rfl⟩

variable {limit : Nat}

/-- A number's text is read by its sign and what follows it. -/
theorem reads_of_readUnsigned {text more : List Char} {c : Char} {t : Tree} (negative : Bool)
    (shape : text = c :: more) (digit : isDigit c)
    (read : ∀ rest, EndsScalar rest → readUnsigned limit negative (text ++ rest) = .ok (t, rest)) :
    Reads limit (if negative then '-' :: text else text) t := by
  subst shape
  cases negative with
  | false =>
    exact ⟨⟨c, rfl, startsScalar_digit digit⟩, fun rest ends => (readScalar_digit digit ..).trans (read rest ends)⟩
  | true => exact ⟨⟨'-', rfl, rfl⟩, fun rest ends => (readScalar_minus digit ..).trans (read rest ends)⟩

theorem exists_digit_cons {digits : List Char} (nonempty : digits ≠ []) (all : digits.all isDigit) :
    ∃ c more, digits = c :: more ∧ isDigit c := by
  obtain ⟨c, more, rfl⟩ := List.exists_cons_of_ne_nil nonempty
  exact ⟨c, more, rfl, List.all_eq_true.mp all c (List.mem_cons_self ..)⟩

theorem writeInt_eq (n : Int) :
    writeInt n = if decide (n < 0) then '-' :: decimalDigits n.natAbs else decimalDigits n.natAbs := by
  simp [writeInt]

theorem reads_int {n : Int} (short : (decimalDigits n.natAbs).length ≤ limit) : Reads limit (writeInt n) (.int n) := by
  rw [writeInt_eq]
  obtain ⟨c, more, shape, digit⟩ := exists_digit_cons (decimalDigits_ne_nil n.natAbs) (all_isDigit_decimalDigits _)
  refine reads_of_readUnsigned _ shape digit fun rest ends => ?_
  rw [readUnsigned_int n.natAbs short ends]
  congr 3
  simp only [decide_eq_true_eq]
  split_ifs <;> omega

/-- An integer that is too long is refused wherever it may end. -/
theorem readScalar_long {n : Int} (long : limit < (decimalDigits n.natAbs).length) {rest : List Char}
    (ends : EndsScalar rest) : ∃ e, readScalar limit (writeInt n ++ rest) = .error e := by
  obtain ⟨c, more, shape, digit⟩ := exists_digit_cons (decimalDigits_ne_nil n.natAbs) (all_isDigit_decimalDigits _)
  rw [writeInt_eq]
  cases negative : decide (n < 0) with
  | false =>
    have refused := readUnsigned_long n.natAbs false long ends
    simp only [Bool.false_eq_true, if_false]
    rw [shape] at refused ⊢
    exact (readScalar_digit digit ..) ▸ refused
  | true =>
    have refused := readUnsigned_long n.natAbs true long ends
    simp only [if_true]
    rw [shape] at refused ⊢
    exact (readScalar_minus digit ..) ▸ refused

/-- Every finite number is read back from its text. -/
theorem reads_float (negative : Bool) (rank : Fin Binary64.ranks) (enough : 16 < limit) :
    Reads limit (numberLayout.write (.finite negative rank)) (.float (.finite negative rank)) := by
  obtain ⟨parts, text, wellFormed, -, length, value⟩ := numberLayout.rank_parts rank
  have few : max 1 numberLayout.greatest = 16 := rfl
  obtain ⟨c, more, shape, digit⟩ := exists_digit_cons wellFormed.whole_ne_nil wellFormed.whole_digits
  have textShape : parts.text = c :: (more ++ NumberParts.fractionText parts.fraction ++
      NumberParts.exponentText parts.exponent) := by
    rw [NumberParts.text, shape, List.cons_append, List.cons_append]
  have short : parts.whole.length ≤ limit := by omega
  have reads := reads_of_readUnsigned (t := .float (.finite negative rank)) negative textShape digit
    fun rest ends => by rw [readUnsigned_parts wellFormed short ends, value negative]
  rwa [text] at reads

end AgentConfig.Json
