import AgentConfig.Proofs.Yaml.Blame
import AgentConfig.Proofs.Yaml.Number

namespace AgentConfig.Yaml

/-- Faults that the forms of plain scalars leave possible. -/
def ScalarFault.isPlain : ScalarFault → Bool
  | .empty | .bool _ | .moment | .momentFromMapping | .codePoint | .codePointSize => false
  | _ => true

def Error.isPlain : Error → Bool
  | .scalar fault => fault.isPlain
  | _ => true

variable {w : List Char}

theorem withoutFinalBreak_of_trimmed (trimmed : Trimmed w) : Tag.withoutFinalBreak w = w := by
  unfold Tag.withoutFinalBreak
  split
  · next rest backwards =>
    have last : w.getLast? = some '\n' := by rw [List.getLast?_eq_head?_reverse, backwards]; rfl
    exact absurd last trimmed
  · rfl

section bool

theorem isOk_readBool : ∀ word ∈ ["yes", "Yes", "YES", "no", "No", "NO", "true", "True", "TRUE", "false", "False", "FALSE",
    "on", "On", "ON", "off", "Off", "OFF"], (readBool word.toList).isOk := by
  decide

/-- Plain scalars with the form of a truth value are truth values. -/
theorem settles_readBool (form : Tag.isBool w) : Settles (fun _ => True) (·.isPlain) (readBool w) := by
  have read := isOk_readBool _ (List.contains_iff_mem.mp form)
  rw [String.toList_ofList] at read
  cases made : readBool w with
  | ok b => trivial
  | error e => simp [made, Except.isOk, Except.toBool] at read

end bool

section number

theorem settles_readBase (base : Nat) (s : List Char) : Settles (fun _ => True) (·.isPlain) (readBase base s) := by
  unfold readBase
  extract_lets t
  split
  dsimp only
  split_ifs <;> trivial

/-- Something is left of a text behind its sign. -/
theorem splitSign_eq_ok {s : List Char} {c : Char} (member : c ∈ s) (unsigned : c ≠ '-' ∧ c ≠ '+') :
    ∃ sign rest, splitSign s = .ok (sign, rest) ∧ rest ≠ [] := by
  unfold splitSign
  split
  · simp at member
  · next rest => exact ⟨-1, rest, rfl, List.ne_nil_of_mem ((List.mem_cons.mp member).resolve_left unsigned.1)⟩
  · next rest => exact ⟨1, rest, rfl, List.ne_nil_of_mem ((List.mem_cons.mp member).resolve_left unsigned.2)⟩
  · exact ⟨1, s, rfl, List.ne_nil_of_mem member⟩

theorem mem_withoutUnderscores {c : Char} (member : c ∈ w) (apart : c ≠ '_') : c ∈ withoutUnderscores w :=
  List.mem_filter.mpr ⟨member, by simpa using apart⟩

theorem settles_readInt_of_digit {c : Char} (member : c ∈ w) (digit : isDigit c) :
    Settles (fun _ => True) (·.isPlain) (readInt w) := by
  have apart (d : Char) (other : isDigit d = false) : c ≠ d := by
    rintro rfl
    simp [digit] at other
  obtain ⟨sign, rest, split, nonempty⟩ := splitSign_eq_ok (mem_withoutUnderscores member (apart '_' (by decide)))
    ⟨apart '-' (by decide), apart '+' (by decide)⟩
  have number (base : Nat) (digits : List Char) :
      Settles (fun _ => True) (·.isPlain) (readBase base digits >>= fun n => pure (sign * n)) :=
    (settles_readBase base digits).bind fun _ _ => trivial
  rw [readInt, split]
  simp only [bind, Except.bind]
  split
  · contradiction
  · exact number 2 _
  · exact number 16 _
  · split_ifs
    · trivial
    · exact number 8 _
  · split_ifs
    · exact (Settles.mapM fun part _ => settles_readBase 10 part).bind fun _ _ => trivial
    · exact number 10 _

theorem suffix_withoutSign (s : List Char) : Tag.withoutSign s <:+ s := by
  unfold Tag.withoutSign
  split <;> simp

/-- Something that looks like an integer has a digit. -/
theorem exists_digit_of_isInt (form : Tag.isInt w) : ∃ c ∈ w, isDigit c := by
  have unsigned := suffix_withoutSign w
  unfold Tag.isInt at form
  split at form
  · next same => exact ⟨'0', unsigned.subset (by simp [same]), by decide⟩
  · next same => exact ⟨'0', unsigned.subset (by simp [same]), by decide⟩
  · next same => exact ⟨'0', unsigned.subset (by simp [same]), by decide⟩
  · next c rest _ _ _ same => exact ⟨c, unsigned.subset (by simp [same]), (Bool.and_eq_true_iff.mp form).1⟩
  · contradiction

theorem settles_readInt (form : Tag.isInt w) : Settles (fun _ => True) (·.isPlain) (readInt w) := by
  obtain ⟨c, member, digit⟩ := exists_digit_of_isInt form
  exact settles_readInt_of_digit member digit

theorem settles_readDecimal (s : List Char) : Settles (fun _ => True) (·.isPlain) (readDecimal s) := by
  unfold readDecimal
  split <;> trivial

theorem settles_sumSixties (base : Nat) (sum : Binary64) (parts : List Binary64) :
    Settles (fun _ => True) (·.isPlain) (sumSixties base sum parts) := by
  induction parts generalizing base sum with
  | nil => trivial
  | cons x rest ih =>
    rw [sumSixties]
    split_ifs
    · exact ih _ _
    · rfl

/-- Something that looks like a floating-point number has a point. -/
theorem point_mem_of_isFloat (form : Tag.isFloat w) : '.' ∈ w := by
  have unsigned := (suffix_withoutSign w).subset
  have word {words : List String} (points : ∀ word ∈ words, '.' ∈ word.toList) {s : List Char}
      (known : words.contains (String.ofList s)) : '.' ∈ s := by
    have point := points _ (List.contains_iff_mem.mp known)
    rwa [String.toList_ofList] at point
  simp only [Tag.isFloat, Bool.or_eq_true] at form
  rcases form with ((decimal | sexagesimal) | infinite) | nan
  · unfold Tag.isDecimalFloat at decimal
    dsimp only at decimal
    split at decimal
    · next rest behind =>
      exact unsigned ((List.dropWhile_suffix _).subset (by rw [behind]; exact List.mem_cons_self))
    · contradiction
  · by_contra pointless
    have whole : (Tag.withoutSign w).dropWhile (· != '.') = [] := List.dropWhile_eq_nil_iff.mpr fun c member => by
      simpa using ne_of_mem_of_not_mem (unsigned member) pointless
    simp [Tag.isSexagesimalFloat, whole] at sexagesimal
  · exact unsigned (word (by decide) infinite)
  · exact word (by decide) nan

theorem settles_readFloat (form : Tag.isFloat w) : Settles (fun _ => True) (·.isPlain) (readFloat w) := by
  have kept : '.' ∈ Text.lower (withoutUnderscores w) :=
    List.mem_map.mpr ⟨'.', mem_withoutUnderscores (point_mem_of_isFloat form) (by decide), by decide⟩
  obtain ⟨sign, rest, split, -⟩ := splitSign_eq_ok kept (by decide)
  rw [readFloat, split]
  simp only [bind, Except.bind]
  split
  · trivial
  · split
    · trivial
    · split
      · refine (Settles.mapM fun part _ => settles_readDecimal part).bind fun parts _ => ?_
        exact (settles_sumSixties _ _ _).bind fun _ _ => trivial
      · exact (settles_readDecimal rest).bind fun _ _ => trivial

end number

section moment

open Moment

variable {s s' : List Char}

theorem takeDigits_mono {least least' most : Nat} {found : List Char × List Char}
    (taken : Tag.takeDigits least most s = some found) (fewer : least' ≤ least) :
    Tag.takeDigits least' most s = some found := by
  unfold Tag.takeDigits at taken ⊢
  dsimp only at taken ⊢
  split_ifs at taken with enough
  rw [if_pos (fewer.trans enough), taken]

theorem afterDate?_mono (dated : Tag.afterDate? 2 w = some s) : Tag.afterDate? 1 w = some s := by
  simp only [Tag.afterDate?, Option.bind_eq_bind, Option.bind_eq_some_iff, Prod.exists] at dated ⊢
  obtain ⟨year, s₁, first, s₂, dash, month, s₃, second, s₄, dash', day, s₅, third, last⟩ := dated
  exact ⟨year, s₁, first, s₂, dash, month, s₃, takeDigits_mono second (by decide), s₄, dash', day, s₅,
    takeDigits_mono third (by decide), last⟩

theorem takeDigits_two (two : s.length = 2) (all : s.all isDigit) : Tag.takeDigits 2 2 s = some (s, []) := by
  have digits : (s.take 2).takeWhile isDigit = s := by
    rw [List.take_of_length_le two.le, List.takeWhile_eq_self_iff.mpr (List.all_eq_true.mp all)]
  simp [Tag.takeDigits, digits, two]

theorem isSome_zone? (form : Tag.isZone s) : (zone? s).isSome := by
  unfold Tag.isZone at form
  unfold zone?
  generalize Tag.skipBlanks s = t at form ⊢
  split at form
  · simp [form]
  · simp
  · next sign rest _ =>
    obtain ⟨signed, offset⟩ := Bool.and_eq_true_iff.mp form
    have signs : sign = '-' ∨ sign = '+' := by simpa using signed
    split at offset
    · next hours taken => rcases signs with rfl | rfl <;> simp [number?, taken]
    · next hours minutes taken =>
      obtain ⟨two, all⟩ := Bool.and_eq_true_iff.mp offset
      have taken' := takeDigits_two (of_decide_eq_true two) all
      rcases signs with rfl | rfl <;> simp [number?, taken, Tag.expect?, taken']
    · contradiction

theorem isSome_time? (timed : Tag.afterTime? s = some s') (zone : Tag.isZone s') : (time? s).isSome := by
  simp only [Tag.afterTime?, Option.bind_eq_bind, Option.bind_eq_some_iff, Prod.exists, Option.some.injEq] at timed
  obtain ⟨hour, s₁, first, s₂, colon, minute, s₃, second, s₄, colon', seconds, s₅, third, rfl⟩ := timed
  obtain ⟨offset, read⟩ := Option.isSome_iff_exists.mp (isSome_zone? zone)
  simp [time?, number?, first, colon, second, colon', third, read]

theorem isSome_ofText?_of_date (trimmed : Trimmed w) (dated : Tag.afterDate? 1 w = some []) : (ofText? w).isSome := by
  simp only [Tag.afterDate?, Option.bind_eq_bind, Option.bind_eq_some_iff, Prod.exists, Option.some.injEq] at dated
  obtain ⟨year, s₁, first, s₂, dash, month, s₃, second, s₄, dash', day, s₅, third, rfl⟩ := dated
  simp [ofText?, withoutFinalBreak_of_trimmed trimmed, number?, first, dash, second, dash', third]

theorem isSome_ofText?_of_time (trimmed : Trimmed w) (dated : Tag.afterDate? 1 w = some s)
    (marked : Tag.afterTimeMark? s = some s') (timed : (time? s').isSome) : (ofText? w).isSome := by
  simp only [Tag.afterDate?, Option.bind_eq_bind, Option.bind_eq_some_iff, Prod.exists, Option.some.injEq] at dated
  obtain ⟨year, s₁, first, s₂, dash, month, s₃, second, s₄, dash', day, s₅, third, rfl⟩ := dated
  obtain ⟨⟨time, zone⟩, read⟩ := Option.isSome_iff_exists.mp timed
  cases s₅ with
  | nil => contradiction
  | cons c rest => simp [ofText?, withoutFinalBreak_of_trimmed trimmed, number?, first, dash, second, dash', third, marked, read]

/-- The numbers of a moment are read wherever something looks like one. -/
theorem isSome_ofText? (trimmed : Trimmed w) (form : Tag.isMoment w) : (ofText? w).isSome := by
  rcases Bool.or_eq_true_iff.mp form with strict | full
  · exact isSome_ofText?_of_date trimmed (afterDate?_mono (by simpa using strict))
  · simp only [Option.any_eq_true, Option.bind_eq_some_iff] at full
    obtain ⟨s'', ⟨s', ⟨s, dated, marked⟩, timed⟩, zone⟩ := full
    exact isSome_ofText?_of_time trimmed dated marked (isSome_time? timed zone)

theorem isPlain_of_fault? {m : Moment} {fault : ScalarFault} (found : m.fault? = some fault) : fault.isPlain := by
  have plain {other : ScalarFault} (kind : other.isPlain) (same : some other = some fault) : fault.isPlain :=
    Option.some.inj same ▸ kind
  unfold fault? at found
  dsimp only at found
  split at found
  · exact plain rfl found
  · split_ifs at found
    · exact plain rfl found
    · exact plain rfl found
    · exact plain rfl found
    · split at found
      · contradiction
      · split_ifs at found
        · exact plain rfl found
        · exact plain rfl found
        · exact plain rfl found

theorem settles_check (trimmed : Trimmed w) (form : Tag.isMoment w) : Settles (fun _ => True) (·.isPlain) (check w) := by
  obtain ⟨m, read⟩ := Option.isSome_iff_exists.mp (isSome_ofText? trimmed form)
  unfold check
  rw [read]
  dsimp only
  split
  · next fault found => exact isPlain_of_fault? found
  · trivial

end moment

/-- A plain scalar is what its form says, but for the limits of numbers and dates. -/
theorem isPlain_of_ofPlain {fault : ScalarFault} (trimmed : Trimmed w)
    (refused : Datum.scalarValue? (Tag.ofPlain w) true (some w) = some (.error (.scalar fault))) : fault.isPlain := by
  have plain {result : Except Error Value} (settled : Settles (fun _ => True) (·.isPlain) result)
      (same : result = .error (.scalar fault)) : fault.isPlain := by
    rw [same] at settled
    exact settled
  unfold Tag.ofPlain at refused
  rw [withoutFinalBreak_of_trimmed trimmed] at refused
  dsimp only at refused
  split at refused
  · simp [Datum.scalarValue?] at refused
  · split_ifs at refused with bool float int merge null moment default mark
    · have form := (Bool.and_eq_true_iff.mp bool).2
      exact plain ((settles_readBool form).map fun _ _ => trivial) (Option.some.inj refused)
    · have form := (Bool.and_eq_true_iff.mp float).2
      exact plain ((settles_readFloat form).map fun _ _ => trivial) (Option.some.inj refused)
    · have form := (Bool.and_eq_true_iff.mp int).2
      exact plain ((settles_readInt form).map fun _ _ => trivial) (Option.some.inj refused)
    · simp [Datum.scalarValue?] at refused
    · simp [Datum.scalarValue?] at refused
    · have form := (Bool.and_eq_true_iff.mp moment).2
      exact plain ((settles_check trimmed form).map fun _ _ => trivial) (Option.some.inj refused)
    · simp [Datum.scalarValue?] at refused
    · simp [Datum.scalarValue?] at refused
    · simp [Datum.scalarValue?] at refused

theorem Node.Untagged.of_holds {root n : Node} (untagged : root.Untagged) (holds : root.Holds n) : n.Untagged := by
  induction holds with
  | root => exact untagged
  | item _ member ih =>
    cases ih with
    | sequence _ all => exact all _ member
  | key _ member ih =>
    cases ih with
    | mapping _ keys values => exact keys _ member
  | value _ member ih =>
    cases ih with
    | mapping _ keys values => exact values _ member

/-- Without tags a document has no scalar faults but those of numbers and dates. -/
theorem Node.Untagged.isPlain {root : Node} {fault : ScalarFault} (untagged : root.Untagged) (blames : root.Blames fault) :
    fault.isPlain := by
  cases blames with
  | scalar inside refused =>
    cases untagged.of_holds inside with
    | quoted => simp [Datum.scalarValue?] at refused
    | plain _ trimmed => exact isPlain_of_ofPlain trimmed refused
  | mapping inside default refused =>
    cases untagged.of_holds inside with
    | mapping => simp [Datum.scalarValue?] at refused

/-- A text without an exclamation mark has no scalar faults but those of numbers, dates and characters. -/
theorem isPlain_or_isLexical_of_read {text : String} {fault : ScalarFault} (unmarked : '!' ∉ text.toList)
    (failed : read text = .error (.scalar fault)) : fault.isPlain ∨ fault.isLexical := by
  rcases blames_of_read failed with ⟨-, lexical⟩ | ⟨root, composed, blames⟩
  · exact .inr lexical
  · have settled := Node.settles_ofText text
    rw [composed] at settled
    have untagged := (settled root rfl).resolve_left unmarked
    exact .inl (untagged.isPlain blames)

end AgentConfig.Yaml
