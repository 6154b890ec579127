import AgentConfig.Proofs.Text.Utf8

namespace AgentConfig.Text

theorem byte_eq {n : Nat} {b : UInt8} (same : n = b.toNat) : byte n = b := by
  rw [same, byte, UInt8.ofNat_toNat]

/-- Whether the byte at some position behind a leading byte may stand there. -/
def fits (lead : Nat) (p : UInt8 × Nat) : Bool :=
  if p.2 = 0 then (secondBounds lead).1 ≤ p.1.toNat && p.1.toNat ≤ (secondBounds lead).2 else isContinuation p.1

/-- Bytes with which nothing is wrong are as many as announced, and each fits in its place. -/
theorem fits_of_followFault? {lead count : Nat} {rest : List UInt8} (faultless : followFault? lead count rest = none) :
    (rest.take count).length = count ∧ ∀ p ∈ (rest.take count).zipIdx, fits lead p := by
  have defined : followFault? lead count rest =
      let good := (rest.take count).zipIdx.takeWhile (fits lead)
      if good.length = count then none
      else if good.length = rest.length then some (good.length, .truncated)
      else some (good.length, .badContinuation) := rfl
  rw [defined] at faultless
  dsimp only at faultless
  split_ifs at faultless with all
  have few : (rest.take count).zipIdx.length ≤ count := by simp
  have whole := (List.takeWhile_prefix (fits lead)).eq_of_length_le (few.trans all.ge)
  rw [whole] at all
  exact ⟨by simpa using all, List.takeWhile_eq_self_iff.mp whole⟩

theorem fits_second {lead : Nat} {b : UInt8} (fit : fits lead (b, 0) = true) :
    (secondBounds lead).1 ≤ b.toNat ∧ b.toNat ≤ (secondBounds lead).2 := by
  simpa [fits] using fit

theorem fits_other {lead position : Nat} {b : UInt8} (fit : fits lead (b, position + 1) = true) :
    0x80 ≤ b.toNat ∧ b.toNat < 0xc0 := by
  simpa [fits, isContinuation] using fit

theorem toNat_ofNat {n : Nat} (valid : n < 0xd800 ∨ 0xdfff < n ∧ n < 0x110000) : (Char.ofNat n).toNat = n := by
  have same : Char.ofNat n = Char.ofNatAux n valid := dif_pos valid
  rw [same]
  rfl

/-- A leading byte and the bytes that follow it as it demands are the bytes of a character. -/
theorem utf8Char_codePoint {lead : UInt8} {tail : List UInt8} (count : followers? lead.toNat = some tail.length)
    (good : ∀ p ∈ tail.zipIdx, fits lead.toNat p) :
    utf8Char (Char.ofNat (codePoint lead.toNat tail)) = lead :: tail := by
  -- The bounds of the second byte keep the code point in the range of its length and out of the surrogates.
  unfold followers? at count
  split_ifs at count with one two three four
  all_goals have length := Option.some.inj count
  · obtain rfl := List.length_eq_zero_iff.mp length.symm
    have code : codePoint lead.toNat [] = lead.toNat := rfl
    rw [code, utf8Char, toNat_ofNat (by omega)]
    rw [if_pos one, byte_eq rfl]
  · obtain ⟨second, rfl⟩ := List.length_eq_one_iff.mp length.symm
    have bounds := fits_second (good (second, 0) (by simp))
    have code : codePoint lead.toNat [second] = 64 * (lead.toNat - 0xc0) + (second.toNat - 0x80) := rfl
    have wide : secondBounds lead.toNat = (0x80, 0xbf) := by
      simp only [secondBounds]
      split_ifs <;> first | omega | rfl
    rw [wide] at bounds
    rw [code, utf8Char, toNat_ofNat (by omega)]
    rw [if_neg (by omega), if_pos (by omega), byte_eq (by omega : _ = lead.toNat),
      byte_eq (by omega : _ = second.toNat)]
  · obtain ⟨second, third, rfl⟩ := List.length_eq_two.mp length.symm
    have bounds := fits_second (good (second, 0) (by simp))
    have later := fits_other (good (third, 0 + 1) (by simp))
    have code : codePoint lead.toNat [second, third] =
      64 * (64 * (lead.toNat - 0xe0) + (second.toNat - 0x80)) + (third.toNat - 0x80) := rfl
    have narrow : 0x80 ≤ second.toNat ∧ second.toNat ≤ 0xbf ∧ (lead.toNat = 0xe0 → 0xa0 ≤ second.toNat) ∧
        (lead.toNat = 0xed → second.toNat ≤ 0x9f) := by
      simp only [secondBounds] at bounds
      split_ifs at bounds <;> dsimp only at bounds <;> omega
    clear bounds
    rw [code, utf8Char, toNat_ofNat (by omega)]
    rw [if_neg (by omega), if_neg (by omega), if_pos (by omega), byte_eq (by omega : _ = lead.toNat),
      byte_eq (by omega : _ = second.toNat), byte_eq (by omega : _ = third.toNat)]
  · obtain ⟨second, third, fourth, rfl⟩ := List.length_eq_three.mp length.symm
    have bounds := fits_second (good (second, 0) (by simp))
    have later := fits_other (good (third, 0 + 1) (by simp))
    have last := fits_other (good (fourth, 1 + 1) (by simp))
    have code : codePoint lead.toNat [second, third, fourth] = 64 * (64 * (64 * (lead.toNat - 0xf0) +
      (second.toNat - 0x80)) + (third.toNat - 0x80)) + (fourth.toNat - 0x80) := rfl
    have narrow : 0x80 ≤ second.toNat ∧ second.toNat ≤ 0xbf ∧ (lead.toNat = 0xf0 → 0x90 ≤ second.toNat) ∧
        (lead.toNat = 0xf4 → second.toNat ≤ 0x8f) := by
      simp only [secondBounds] at bounds
      split_ifs at bounds <;> dsimp only at bounds <;> omega
    clear bounds
    rw [code, utf8Char, toNat_ofNat (by omega)]
    rw [if_neg (by omega), if_neg (by omega), if_neg (by omega), byte_eq (by omega : _ = lead.toNat),
      byte_eq (by omega : _ = second.toNat), byte_eq (by omega : _ = third.toNat),
      byte_eq (by omega : _ = fourth.toNat)]

/-- What is read from bytes has them as its bytes. -/
theorem utf8_of_readUtf8From {bytes : List UInt8} {start : Nat} {s : List Char}
    (read : readUtf8From start 0 bytes = .ok s) : utf8 s = bytes := by
  -- By the number of bytes, since the bytes behind a leading one are skipped together.
  induction length : bytes.length using Nat.strong_induction_on generalizing bytes start s with
  | _ n ih =>
    cases bytes with
    | nil =>
      obtain rfl := Except.ok.inj read
      rfl
    | cons lead rest =>
      rw [readUtf8From] at read
      cases count : followers? lead.toNat with
      | none => simp [count] at read
      | some many =>
        cases fault : followFault? lead.toNat many rest with
        | some found => simp [count, fault] at read
        | none =>
          obtain ⟨whole, good⟩ := fits_of_followFault? fault
          simp only [count, fault] at read
          have skipped := readUtf8From_skip (rest.take many) (rest.drop many) (start + 1)
          rw [List.take_append_drop, whole] at skipped
          rw [skipped] at read
          cases later : readUtf8From (start + 1 + many) 0 (rest.drop many) with
          | error e => simp [later] at read
          | ok s' =>
            rw [later] at read
            obtain rfl := Except.ok.inj read
            have remaining := ih _ (by simp at length ⊢; omega) later rfl
            have first := utf8Char_codePoint (count.trans (congrArg some whole.symm)) good
            have split : utf8 (Char.ofNat (codePoint lead.toNat (rest.take many)) :: s') =
              utf8Char (Char.ofNat (codePoint lead.toNat (rest.take many))) ++ utf8 s' := List.flatMap_cons
            rw [split, first, remaining, List.cons_append, List.take_append_drop]

/-- Bytes are read as a text exactly when they are its bytes. -/
theorem readUtf8_eq_ok {bytes : List UInt8} {s : List Char} : readUtf8 bytes = .ok s ↔ bytes = utf8 s :=
  ⟨fun read => (utf8_of_readUtf8From read).symm, fun same => same ▸ readUtf8_utf8 s⟩

end AgentConfig.Text
