import AgentConfig.Json.Token
import AgentConfig.Json.Writer
import Mathlib.Tactic

namespace AgentConfig.Json

/-- Four digits of a control character's number are read back from the next four bytes. -/
theorem hex4_hexDigits {n : Nat} (control : n < 32) (rest : List Char) :
    hex4 (Text.hexDigits 4 n ++ rest) = .ok (n, rest) := by
  have digits : ∀ n < 32, ∃ a b c d, Text.hexDigits 4 n = [a, b, c, d] ∧
      a.utf8Size + (b.utf8Size + (c.utf8Size + d.utf8Size)) = 4 ∧ hexValue? a = some 0 ∧
      hexValue? b = some 0 ∧ hexValue? c = some (n / 16) ∧ hexValue? d = some (n % 16) := by
    intro n control
    refine ⟨_, _, _, _, rfl, ?_⟩
    revert n
    decide
  obtain ⟨a, b, c, d, shape, bytes, ha, hb, hc, hd⟩ := digits n control
  have value : 16 * (n / 16) + n % 16 = n := Nat.div_add_mod n 16
  simp [hex4, shape, bytes, ha, hb, hc, hd, value]

theorem escaped_hexDigits {n : Nat} (control : n < 32) (rest : List Char) :
    escaped ('u' :: (Text.hexDigits 4 n ++ rest)) = .ok (Char.ofNat n, rest) := by
  have low : isLowSurrogate n = false := by
    simp only [isLowSurrogate, Bool.and_eq_false_iff, decide_eq_false_iff_not]; omega
  have high : isHighSurrogate n = false := by
    simp only [isHighSurrogate, Bool.and_eq_false_iff, decide_eq_false_iff_not]; omega
  simp [escaped, hex4_hexDigits control, bind, Except.bind, low, high]

theorem readText_quote (fuel : Nat) (rest : List Char) : readText (fuel + 1) ('"' :: rest) = .ok ([], rest) := by
  simp [readText]

theorem readText_escape {c : Char} {body rest : List Char} (meaning : escaped body = .ok (c, rest)) (fuel : Nat) :
    readText (fuel + 1) ('\\' :: body) = (fun (s, after) => (c :: s, after)) <$> readText fuel rest := by
  simp only [readText, meaning, bind, Except.bind, Functor.map, Except.map]
  cases readText fuel rest <;> rfl

theorem readText_self {c : Char} (quote : c ≠ '"') (backslash : c ≠ '\\') (visible : ¬ c.toNat < 0x20)
    (fuel : Nat) (rest : List Char) :
    readText (fuel + 1) (c :: rest) = (fun (s, after) => (c :: s, after)) <$> readText fuel rest := by
  simp only [readText, quote, backslash, visible, if_false, bind, Except.bind, Functor.map, Except.map]

/-- One character costs one round, whatever its written form. -/
theorem readText_textChar (fuel : Nat) (c : Char) (rest : List Char) :
    readText (fuel + 1) (textChar c ++ rest) = (fun (s, after) => (c :: s, after)) <$> readText fuel rest := by
  unfold textChar
  split_ifs with quote backslash backspace tab feed form carriage control
  iterate 7
    subst_vars
    refine readText_escape ?_ fuel
    rfl
  · refine readText_escape ?_ fuel
    exact (escaped_hexDigits control rest).trans (by rw [Char.ofNat_toNat])
  · exact readText_self quote backslash control fuel rest

/-- A written text is read back, and what follows its closing quote is left over. -/
theorem readText_flatMap (s rest : List Char) {fuel : Nat} (enough : s.length < fuel) :
    readText fuel (s.flatMap textChar ++ '"' :: rest) = .ok (s, rest) := by
  induction s generalizing fuel with
  | nil =>
    obtain ⟨fuel, rfl⟩ := Nat.exists_eq_succ_of_ne_zero (by omega : fuel ≠ 0)
    exact readText_quote fuel rest
  | cons c s ih =>
    obtain ⟨fuel, rfl⟩ := Nat.exists_eq_succ_of_ne_zero (by omega : fuel ≠ 0)
    rw [List.flatMap_cons, List.append_assoc, readText_textChar, ih (by simpa using enough)]
    rfl

theorem textChar_ne_nil (c : Char) : textChar c ≠ [] := by
  unfold textChar
  split_ifs <;> simp

theorem length_le_flatMap_textChar (s : List Char) : s.length ≤ (s.flatMap textChar).length := by
  induction s with
  | nil => simp
  | cons c s ih =>
    have positive := List.length_pos_iff.mpr (textChar_ne_nil c)
    simp only [List.flatMap_cons, List.length_append, List.length_cons]
    omega

end AgentConfig.Json
