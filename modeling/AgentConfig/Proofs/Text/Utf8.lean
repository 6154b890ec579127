import AgentConfig.Text.Utf8
import Mathlib.Data.List.TakeWhile
import Mathlib.Tactic

namespace AgentConfig.Text

theorem toNat_byte {n : Nat} (small : n < 256) : (byte n).toNat = n := by
  rw [byte, UInt8.toNat_ofNat']
  exact Nat.mod_eq_of_lt small

/-- Nothing is wrong with bytes of which the second lies in its bounds and the others are continuations. -/
theorem followFault?_eq_none {lead : Nat} {second : UInt8} {others : List UInt8}
    (bounds : (secondBounds lead).1 ≤ second.toNat ∧ second.toNat ≤ (secondBounds lead).2)
    (continuations : ∀ b ∈ others, isContinuation b = true) (rest : List UInt8) :
    followFault? lead (second :: others).length (second :: others ++ rest) = none := by
  have all : ∀ p ∈ (second :: others).zipIdx, (if p.2 = 0 then
      decide ((secondBounds lead).1 ≤ p.1.toNat) && decide (p.1.toNat ≤ (secondBounds lead).2)
      else isContinuation p.1) = true := by
    rw [List.zipIdx_cons]
    intro p member
    obtain rfl | member := List.mem_cons.mp member
    · simp [bounds]
    · obtain ⟨later, -, same⟩ := List.mem_zipIdx member
      rw [if_neg (by omega)]
      exact continuations _ (same ▸ List.getElem_mem _)
  rw [followFault?, List.take_left, List.takeWhile_eq_self_iff.mpr all]
  simp

/-- The bytes of a character: a leading byte, and as many as it announces. -/
theorem utf8Char_shape (c : Char) : ∃ lead tail, utf8Char c = lead :: tail ∧
    followers? lead.toNat = some tail.length ∧
    (∀ rest, followFault? lead.toNat tail.length (tail ++ rest) = none) ∧ codePoint lead.toNat tail = c.toNat := by
  have valid : c.toNat < 0xd800 ∨ 0xdfff < c.toNat ∧ c.toNat < 0x110000 := c.valid
  have continuation {n : Nat} (low : 0x80 ≤ n) (high : n < 0xc0) : isContinuation (byte n) = true := by
    rw [isContinuation, toNat_byte (by omega)]
    simp [low, high]
  rw [utf8Char]
  generalize c.toNat = n at valid ⊢
  -- One case for each number of bytes. The bounds of the second byte rule out surrogates and longer spellings.
  split_ifs with one two three
  · refine ⟨_, _, rfl, ?_, fun rest => ?_, ?_⟩
    all_goals rw [toNat_byte (by omega)]
    · simp [followers?, one]
    · simp [followFault?]
    · simp [codePoint]
  · refine ⟨_, _, rfl, ?_, fun rest => followFault?_eq_none ?_ (by simp) rest, ?_⟩
    · rw [toNat_byte (by omega), followers?, if_neg (by omega), if_pos (by omega)]
      rfl
    · rw [toNat_byte (by omega), toNat_byte (by omega)]
      simp only [secondBounds]
      split_ifs <;> omega
    · simp only [codePoint, List.length_singleton, List.foldl_cons, List.foldl_nil]
      rw [toNat_byte (by omega), toNat_byte (by omega)]
      omega
  · have others : ∀ b ∈ [byte (0x80 + n % 64)], isContinuation b = true := by
      simpa using continuation (by omega) (by omega)
    refine ⟨_, _, rfl, ?_, fun rest => followFault?_eq_none ?_ others rest, ?_⟩
    · rw [toNat_byte (by omega), followers?, if_neg (by omega), if_neg (by omega), if_pos (by omega)]
      rfl
    · rw [toNat_byte (by omega), toNat_byte (by omega)]
      simp only [secondBounds]
      split_ifs <;> omega
    · simp only [codePoint, List.length_cons, List.length_nil, List.foldl_cons, List.foldl_nil]
      rw [toNat_byte (by omega), toNat_byte (by omega), toNat_byte (by omega)]
      omega
  · have others : ∀ b ∈ [byte (0x80 + n / 64 % 64), byte (0x80 + n % 64)], isContinuation b = true := by
      simpa using ⟨continuation (by omega) (by omega), continuation (by omega) (by omega)⟩
    refine ⟨_, _, rfl, ?_, fun rest => followFault?_eq_none ?_ others rest, ?_⟩
    · rw [toNat_byte (by omega), followers?, if_neg (by omega), if_neg (by omega), if_neg (by omega), if_pos (by omega)]
      rfl
    · rw [toNat_byte (by omega), toNat_byte (by omega)]
      simp only [secondBounds]
      split_ifs <;> omega
    · simp only [codePoint, List.length_cons, List.length_nil, List.foldl_cons, List.foldl_nil]
      rw [toNat_byte (by omega), toNat_byte (by omega), toNat_byte (by omega), toNat_byte (by omega)]
      omega

theorem readUtf8From_skip (tail rest : List UInt8) (start : Nat) :
    readUtf8From start tail.length (tail ++ rest) = readUtf8From (start + tail.length) 0 rest := by
  induction tail generalizing start with
  | nil => rfl
  | cons b tail ih =>
    rw [List.length_cons, List.cons_append, readUtf8From, ih, Nat.add_assoc, Nat.add_comm 1]

theorem readUtf8From_utf8Char (c : Char) (start : Nat) (rest : List UInt8) :
    ∃ next, readUtf8From start 0 (utf8Char c ++ rest) = (c :: ·) <$> readUtf8From next 0 rest := by
  obtain ⟨lead, tail, shape, count, faultless, code⟩ := utf8Char_shape c
  refine ⟨start + 1 + tail.length, ?_⟩
  have value : Char.ofNat (codePoint lead.toNat ((tail ++ rest).take tail.length)) = c := by
    rw [List.take_left, code, Char.ofNat_toNat]
  rw [shape, List.cons_append, readUtf8From, count]
  simp only [faultless, value, readUtf8From_skip]

/-- Text is read back from its bytes. -/
theorem readUtf8_utf8 (s : List Char) : readUtf8 (utf8 s) = .ok s := by
  have read : ∀ start, readUtf8From start 0 (utf8 s) = .ok s := by
    induction s with
    | nil => intro start; rfl
    | cons c s ih =>
      intro start
      obtain ⟨next, first⟩ := readUtf8From_utf8Char c start (utf8 s)
      have whole : utf8 (c :: s) = utf8Char c ++ utf8 s := List.flatMap_cons
      rw [whole, first, ih]
      rfl
  exact read 0

/-- A text has no more characters than bytes. -/
theorem length_le_utf8 (s : List Char) : s.length ≤ (utf8 s).length := by
  induction s with
  | nil => exact Nat.zero_le _
  | cons c s ih =>
    obtain ⟨lead, tail, shape, -⟩ := utf8Char_shape c
    have whole : utf8 (c :: s) = utf8Char c ++ utf8 s := List.flatMap_cons
    rw [whole, shape, List.length_append, List.length_cons, List.length_cons]
    omega

/-- It has at most four bytes for each character. -/
theorem utf8_le_length (s : List Char) : (utf8 s).length ≤ 4 * s.length := by
  induction s with
  | nil => exact Nat.zero_le _
  | cons c s ih =>
    have few : (utf8Char c).length ≤ 4 := by
      rw [utf8Char]
      generalize c.toNat = n
      split_ifs <;> simp
    have whole : utf8 (c :: s) = utf8Char c ++ utf8 s := List.flatMap_cons
    rw [whole, List.length_append, List.length_cons]
    omega

/-- Without carriage returns nothing happens to line ends. -/
theorem unifyLineEnds_self {s : List Char} (clean : ∀ c ∈ s, c ≠ '\r') : unifyLineEnds s = s := by
  induction s using unifyLineEnds.induct with
  | case1 => rfl
  | case2 rest ih => exact absurd rfl (clean '\r' List.mem_cons_self)
  | case3 c rest other ih =>
    obtain ⟨apart, others⟩ := List.forall_mem_cons.mp clean
    rw [unifyLineEnds.eq_3 c rest other, if_neg apart, ih others]

end AgentConfig.Text
