import AgentConfig.Proofs.Except
import AgentConfig.Proofs.Json.Scalar
import AgentConfig.Proofs.Json.Text

namespace AgentConfig

mutual
/-- The values in a tree that are neither lists nor records. -/
def Tree.leaves : Tree → List Tree
  | .list items => itemLeaves items
  | .record entries => entryLeaves entries
  | t => [t]

def Tree.itemLeaves : List Tree → List Tree
  | [] => []
  | t :: rest => t.leaves ++ itemLeaves rest

def Tree.entryLeaves : List (String × Tree) → List Tree
  | [] => []
  | (_, t) :: rest => t.leaves ++ entryLeaves rest
end

namespace Json

mutual
/-- The tokens of a tree, whatever the layout. -/
def tokensFor : Tree → List Token
  | .list [] => [.listOpen, .listClose]
  | .list (t :: rest) => .listOpen :: (tokensFor t ++ itemTokens rest)
  | .record [] => [.recordOpen, .recordClose]
  | .record ((key, t) :: rest) => .recordOpen :: .text (.ok key) :: .colon :: (tokensFor t ++ entryTokens rest)
  | .text s => [.text (.ok s)]
  | t => [.scalar (.ok t)]

def itemTokens : List Tree → List Token
  | [] => [.listClose]
  | t :: rest => .comma :: (tokensFor t ++ itemTokens rest)

def entryTokens : List (String × Tree) → List Token
  | [] => [.recordClose]
  | (key, t) :: rest => .comma :: .text (.ok key) :: .colon :: (tokensFor t ++ entryTokens rest)
end

variable {limit : Nat}

/-- In front of `rest` the text is cut into these tokens. -/
def Lexes (limit : Nat) (text : List Char) (ts : List Token) (rest : List Char) : Prop :=
  ∀ fuel, (text ++ rest).length ≤ fuel → ∃ fuel', rest.length ≤ fuel' ∧
    tokens limit fuel (text ++ rest) = ts ++ tokens limit fuel' rest

/-- In front of `rest` the text ends in a scalar that cannot be read. -/
def Breaks (limit : Nat) (text rest : List Char) : Prop :=
  ∀ fuel, (text ++ rest).length ≤ fuel → ∃ before e, tokens limit fuel (text ++ rest) = before ++ [.scalar (.error e)]

/-- The text is cut into these tokens, or breaks, which takes a reason. -/
def Scans (limit : Nat) (reason : Prop) (text : List Char) (ts : List Token) (rest : List Char) : Prop :=
  Lexes limit text ts rest ∨ reason ∧ Breaks limit text rest

theorem Lexes.append {a b rest : List Char} {ts us : List Token} (first : Lexes limit a ts (b ++ rest))
    (second : Lexes limit b us rest) : Lexes limit (a ++ b) (ts ++ us) rest := by
  intro fuel enough
  rw [List.append_assoc] at enough ⊢
  obtain ⟨fuel, enough, eq⟩ := first fuel enough
  obtain ⟨fuel', enough', eq'⟩ := second fuel enough
  exact ⟨fuel', enough', by rw [eq, eq', List.append_assoc]⟩

theorem Lexes.breaks {a b rest : List Char} {ts : List Token} (first : Lexes limit a ts (b ++ rest))
    (second : Breaks limit b rest) : Breaks limit (a ++ b) rest := by
  intro fuel enough
  rw [List.append_assoc] at enough ⊢
  obtain ⟨fuel, enough, eq⟩ := first fuel enough
  obtain ⟨before, e, eq'⟩ := second fuel enough
  exact ⟨ts ++ before, e, by rw [eq, eq', List.append_assoc]⟩

theorem Breaks.append {a b rest : List Char} (first : Breaks limit a (b ++ rest)) : Breaks limit (a ++ b) rest := by
  intro fuel enough
  rw [List.append_assoc] at enough ⊢
  exact first fuel enough

theorem Scans.append {P Q : Prop} {a b rest : List Char} {ts us : List Token} (first : Scans limit P a ts (b ++ rest))
    (second : Scans limit Q b us rest) : Scans limit (P ∨ Q) (a ++ b) (ts ++ us) rest := by
  rcases first with first | ⟨reason, first⟩
  · rcases second with second | ⟨reason, second⟩
    · exact .inl (first.append second)
    · exact .inr ⟨.inr reason, first.breaks second⟩
  · exact .inr ⟨.inl reason, first.append⟩

theorem Scans.imp {P Q : Prop} {text rest : List Char} {ts : List Token} (scans : Scans limit P text ts rest)
    (weaker : P → Q) : Scans limit Q text ts rest :=
  scans.imp_right fun ⟨reason, breaks⟩ => ⟨weaker reason, breaks⟩

theorem lexes_nil (rest : List Char) : Lexes limit [] [] rest :=
  fun fuel enough => ⟨fuel, enough, rfl⟩

/-- As long as there is text left, there is fuel left. -/
theorem exists_fuel {c : Char} {s : List Char} {fuel : Nat} (enough : (c :: s).length ≤ fuel) : ∃ less, fuel = less + 1 :=
  Nat.exists_eq_succ_of_ne_zero (Nat.ne_of_gt (Nat.zero_lt_of_lt enough))

theorem Lexes.cons {c : Char} {ts us : List Token} {text rest : List Char}
    (step : ∀ fuel, tokens limit (fuel + 1) (c :: (text ++ rest)) = us ++ tokens limit fuel (text ++ rest))
    (more : Lexes limit text ts rest) : Lexes limit (c :: text) (us ++ ts) rest := by
  intro fuel enough
  obtain ⟨fuel, rfl⟩ := exists_fuel enough
  obtain ⟨fuel', enough', eq⟩ := more fuel (by simpa using enough)
  exact ⟨fuel', enough', by rw [List.cons_append, step, eq, List.append_assoc]⟩

/-- The marks that are tokens by themselves. -/
def mark? : Char → Option Token
  | '[' => some .listOpen
  | ']' => some .listClose
  | '{' => some .recordOpen
  | '}' => some .recordClose
  | ',' => some .comma
  | ':' => some .colon
  | _ => none

theorem lexes_mark {c : Char} {t : Token} (mark : mark? c = some t) (rest : List Char) : Lexes limit [c] [t] rest := by
  have step : ∀ fuel, tokens limit (fuel + 1) (c :: ([] ++ rest)) = [t] ++ tokens limit fuel ([] ++ rest) := by
    intro fuel
    unfold mark? at mark
    split at mark <;> first | contradiction | (obtain rfl := Option.some.inj mark; rfl)
  exact Lexes.cons step (lexes_nil rest)

theorem tokens_space {c : Char} (space : isSpace c) (fuel : Nat) (rest : List Char) :
    tokens limit (fuel + 1) (c :: rest) = tokens limit fuel rest := by
  simp [tokens, space]

theorem lexes_space {c : Char} (space : isSpace c) (rest : List Char) : Lexes limit [c] [] rest :=
  have step : ∀ fuel, tokens limit (fuel + 1) (c :: ([] ++ rest)) = [] ++ tokens limit fuel ([] ++ rest) := fun fuel =>
    tokens_space space fuel rest
  Lexes.cons step (lexes_nil rest)

theorem lexes_blanks {blanks : List Char} (blank : ∀ c ∈ blanks, isSpace c) (rest : List Char) :
    Lexes limit blanks [] rest := by
  induction blanks with
  | nil => exact lexes_nil rest
  | cons c blanks ih =>
    have first : Lexes limit [c] [] (blanks ++ rest) := lexes_space (blank c List.mem_cons_self) _
    exact first.append (ih fun c member => blank c (List.mem_cons_of_mem _ member))

theorem lexes_lineBreak (indent : Indent) (level : Nat) (rest : List Char) :
    Lexes limit (lineBreak indent level) [] rest := by
  cases indent with
  | none => exact lexes_nil rest
  | some width =>
    refine lexes_blanks (fun c member => ?_) rest
    obtain rfl | member := List.mem_cons.mp member
    · rfl
    · rw [List.eq_of_mem_replicate member]
      rfl

/-- Behind its opening quote a text is read whatever is behind it. -/
theorem lexes_text {used content : List Char}
    (read : ∀ fuel after, used.length ≤ fuel → readText fuel (used ++ after) = .ok (content, after)) (rest : List Char) :
    Lexes limit ('"' :: used) [.text (.ok (String.ofList content))] rest := by
  intro fuel enough
  obtain ⟨fuel, rfl⟩ := exists_fuel enough
  simp only [List.cons_append, List.length_cons, List.length_append] at enough
  refine ⟨fuel, by omega, ?_⟩
  rw [List.cons_append]
  simp [tokens, isSpace, read fuel rest (by omega)]

theorem lexes_writeText (s : String) (rest : List Char) : Lexes limit (writeText s) [.text (.ok s)] rest := by
  have read : ∀ fuel after, (s.toList.flatMap textChar ++ ['"']).length ≤ fuel →
      readText fuel (s.toList.flatMap textChar ++ ['"'] ++ after) = .ok (s.toList, after) := by
    intro fuel after enough
    have length := length_le_flatMap_textChar s.toList
    rw [List.length_append, List.length_singleton] at enough
    rw [List.append_assoc]
    exact readText_flatMap s.toList after (by omega)
  have text : Lexes limit (writeText s) [.text (.ok (String.ofList s.toList))] rest := lexes_text read rest
  rwa [String.ofList_toList] at text

theorem lexes_writeKey (indent : Indent) (key : String) (rest : List Char) :
    Lexes limit (writeKey indent key) [.text (.ok key), .colon] rest := by
  have colon : Lexes limit (':' :: (if indent.isSome then [' '] else [])) [.colon] rest := by
    cases indent with
    | none => exact lexes_mark rfl rest
    | some width => exact (lexes_mark (t := .colon) rfl _).append (lexes_space rfl rest)
  exact (lexes_writeText key _).append colon

theorem not_isSpace_of_startsScalar {c : Char} (starts : startsScalar c) : isSpace c = false := by
  by_contra space
  simp only [Bool.not_eq_false, isSpace, Bool.or_eq_true, beq_iff_eq] at space
  rcases space with ((rfl | rfl) | rfl) | rfl <;> exact absurd starts (by decide)

theorem tokens_scalar {c : Char} {t : Tree} {rest after : List Char} (starts : startsScalar c)
    (read : readScalar limit (c :: rest) = .ok (t, after)) (fuel : Nat) :
    tokens limit (fuel + 1) (c :: rest) = .scalar (.ok t) :: tokens limit fuel after := by
  simp only [tokens, not_isSpace_of_startsScalar starts, Bool.false_eq_true, if_false, starts, if_true, read]
  split <;> first | exact absurd starts (by decide) | rfl

theorem tokens_refused {c : Char} {e : Error} {rest : List Char} (starts : startsScalar c)
    (read : readScalar limit (c :: rest) = .error e) (fuel : Nat) :
    tokens limit (fuel + 1) (c :: rest) = [.scalar (.error e)] := by
  simp only [tokens, not_isSpace_of_startsScalar starts, Bool.false_eq_true, if_false, starts, if_true, read]
  split <;> first | exact absurd starts (by decide) | rfl

theorem Reads.lexes {text rest : List Char} {t : Tree} (reads : Reads limit text t) (ends : EndsScalar rest) :
    Lexes limit text [.scalar (.ok t)] rest := by
  obtain ⟨c, head, starts⟩ := reads.starts
  obtain ⟨d, more, rfl⟩ : ∃ d more, text = d :: more := List.exists_cons_of_ne_nil (by rintro rfl; simp at head)
  obtain rfl : d = c := by simpa using head
  intro fuel enough
  obtain ⟨fuel, rfl⟩ := exists_fuel enough
  refine ⟨fuel, by simp at enough; omega, ?_⟩
  have read := reads.read rest ends
  rw [List.cons_append] at read ⊢
  exact tokens_scalar starts read fuel

/-- Whether a tree holds an integer that is too long to be read. -/
def HoldsLong (limit : Nat) (leaves : List Tree) : Prop :=
  ∃ n : Int, Tree.int n ∈ leaves ∧ limit < (decimalDigits n.natAbs).length

/-- Whether no number in a tree is infinite or NaN. -/
def AllFinite (leaves : List Tree) : Prop :=
  ∀ x, Tree.float x ∈ leaves → x.isFinite

theorem scans_int (limit : Nat) (n : Int) {rest : List Char} (ends : EndsScalar rest) :
    Scans limit (HoldsLong limit [.int n]) (writeInt n) [.scalar (.ok (.int n))] rest := by
  by_cases short : (decimalDigits n.natAbs).length ≤ limit
  · exact .inl ((reads_int short).lexes ends)
  · refine .inr ⟨⟨n, by simp, Nat.lt_of_not_le short⟩, fun fuel enough => ?_⟩
    obtain ⟨e, refused⟩ := readScalar_long (Nat.lt_of_not_le short) ends
    obtain ⟨c, more, shape, starts⟩ : ∃ c more, writeInt n = c :: more ∧ startsScalar c := by
      obtain ⟨c, head, starts⟩ := (reads_int (n := n) le_rfl).starts
      obtain ⟨d, more, shape⟩ := List.exists_cons_of_ne_nil (l := writeInt n) (by
        intro empty
        simp [empty] at head)
      obtain rfl : d = c := by simpa [shape] using head
      exact ⟨d, more, shape, starts⟩
    rw [shape, List.cons_append] at refused enough ⊢
    obtain ⟨fuel, rfl⟩ := exists_fuel enough
    exact ⟨[], e, tokens_refused starts refused fuel⟩

theorem endsScalar_lineBreak (indent : Indent) (level : Nat) {c : Char} (rest : List Char)
    (closes : c ∈ [',', ']', '}', '\n']) : EndsScalar (lineBreak indent level ++ c :: rest) := by
  cases indent with
  | none => exact endsScalar_cons rest closes
  | some width => exact endsScalar_cons _ (by simp)

theorem endsScalar_writeItems (indent : Indent) (level : Nat) (items : List Tree) (rest : List Char) :
    EndsScalar (writeItems indent level items ++ rest) := by
  cases items with
  | nil => rw [writeItems, List.append_assoc]; exact endsScalar_lineBreak indent level rest (by simp)
  | cons t items => exact endsScalar_cons _ (by simp)

theorem endsScalar_writeEntries (indent : Indent) (level : Nat) (entries : List (String × Tree)) (rest : List Char) :
    EndsScalar (writeEntries indent level entries ++ rest) := by
  cases entries with
  | nil => rw [writeEntries, List.append_assoc]; exact endsScalar_lineBreak indent level rest (by simp)
  | cons entry entries => exact endsScalar_cons _ (by simp)

/-- Tokens that are certain, then a part that may break, then another. -/
theorem scans_parts {P Q : Prop} {a b c rest : List Char} {ts us vs : List Token}
    (opening : Lexes limit a ts (b ++ (c ++ rest))) (first : Scans limit P b us (c ++ rest))
    (others : Scans limit Q c vs rest) : Scans limit (P ∨ Q) (a ++ (b ++ c)) (ts ++ (us ++ vs)) rest := by
  have certain : Scans limit False a ts (b ++ c ++ rest) := .inl (by rwa [List.append_assoc])
  exact (certain.append (first.append others)).imp (by tauto)

theorem holdsLong_append {as bs : List Tree} (either : HoldsLong limit as ∨ HoldsLong limit bs) :
    HoldsLong limit (as ++ bs) := by
  rcases either with ⟨n, member, long⟩ | ⟨n, member, long⟩
  · exact ⟨n, List.mem_append_left _ member, long⟩
  · exact ⟨n, List.mem_append_right _ member, long⟩

theorem AllFinite.left {as bs : List Tree} (finite : AllFinite (as ++ bs)) : AllFinite as :=
  fun x member => finite x (List.mem_append_left _ member)

theorem AllFinite.right {as bs : List Tree} (finite : AllFinite (as ++ bs)) : AllFinite bs :=
  fun x member => finite x (List.mem_append_right _ member)

mutual
/-- Written data are cut into their tokens, unless an integer in them is too long. -/
theorem scans_writeAt (enough : 16 < limit) (indent : Indent) (level : Nat) : ∀ (t : Tree) {rest : List Char},
    AllFinite t.leaves → EndsScalar rest →
      Scans limit (HoldsLong limit t.leaves) (writeAt indent level t) (tokensFor t) rest
  | .null, _, _, ends => .inl ((reads_null limit).lexes ends)
  | .bool b, _, _, ends => .inl ((reads_bool limit b).lexes ends)
  | .int n, _, _, ends => scans_int limit n ends
  | .float (.finite negative rank), _, _, ends => .inl ((reads_float negative rank enough).lexes ends)
  | .float .nan, _, finite, _ => absurd (finite .nan (List.mem_singleton_self _)) (by decide)
  | .float (.infinite negative), _, finite, _ =>
    absurd (finite (.infinite negative) (List.mem_singleton_self _)) (by simp [Binary64.isFinite])
  | .text s, _, _, _ => .inl (lexes_writeText s _)
  | .list [], _, _, _ => .inl ((lexes_mark (t := .listOpen) rfl _).append (lexes_mark rfl _))
  | .record [], _, _, _ => .inl ((lexes_mark (t := .recordOpen) rfl _).append (lexes_mark rfl _))
  | .list (t :: items), rest, finite, _ => by
    have text : writeAt indent level (.list (t :: items)) = (['['] ++ lineBreak indent (level + 1)) ++
        (writeAt indent (level + 1) t ++ writeItems indent level items) := by simp [writeAt]
    have opening : ∀ after, Lexes limit (['['] ++ lineBreak indent (level + 1)) ([.listOpen] ++ []) after := fun _ =>
      (lexes_mark rfl _).append (lexes_lineBreak _ _ _)
    have first := scans_writeAt enough indent (level + 1) t finite.left
      (endsScalar_writeItems indent level items rest)
    rw [text]
    exact (scans_parts (opening _) first (scans_writeItems enough indent level items finite.right)).imp holdsLong_append
  | .record ((key, t) :: entries), rest, finite, _ => by
    have text : writeAt indent level (.record ((key, t) :: entries)) =
        (['{'] ++ (lineBreak indent (level + 1) ++ writeKey indent key)) ++
          (writeAt indent (level + 1) t ++ writeEntries indent level entries) := by simp [writeAt]
    have opening : ∀ after, Lexes limit (['{'] ++ (lineBreak indent (level + 1) ++ writeKey indent key))
        ([.recordOpen] ++ ([] ++ [.text (.ok key), .colon])) after := fun _ =>
      (lexes_mark rfl _).append ((lexes_lineBreak _ _ _).append (lexes_writeKey _ _ _))
    have first := scans_writeAt enough indent (level + 1) t finite.left
      (endsScalar_writeEntries indent level entries rest)
    rw [text]
    exact (scans_parts (opening _) first (scans_writeEntries enough indent level entries finite.right)).imp holdsLong_append

theorem scans_writeItems (enough : 16 < limit) (indent : Indent) (level : Nat) : ∀ (items : List Tree) {rest : List Char},
    AllFinite (Tree.itemLeaves items) →
      Scans limit (HoldsLong limit (Tree.itemLeaves items)) (writeItems indent level items) (itemTokens items) rest
  | [], rest, _ => .inl ((lexes_lineBreak indent level _).append (lexes_mark rfl rest))
  | t :: items, rest, finite => by
    have text : writeItems indent level (t :: items) = ([','] ++ lineBreak indent (level + 1)) ++
        (writeAt indent (level + 1) t ++ writeItems indent level items) := by simp [writeItems]
    have opening : ∀ after, Lexes limit ([','] ++ lineBreak indent (level + 1)) ([.comma] ++ []) after := fun _ =>
      (lexes_mark rfl _).append (lexes_lineBreak _ _ _)
    have first := scans_writeAt enough indent (level + 1) t finite.left
      (endsScalar_writeItems indent level items rest)
    rw [text]
    exact (scans_parts (opening _) first (scans_writeItems enough indent level items finite.right)).imp holdsLong_append

theorem scans_writeEntries (enough : 16 < limit) (indent : Indent) (level : Nat) :
    ∀ (entries : List (String × Tree)) {rest : List Char}, AllFinite (Tree.entryLeaves entries) →
      Scans limit (HoldsLong limit (Tree.entryLeaves entries)) (writeEntries indent level entries)
        (entryTokens entries) rest
  | [], rest, _ => .inl ((lexes_lineBreak indent level _).append (lexes_mark rfl rest))
  | (key, t) :: entries, rest, finite => by
    have text : writeEntries indent level ((key, t) :: entries) =
        ([','] ++ (lineBreak indent (level + 1) ++ writeKey indent key)) ++
          (writeAt indent (level + 1) t ++ writeEntries indent level entries) := by simp [writeEntries]
    have opening : ∀ after, Lexes limit ([','] ++ (lineBreak indent (level + 1) ++ writeKey indent key))
        ([.comma] ++ ([] ++ [.text (.ok key), .colon])) after := fun _ =>
      (lexes_mark rfl _).append ((lexes_lineBreak _ _ _).append (lexes_writeKey _ _ _))
    have first := scans_writeAt enough indent (level + 1) t finite.left
      (endsScalar_writeEntries indent level entries rest)
    rw [text]
    exact (scans_parts (opening _) first (scans_writeEntries enough indent level entries finite.right)).imp holdsLong_append
end

theorem length_decimalDigits_natOfDigits {digits : List Char} (nonempty : digits ≠ []) (all : digits.all isDigit) :
    (decimalDigits (natOfDigits digits)).length ≤ digits.length := by
  refine (Nat.length_toDigits_le_iff (by decide) (List.length_pos_iff.mpr nonempty)).mpr ?_
  clear nonempty
  induction digits using List.reverseRecOn with
  | nil => decide
  | append_singleton digits d ih =>
    simp only [List.all_append, List.all_cons, List.all_nil, Bool.and_true, Bool.and_eq_true] at all
    have bound := isDigit_iff.mp all.2
    have value : natOfDigits [d] = d.toNat - 48 := by simp [natOfDigits]
    have smaller := ih all.1
    have power : 10 ^ (digits.length + 1) = 10 * 10 ^ digits.length := by ring
    rw [natOfDigits_append, value, List.length_append, List.length_singleton, power, pow_one]
    omega

/-- Integers that are read are short enough. -/
theorem readUnsigned_short {negative : Bool} {s rest : List Char} {t : Tree}
    (read : readUnsigned limit negative s = .ok (t, rest)) : ¬ HoldsLong limit t.leaves := by
  obtain ⟨whole, _, fraction, _, exponent, digits, -, short, -, -, rfl⟩ := readUnsigned_eq_ok_iff.mp read
  obtain ⟨-, nonempty, all⟩ := readDigits_eq_ok digits
  rintro ⟨n, member, long⟩
  rw [numberFrom] at member
  split at member
  · simp only [Tree.leaves, List.mem_singleton, Tree.int.injEq] at member
    have length := length_decimalDigits_natOfDigits nonempty all
    have size : n.natAbs = natOfDigits whole := by rw [member]; split_ifs <;> simp
    rw [size] at long
    omega
  · simp [Tree.leaves] at member

theorem readScalar_short {s rest : List Char} {t : Tree} (read : readScalar limit s = .ok (t, rest)) :
    ¬ HoldsLong limit t.leaves := by
  unfold readScalar at read
  split at read
  case h_2 | h_8 => exact readUnsigned_short read
  all_goals
    obtain ⟨after, _, same⟩ := map_eq_ok read
    obtain rfl := (Prod.mk.inj same).1
    rintro ⟨n, member, _⟩
    simp [Tree.leaves] at member

/-- A scalar among the tokens was read somewhere. -/
theorem readScalar_of_mem_tokens {fuel : Nat} {s : List Char} {t : Tree}
    (member : .scalar (.ok t) ∈ tokens limit fuel s) : ∃ s rest, readScalar limit s = .ok (t, rest) := by
  induction fuel generalizing s with
  | zero => simp [tokens] at member
  | succ fuel ih =>
    cases s with
    | nil => simp [tokens] at member
    | cons c rest =>
      -- Marks and texts are not the scalar, so it is among the tokens behind them.
      have skip : ∀ token, (∀ u, token ≠ .scalar (.ok u)) → .scalar (.ok t) ∈ token :: tokens limit fuel rest →
          ∃ s rest, readScalar limit s = .ok (t, rest) := fun token other found =>
        ih ((List.mem_cons.mp found).resolve_left (other t).symm)
      simp only [tokens] at member
      by_cases space : isSpace c
      · rw [if_pos space] at member
        exact ih member
      · rw [if_neg space] at member
        split at member
        · exact skip _ (by simp) member
        · exact skip _ (by simp) member
        · exact skip _ (by simp) member
        · exact skip _ (by simp) member
        · exact skip _ (by simp) member
        · exact skip _ (by simp) member
        · split at member
          · exact ih ((List.mem_cons.mp member).resolve_left (by simp))
          · simp at member
        · split_ifs at member with starts
          · split at member
            · rename_i read
              rcases List.mem_cons.mp member with same | member
              · simp only [Token.scalar.injEq, Except.ok.injEq] at same
                exact same ▸ ⟨_, _, read⟩
              · exact ih member
            · simp at member
          · simp at member

/-- Integers among the tokens are short enough. -/
theorem tokens_short {fuel : Nat} {s : List Char} {t : Tree} (member : .scalar (.ok t) ∈ tokens limit fuel s) :
    ¬ HoldsLong limit t.leaves := by
  obtain ⟨s, rest, read⟩ := readScalar_of_mem_tokens member
  exact readScalar_short read

theorem readUnsigned_leaf {negative : Bool} {s rest : List Char} {t : Tree}
    (read : readUnsigned limit negative s = .ok (t, rest)) : tokensFor t = [.scalar (.ok t)] := by
  obtain ⟨whole, _, fraction, _, exponent, -, -, -, -, -, rfl⟩ := readUnsigned_eq_ok_iff.mp read
  unfold numberFrom
  split_ifs <;> rfl

/-- What is read as a scalar is one. -/
theorem readScalar_leaf {s rest : List Char} {t : Tree} (read : readScalar limit s = .ok (t, rest)) :
    tokensFor t = [.scalar (.ok t)] := by
  unfold readScalar at read
  split at read
  case h_2 | h_8 => exact readUnsigned_leaf read
  all_goals
    obtain ⟨after, -, same⟩ := map_eq_ok read
    obtain rfl := (Prod.mk.inj same).1
    rfl

/-- All scalars among the tokens that can be read are leaves. -/
def Leafy (ts : List Token) : Prop :=
  ∀ t, .scalar (.ok t) ∈ ts → tokensFor t = [.scalar (.ok t)]

theorem leafy_tokens (limit fuel : Nat) (s : List Char) : Leafy (tokens limit fuel s) := by
  intro t member
  obtain ⟨s, rest, read⟩ := readScalar_of_mem_tokens member
  exact readScalar_leaf read

end Json
end AgentConfig
