import AgentConfig.Json.Reader
import AgentConfig.Proofs.Except
import AgentConfig.Proofs.Json.Lexing

namespace AgentConfig

mutual
/-- How deep lists and records that are not empty are nested in a tree. -/
def Tree.depth : Tree → Nat
  | .list (t :: rest) => max t.depth (itemDepth rest) + 1
  | .record ((_, t) :: rest) => max t.depth (entryDepth rest) + 1
  | _ => 0

def Tree.itemDepth : List Tree → Nat
  | [] => 0
  | t :: rest => max t.depth (itemDepth rest)

def Tree.entryDepth : List (String × Tree) → Nat
  | [] => 0
  | (_, t) :: rest => max t.depth (entryDepth rest)
end

namespace Json

/-- The tokens that a tree may begin with. -/
inductive Opens : Token → Prop
  | list : Opens .listOpen
  | record : Opens .recordOpen
  | text (s : String) : Opens (.text (.ok s))
  | scalar (t : Tree) : Opens (.scalar (.ok t))

theorem tokensFor_cons (t : Tree) : ∃ first more, tokensFor t = first :: more ∧ Opens first := by
  cases t with
  | list items => cases items <;> exact ⟨_, _, rfl, .list⟩
  | record entries =>
    cases entries with
    | nil => exact ⟨_, _, rfl, .record⟩
    | cons entry entries => exact ⟨_, _, rfl, .record⟩
  | text s => exact ⟨_, _, rfl, .text s⟩
  | null | bool | int | float => exact ⟨_, _, rfl, .scalar _⟩

mutual
/-- The tokens of a tree are read as the tree. -/
theorem readValue_tokensFor : ∀ (t : Tree) (fuel depth : Nat) (rest : List Token),
    2 * (tokensFor t).length ≤ fuel → t.depth ≤ depth → readValue fuel depth (tokensFor t ++ rest) = .ok (t, rest)
  | .null, fuel + 1, depth, rest, _, _ | .bool b, fuel + 1, depth, rest, _, _ | .int n, fuel + 1, depth, rest, _, _
  | .float x, fuel + 1, depth, rest, _, _ | .text s, fuel + 1, depth, rest, _, _ => rfl
  | .list [], fuel + 1, depth, rest, _, _ | .record [], fuel + 1, depth, rest, _, _ => rfl
  | .list (t :: items), fuel + 1, depth + 1, rest, enough, shallow => by
    simp only [tokensFor, List.length_cons, List.length_append] at enough
    simp only [Tree.depth, Nat.add_le_add_iff_right, max_le_iff] at shallow
    have read := readItems_tokensFor t items fuel depth rest (by omega) shallow.1 shallow.2
    obtain ⟨first, more, shape, opens⟩ := tokensFor_cons t
    simp only [tokensFor, List.cons_append, List.append_assoc]
    rw [shape] at read ⊢
    cases opens <;> simp only [List.cons_append] at read ⊢ <;> simp [readValue, read, bind, Except.bind]
  | .record ((key, t) :: entries), fuel + 1, depth + 1, rest, enough, shallow => by
    simp only [tokensFor, List.length_cons, List.length_append] at enough
    simp only [Tree.depth, Nat.add_le_add_iff_right, max_le_iff] at shallow
    have read := readEntries_tokensFor key t entries fuel depth rest (by omega) shallow.1 shallow.2
    simp [tokensFor, readValue, readKey, read, bind, Except.bind]
  | .list (t :: items), fuel, 0, rest, _, shallow => by simp [Tree.depth] at shallow
  | .record ((key, t) :: entries), fuel, 0, rest, _, shallow => by simp [Tree.depth] at shallow
  | t, 0, depth, rest, enough, _ => by
    obtain ⟨first, more, shape, _⟩ := tokensFor_cons t
    simp [shape] at enough

theorem readItems_tokensFor : ∀ (t : Tree) (items : List Tree) (fuel depth : Nat) (rest : List Token),
    2 * ((tokensFor t).length + (itemTokens items).length) ≤ fuel → t.depth ≤ depth → Tree.itemDepth items ≤ depth →
      readItems fuel depth (tokensFor t ++ (itemTokens items ++ rest)) = .ok (t :: items, rest)
  | t, items, 0, depth, rest, enough, _, _ => by
    obtain ⟨first, more, shape, _⟩ := tokensFor_cons t
    simp [shape] at enough
  | t, [], fuel + 1, depth, rest, enough, shallow, _ => by
    simp only [itemTokens, List.length_singleton] at enough
    have read := readValue_tokensFor t fuel depth (itemTokens [] ++ rest) (by omega) shallow
    simp only [readItems, read, bind, Except.bind]
    rfl
  | t, next :: items, fuel + 1, depth, rest, enough, shallow, shallows => by
    simp only [itemTokens, List.length_cons, List.length_append] at enough
    simp only [Tree.itemDepth, max_le_iff] at shallows
    have read := readValue_tokensFor t fuel depth (itemTokens (next :: items) ++ rest) (by omega) shallow
    have others := readItems_tokensFor next items fuel depth rest (by omega) shallows.1 shallows.2
    obtain ⟨first, more, shape, opens⟩ := tokensFor_cons next
    simp only [readItems, read, bind, Except.bind]
    simp only [itemTokens, List.cons_append, List.append_assoc]
    rw [shape] at others ⊢
    cases opens <;> simp only [List.cons_append] at others ⊢ <;> simp [others]

theorem readEntries_tokensFor : ∀ (key : String) (t : Tree) (entries : List (String × Tree)) (fuel depth : Nat)
    (rest : List Token), 2 * ((tokensFor t).length + (entryTokens entries).length) ≤ fuel → t.depth ≤ depth →
      Tree.entryDepth entries ≤ depth →
      readEntries fuel depth key (tokensFor t ++ (entryTokens entries ++ rest)) = .ok ((key, t) :: entries, rest)
  | key, t, entries, 0, depth, rest, enough, _, _ => by
    obtain ⟨first, more, shape, _⟩ := tokensFor_cons t
    simp [shape] at enough
  | key, t, [], fuel + 1, depth, rest, enough, shallow, _ => by
    simp only [entryTokens, List.length_singleton] at enough
    have read := readValue_tokensFor t fuel depth (entryTokens [] ++ rest) (by omega) shallow
    simp only [readEntries, read, bind, Except.bind]
    rfl
  | key, t, (next, u) :: entries, fuel + 1, depth, rest, enough, shallow, shallows => by
    simp only [entryTokens, List.length_cons, List.length_append] at enough
    simp only [Tree.entryDepth, max_le_iff] at shallows
    have read := readValue_tokensFor t fuel depth (entryTokens ((next, u) :: entries) ++ rest) (by omega) shallow
    have others := readEntries_tokensFor next u entries fuel depth rest (by omega) shallows.1 shallows.2
    simp only [readEntries, read, bind, Except.bind]
    simp [entryTokens, readNextKey, readKey, others, bind, Except.bind]
end

theorem Leafy.tail {t : Token} {ts : List Token} (leafy : Leafy (t :: ts)) : Leafy ts :=
  fun u member => leafy u (List.mem_cons_of_mem _ member)

theorem Leafy.right {ts us : List Token} (leafy : Leafy (ts ++ us)) : Leafy us :=
  fun u member => leafy u (List.mem_append_right _ member)

theorem readKey_eq_ok {ts rest : List Token} {key : String} (read : readKey ts = .ok (key, rest)) :
    ts = .text (.ok key) :: .colon :: rest := by
  unfold readKey at read
  split at read
  · rename_i content after
    cases content with
    | error e => simp [bind, Except.bind] at read
    | ok s =>
      simp only [bind, Except.bind] at read
      split at read <;> simp only [Except.ok.injEq, Prod.mk.injEq, reduceCtorEq] at read
      obtain ⟨rfl, rfl⟩ := read
      rfl
  · contradiction

theorem readNextKey_eq_ok {ts rest : List Token} {key : String} (read : readNextKey ts = .ok (key, rest)) :
    ts = .text (.ok key) :: .colon :: rest := by
  unfold readNextKey at read
  split at read
  · contradiction
  · contradiction
  · exact readKey_eq_ok read

mutual
/-- What a value is read from are its tokens. -/
theorem tokens_of_readValue : ∀ (fuel : Nat) {depth : Nat} {ts rest : List Token} {t : Tree}, Leafy ts →
    readValue fuel depth ts = .ok (t, rest) → ts = tokensFor t ++ rest
  | 0, _, _, _, _, _, read => by simp [readValue] at read
  | _ + 1, _, [], _, _, _, read => by simp [readValue] at read
  | fuel + 1, depth, token :: ts, rest, t, leafy, read => by
    cases token with
    | scalar found =>
      cases found <;>
        simp only [readValue, Functor.map, Except.map, reduceCtorEq, Except.ok.injEq, Prod.mk.injEq] at read
      obtain ⟨rfl, rfl⟩ := read
      rw [leafy _ (List.mem_cons_self ..), List.singleton_append]
    | text found =>
      cases found <;>
        simp only [readValue, Functor.map, Except.map, reduceCtorEq, Except.ok.injEq, Prod.mk.injEq] at read
      obtain ⟨rfl, rfl⟩ := read
      rfl
    | listOpen =>
      simp only [readValue] at read
      split at read
      · contradiction
      · simp only [Except.ok.injEq, Prod.mk.injEq] at read
        obtain ⟨rfl, rfl⟩ := read
        rfl
      · split at read
        · contradiction
        · obtain ⟨⟨found, after⟩, inner, same⟩ := bind_eq_ok read
          simp only [Except.ok.injEq, Prod.mk.injEq] at same
          obtain ⟨rfl, rfl⟩ := same
          obtain ⟨t, others, rfl, all⟩ := tokens_of_readItems fuel leafy.tail inner
          rw [all, tokensFor, List.cons_append, List.append_assoc]
    | recordOpen =>
      simp only [readValue] at read
      split at read
      · contradiction
      · simp only [Except.ok.injEq, Prod.mk.injEq] at read
        obtain ⟨rfl, rfl⟩ := read
        rfl
      · obtain ⟨⟨key, after⟩, atKey, opened⟩ := bind_eq_ok read
        dsimp only at opened
        split at opened
        · contradiction
        · obtain ⟨⟨found, after⟩, inner, same⟩ := bind_eq_ok opened
          simp only [Except.ok.injEq, Prod.mk.injEq] at same
          obtain ⟨rfl, rfl⟩ := same
          obtain rfl := readKey_eq_ok atKey
          obtain ⟨t, others, rfl, rfl⟩ := tokens_of_readEntries fuel leafy.tail.tail.tail inner
          rw [tokensFor, List.cons_append, List.cons_append, List.cons_append, List.append_assoc]
    | listClose | recordClose | comma | colon | junk => simp [readValue] at read

theorem tokens_of_readItems : ∀ (fuel : Nat) {depth : Nat} {ts rest : List Token} {items : List Tree}, Leafy ts →
    readItems fuel depth ts = .ok (items, rest) →
      ∃ t others, items = t :: others ∧ ts = tokensFor t ++ (itemTokens others ++ rest)
  | 0, _, _, _, _, _, read => by simp [readItems] at read
  | fuel + 1, depth, ts, rest, items, leafy, read => by
    rw [readItems] at read
    obtain ⟨⟨item, after⟩, first, more⟩ := bind_eq_ok read
    obtain rfl := tokens_of_readValue fuel leafy first
    dsimp only at more
    split at more
    · simp only [Except.ok.injEq, Prod.mk.injEq] at more
      obtain ⟨rfl, rfl⟩ := more
      exact ⟨item, [], rfl, rfl⟩
    · contradiction
    · contradiction
    · obtain ⟨⟨others, after⟩, inner, same⟩ := bind_eq_ok more
      simp only [Except.ok.injEq, Prod.mk.injEq] at same
      obtain ⟨rfl, rfl⟩ := same
      obtain ⟨t, others, rfl, rfl⟩ := tokens_of_readItems fuel leafy.right.tail inner
      exact ⟨item, t :: others, rfl, by rw [itemTokens, List.cons_append, List.append_assoc]⟩
    · contradiction
    · contradiction

theorem tokens_of_readEntries : ∀ (fuel : Nat) {depth : Nat} {key : String} {ts rest : List Token}
    {entries : List (String × Tree)}, Leafy ts → readEntries fuel depth key ts = .ok (entries, rest) →
      ∃ t others, entries = (key, t) :: others ∧ ts = tokensFor t ++ (entryTokens others ++ rest)
  | 0, _, _, _, _, _, _, read => by simp [readEntries] at read
  | fuel + 1, depth, key, ts, rest, entries, leafy, read => by
    rw [readEntries] at read
    obtain ⟨⟨item, after⟩, first, more⟩ := bind_eq_ok read
    obtain rfl := tokens_of_readValue fuel leafy first
    dsimp only at more
    split at more
    · simp only [Except.ok.injEq, Prod.mk.injEq] at more
      obtain ⟨rfl, rfl⟩ := more
      exact ⟨item, [], rfl, rfl⟩
    · obtain ⟨⟨next, after⟩, atKey, more⟩ := bind_eq_ok more
      obtain ⟨⟨others, after⟩, inner, same⟩ := bind_eq_ok more
      simp only [Except.ok.injEq, Prod.mk.injEq] at same
      obtain ⟨rfl, rfl⟩ := same
      obtain rfl := readNextKey_eq_ok atKey
      obtain ⟨t, others, rfl, rfl⟩ := tokens_of_readEntries fuel leafy.right.tail.tail.tail inner
      exact ⟨item, (next, t) :: others, rfl, by
        rw [entryTokens, List.cons_append, List.cons_append, List.cons_append, List.append_assoc]⟩
    · contradiction
    · contradiction
end

/-- What is read from a text as a tree are the tokens of the tree. -/
theorem tokens_eq_tokensFor {limit depth fuel : Nat} {s : List Char} {t : Tree}
    (read : readTokens depth (tokens limit fuel s) = .ok t) : tokens limit fuel s = tokensFor t := by
  obtain ⟨⟨found, rest⟩, inner, read⟩ := bind_eq_ok read
  dsimp only at read
  split_ifs at read with ended
  obtain rfl : found = t := Except.ok.inj read
  obtain rfl := List.isEmpty_iff.mp ended
  rw [tokens_of_readValue _ (leafy_tokens limit fuel s) inner, List.append_nil]

mutual
/-- The scalars among the tokens of a tree are its leaves that are not texts. -/
theorem scalar_mem_tokensFor (value : Except Error Tree) : ∀ t : Tree, .scalar value ∈ tokensFor t ↔
    ∃ leaf ∈ t.leaves, (∀ s, leaf ≠ .text s) ∧ value = .ok leaf
  | .null | .bool _ | .int _ | .float _ | .text _ | .list [] | .record [] => by
    simp [tokensFor, Tree.leaves, Tree.itemLeaves, Tree.entryLeaves]
  | .list (t :: items) => by
    simp [tokensFor, Tree.leaves, Tree.itemLeaves, scalar_mem_tokensFor value t, scalar_mem_itemTokens value items,
      or_and_right, exists_or]
  | .record ((key, t) :: entries) => by
    simp [tokensFor, Tree.leaves, Tree.entryLeaves, scalar_mem_tokensFor value t, scalar_mem_entryTokens value entries,
      or_and_right, exists_or]

theorem scalar_mem_itemTokens (value : Except Error Tree) : ∀ items : List Tree, .scalar value ∈ itemTokens items ↔
    ∃ leaf ∈ Tree.itemLeaves items, (∀ s, leaf ≠ .text s) ∧ value = .ok leaf
  | [] => by simp [itemTokens, Tree.itemLeaves]
  | t :: items => by
    simp [itemTokens, Tree.itemLeaves, scalar_mem_tokensFor value t, scalar_mem_itemTokens value items, or_and_right,
      exists_or]

theorem scalar_mem_entryTokens (value : Except Error Tree) : ∀ entries : List (String × Tree),
    .scalar value ∈ entryTokens entries ↔
      ∃ leaf ∈ Tree.entryLeaves entries, (∀ s, leaf ≠ .text s) ∧ value = .ok leaf
  | [] => by simp [entryTokens, Tree.entryLeaves]
  | (key, t) :: entries => by
    simp [entryTokens, Tree.entryLeaves, scalar_mem_tokensFor value t, scalar_mem_entryTokens value entries,
      or_and_right, exists_or]
end

theorem readTokens_tokensFor {t : Tree} {depth : Nat} (shallow : t.depth ≤ depth) :
    readTokens depth (tokensFor t) = .ok t := by
  have read := readValue_tokensFor t (2 * (tokensFor t).length + 1) depth [] (by omega) shallow
  rw [List.append_nil] at read
  simp [readTokens, read, bind, Except.bind]

variable {t : Tree} {limit : Nat}

theorem scans_write (enough : 16 < limit) (finite : AllFinite t.leaves) (indent : Indent) {rest : List Char}
    (ends : EndsScalar rest) : Scans limit (HoldsLong limit t.leaves) (write indent t).toList (tokensFor t) rest := by
  rw [write, String.toList_ofList]
  exact scans_writeAt enough indent 0 t finite ends

/-- The tokens of written data with blanks behind them, if all integers are short enough. -/
theorem tokens_write (enough : 16 < limit) (finite : AllFinite t.leaves) (short : ¬ HoldsLong limit t.leaves)
    (indent : Indent) {blanks : List Char} (ends : EndsScalar blanks) (blank : ∀ c ∈ blanks, isSpace c) :
    tokens limit ((write indent t).toList ++ blanks).length ((write indent t).toList ++ blanks) = tokensFor t := by
  rcases scans_write enough finite indent ends with lexes | ⟨long, _⟩
  · have whole : Lexes limit ((write indent t).toList ++ blanks) (tokensFor t ++ []) [] := by
      refine Lexes.append ?_ (lexes_blanks blank [])
      rwa [List.append_nil]
    obtain ⟨fuel, _, eq⟩ := whole _ (by rw [List.append_nil])
    rw [List.append_nil, List.append_nil] at eq
    rw [eq]
    cases fuel <;> simp [tokens]
  · exact absurd long short

/-- Written data are read back, however they are laid out. -/
theorem read_write (finite : AllFinite t.leaves) (short : ¬ HoldsLong digitLimit t.leaves)
    (shallow : t.depth ≤ depthLimit) (indent : Indent) : read (write indent t) = .ok t := by
  have tokens := tokens_write (by decide) finite short indent endsScalar_nil (by simp)
  rw [List.append_nil] at tokens
  rw [read, readWithin, tokensOf, tokens, readTokens_tokensFor shallow]

/-- They may have a line feed behind them. -/
theorem read_write_line (finite : AllFinite t.leaves) (short : ¬ HoldsLong digitLimit t.leaves)
    (shallow : t.depth ≤ depthLimit) (indent : Indent) : read (write indent t ++ "\n") = .ok t := by
  have ends : EndsScalar ['\n'] := endsScalar_cons [] (by decide)
  have tokens := tokens_write (by decide) finite short indent ends (by decide)
  have text : (write indent t ++ "\n").toList = (write indent t).toList ++ ['\n'] := by simp
  rw [read, readWithin, tokensOf, text, tokens, readTokens_tokensFor shallow]

/-- Integers that are read are short enough. -/
theorem short_of_readTokens {depth fuel : Nat} {s : List Char} (found : readTokens depth (tokens limit fuel s) = .ok t) :
    ¬ HoldsLong limit t.leaves := by
  rintro ⟨n, member, long⟩
  have scalar : .scalar (.ok (.int n)) ∈ tokensFor t := (scalar_mem_tokensFor _ t).mpr ⟨_, member, by simp, rfl⟩
  rw [← tokens_eq_tokensFor found] at scalar
  exact tokens_short scalar ⟨n, List.mem_singleton_self _, long⟩

/-- An integer that is too long makes the whole text unreadable. -/
theorem read_write_long (finite : AllFinite t.leaves) (shallow : t.depth ≤ depthLimit)
    (long : HoldsLong digitLimit t.leaves) (indent : Indent) : ∃ e, read (write indent t) = .error e := by
  have enough : 16 < digitLimit := by decide
  cases found : read (write indent t) with
  | error e => exact ⟨e, rfl⟩
  | ok u =>
    exfalso
    rw [read, readWithin, tokensOf] at found
    rcases scans_write enough finite indent endsScalar_nil with lexes | ⟨_, breaks⟩
    · obtain ⟨fuel, _, eq⟩ := lexes (write indent t).toList.length (by rw [List.append_nil])
      have ended : tokens digitLimit fuel [] = [] := by cases fuel <;> rfl
      rw [List.append_nil, ended, List.append_nil] at eq
      have same := found
      rw [eq, readTokens_tokensFor shallow] at same
      obtain rfl : t = u := Except.ok.inj same
      exact short_of_readTokens found long
    · obtain ⟨before, e, eq⟩ := breaks (write indent t).toList.length (by rw [List.append_nil])
      have scalar : .scalar (.error e) ∈ before ++ [.scalar (.error e)] := List.mem_append_right _ (List.mem_singleton_self _)
      rw [← eq, List.append_nil, tokens_eq_tokensFor found, scalar_mem_tokensFor] at scalar
      obtain ⟨leaf, -, -, same⟩ := scalar
      contradiction

/-- Some limit admits all integers of a tree. -/
theorem exists_limit (leaves : List Tree) : ∃ limit, 16 < limit ∧ ¬ HoldsLong limit leaves := by
  induction leaves with
  | nil => exact ⟨17, by decide, by rintro ⟨n, member, _⟩; simp at member⟩
  | cons leaf leaves ih =>
    obtain ⟨limit, enough, short⟩ := ih
    obtain ⟨size, bound⟩ : ∃ size, ∀ n : Int, leaf = .int n → (decimalDigits n.natAbs).length ≤ size := by
      cases leaf with
      | int n => exact ⟨(decimalDigits n.natAbs).length, by rintro _ ⟨⟩; exact le_rfl⟩
      | _ => exact ⟨0, by simp⟩
    refine ⟨max limit size, by omega, ?_⟩
    rintro ⟨n, member, long⟩
    rcases List.mem_cons.mp member with same | member
    · have := bound n same.symm
      omega
    · exact short ⟨n, member, by omega⟩

/-- Different data are written differently. Here integers may be of any length. -/
theorem write_injective {u : Tree} (finite : AllFinite t.leaves) (finite' : AllFinite u.leaves) {indent : Indent}
    (same : write indent t = write indent u) : t = u := by
  obtain ⟨limit, enough, short⟩ := exists_limit (t.leaves ++ u.leaves)
  have first : ¬ HoldsLong limit t.leaves := fun long => short (holdsLong_append (.inl long))
  have second : ¬ HoldsLong limit u.leaves := fun long => short (holdsLong_append (.inr long))
  have tokens := tokens_write enough finite first indent endsScalar_nil (by simp)
  rw [same, tokens_write enough finite' second indent endsScalar_nil (by simp)] at tokens
  have read := readTokens_tokensFor (le_max_left t.depth u.depth)
  rw [← tokens, readTokens_tokensFor (le_max_right t.depth u.depth)] at read
  exact (Except.ok.inj read).symm

end Json
end AgentConfig
