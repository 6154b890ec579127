import AgentConfig.Proofs.Yaml.Composed
import AgentConfig.Yaml.Datum

namespace AgentConfig.Yaml

/-- The nodes of a document. -/
inductive Node.Holds (root : Node) : Node → Prop
  | root : Holds root root
  | item {anchor : Option String} {tag : Tag} {items : List Node} {n : Node}
      (outer : Holds root (.sequence anchor tag items)) (member : n ∈ items) : Holds root n
  | key {anchor : Option String} {tag : Tag} {entries : List (Node × Node)} {entry : Node × Node}
      (outer : Holds root (.mapping anchor tag entries)) (member : entry ∈ entries) : Holds root entry.1
  | value {anchor : Option String} {tag : Tag} {entries : List (Node × Node)} {entry : Node × Node}
      (outer : Holds root (.mapping anchor tag entries)) (member : entry ∈ entries) : Holds root entry.2

/-- The faults of the scalars of a document. A mapping with the tag of a scalar takes the text of one. -/
inductive Node.Blames (root : Node) : ScalarFault → Prop
  | scalar {anchor : Option String} {tag : Tag} {text : Piece} {fault : ScalarFault}
      (inside : root.Holds (.scalar anchor tag text))
      (refused : Datum.scalarValue? tag true text = some (.error (.scalar fault))) : Blames root fault
  | mapping {anchor anchor' : Option String} {tag tag' : Tag} {entries : List (Node × Node)} {text : Piece}
      {fault : ScalarFault} (inside : root.Holds (.mapping anchor tag entries))
      (default : root.Holds (.scalar anchor' tag' text))
      (refused : Datum.scalarValue? tag false text = some (.error (.scalar fault))) : Blames root fault

namespace Datum

variable {root : Node} {d : Datum} {e : Error} {a b : Option Timed}

/-- A text of a scalar of the document. -/
def IsText (root : Node) (text : Piece) : Prop :=
  ∃ anchor tag, root.Holds (.scalar anchor tag text)

/-- A scalar fault is the fault of a scalar of the document. -/
def Blamed (root : Node) (e : Error) : Prop :=
  ∀ fault, e = .scalar fault → root.Blames fault

theorem blamed_value (fault : ValueFault) : Blamed root (.value fault) := by
  rintro _ ⟨⟩

section timed

/-- The error of a fault that may have been found, if it has. -/
def Accounted (root : Node) (found : Option Timed) : Prop :=
  ∀ t ∈ found, Blamed root t.error

theorem accounted_none : Accounted root none := by
  rintro _ ⟨⟩

theorem accounted_some {round : Nat} (blamed : Blamed root e) : Accounted root (some { round, error := e }) := by
  rintro _ ⟨⟩
  exact blamed

theorem Accounted.earlier (first : Accounted root a) (second : Accounted root b) : Accounted root (Timed.earlier a b) := by
  unfold Timed.earlier
  split
  · split_ifs
    · exact second
    · exact first
  · exact first
  · exact second

theorem Accounted.inside (accounted : Accounted root a) : Accounted root (inside a) := by
  intro t member
  obtain ⟨t', member', rfl⟩ := Option.map_eq_some_iff.mp member
  exact accounted t' member'

theorem Accounted.foldl {α : Type} {f : Option Timed → α → Option Timed} {items : List α} (first : Accounted root a)
    (step : ∀ found, Accounted root found → ∀ item ∈ items, Accounted root (f found item)) :
    Accounted root (items.foldl f a) := by
  induction items generalizing a with
  | nil => exact first
  | cons item rest ih =>
    exact ih (step a first item List.mem_cons_self) fun found accounted item member =>
      step found accounted item (List.mem_cons_of_mem _ member)

end timed

/-- The faults of both parts of an entry are accounted for. -/
def EntryAccounted (root : Node) (entry : Datum × Datum) : Prop :=
  Accounted root entry.1.fault ∧ Accounted root entry.2.fault

/-- What is known of a node, if it is one of the document. -/
inductive Fits (root : Node) : Datum → Prop
  | scalar {tag : Tag} {text : Piece} {v : Value} {fault : Option Timed} (written : IsText root text)
      (accounted : Accounted root fault) : Fits root (.scalar tag text v fault)
  | sequence {tag : Tag} {items : List Datum} {v : Value} {fault : Option Timed} (all : ∀ d ∈ items, Fits root d)
      (accounted : Accounted root fault) : Fits root (.sequence tag items v fault)
  | mapping {tag : Tag} {entries : List (Datum × Datum)} {merged : Except Error (List (Datum × Datum))}
      {text : Except Error Piece} {v : Value} {fault : Option Timed}
      (keys : ∀ entry ∈ entries, Fits root entry.1) (values : ∀ entry ∈ entries, Fits root entry.2)
      (together : Settles (fun found => ∀ entry ∈ found, EntryAccounted root entry) (Blamed root) merged)
      (written : Settles (IsText root) (Blamed root) text) (accounted : Accounted root fault) :
      Fits root (.mapping tag entries merged text v fault)

/-- Both parts of an entry are known. -/
def EntryFits (root : Node) (entry : Datum × Datum) : Prop :=
  Fits root entry.1 ∧ Fits root entry.2

variable {items : List Datum} {entries : List (Datum × Datum)} {merged : Except Error (List (Datum × Datum))}
  {text : Except Error Piece} {tag : Tag} {kind : NodeKind}

theorem fits_hole : Fits root hole :=
  .sequence (by simp) accounted_none

namespace Fits

theorem accounted (fits : Fits root d) : Accounted root d.fault := by
  cases fits <;> assumption

theorem written (fits : Fits root d) : Settles (IsText root) (Blamed root) d.scalarText := by
  cases fits with
  | scalar written => exact written
  | sequence => exact blamed_value _
  | mapping _ _ _ written => exact written

theorem together (fits : Fits root d) :
    Settles (fun found => ∀ entry ∈ found, EntryAccounted root entry) (Blamed root) d.entriesToMerge := by
  cases fits with
  | mapping _ _ together => exact together
  | _ => exact blamed_value _

theorem source (fits : Fits root d) :
    Settles (fun found => ∀ entry ∈ found, EntryAccounted root entry) (Blamed root) d.mergeSource := by
  cases fits with
  | sequence all =>
    refine (Settles.mapM fun d member => (all d member).together).map fun parts each entry member => ?_
    obtain ⟨part, inside, member⟩ := List.mem_flatten.mp member
    exact each part (List.mem_reverse.mp inside) entry member
  | scalar => exact blamed_value _
  | mapping _ _ together => exact together

theorem asKey (fits : Fits root d) : Accounted root d.asKey.fault := by
  unfold Datum.asKey
  have written := fits.written
  split_ifs
  · split
    · exact accounted_none
    · next failed =>
      rw [failed] at written
      exact accounted_some written
  · exact fits.accounted

end Fits

theorem settles_splitMerges (all : ∀ entry ∈ entries, EntryFits root entry) :
    Settles (fun found => (∀ entry ∈ found.1, EntryAccounted root entry) ∧ ∀ entry ∈ found.2, EntryAccounted root entry)
      (Blamed root) (splitMerges entries) := by
  induction entries with
  | nil => exact ⟨by simp, by simp⟩
  | cons entry rest ih =>
    obtain ⟨key, v⟩ := entry
    obtain ⟨keyFits, fits⟩ := all (key, v) List.mem_cons_self
    have others := ih fun entry member => all entry (List.mem_cons_of_mem _ member)
    rw [splitMerges]
    split_ifs
    · refine fits.source.bind fun more taken => others.bind fun found split => ?_
      exact ⟨List.forall_mem_append.mpr ⟨taken, split.1⟩, split.2⟩
    · refine others.bind fun found split => ?_
      exact ⟨split.1, List.forall_mem_cons.mpr ⟨⟨keyFits.asKey, fits.accounted⟩, split.2⟩⟩

theorem settles_mergeEntries (all : ∀ entry ∈ entries, EntryFits root entry) :
    Settles (fun found => ∀ entry ∈ found, EntryAccounted root entry) (Blamed root) (mergeEntries entries) :=
  (settles_splitMerges all).map fun _ split => List.forall_mem_append.mpr split

theorem settles_defaultText (all : ∀ entry ∈ entries, EntryFits root entry) :
    Settles (IsText root) (Blamed root) (defaultText entries) := by
  unfold defaultText
  split
  · next found => exact (all _ (List.mem_of_find?_eq_some found)).2.written
  · exact blamed_value _

theorem accounted_entriesFault (all : ∀ entry ∈ entries, EntryAccounted root entry) :
    Accounted root (entriesFault entries) := by
  refine Accounted.foldl accounted_none fun found accounted entry member => ?_
  obtain ⟨key, v⟩ := all entry member
  refine accounted.earlier ((key.earlier ?_).earlier v)
  split_ifs
  · exact accounted_none
  · exact accounted_some (blamed_value _)

theorem accounted_pairsOf (fault : ValueFault) (all : ∀ d ∈ items, Fits root d) :
    Accounted root (pairsOf fault items).2 := by
  induction items using pairsOf.induct fault with
  | case1 => exact accounted_none
  | case2 tag key v _ _ _ _ rest _ _ _ ih =>
    have others := ih fun d member => all d (List.mem_cons_of_mem _ member)
    cases all _ List.mem_cons_self with
    | mapping keys values =>
      rw [pairsOf]
      exact ((keys _ List.mem_cons_self).accounted.earlier (values _ List.mem_cons_self).accounted).earlier others
  | case3 d rest other =>
    rw [pairsOf]
    · exact accounted_some (blamed_value _)
    · exact other

theorem accounted_pairsValue (fault : ValueFault) (all : ∀ d ∈ items, Fits root d) :
    Accounted root (pairsValue fault kind items).2 := by
  unfold pairsValue
  split
  · exact (accounted_pairsOf fault all).inside
  · exact accounted_some (blamed_value _)

/-- What a tag makes of a node is at fault only for what the node is made of. -/
theorem accounted_assess
    (read : Settles (fun s => ∀ fault, scalarValue? tag (kind == .scalar) s = some (.error (.scalar fault)) →
      root.Blames fault) (Blamed root) text)
    (all : ∀ d ∈ items, Fits root d)
    (together : Settles (fun found => ∀ entry ∈ found, EntryAccounted root entry) (Blamed root) merged) :
    Accounted root (assess tag kind text items merged).2 := by
  unfold assess
  extract_lets ofMapping found
  -- Mappings and sets are read alike, and what remains behind the named tags are the scalars.
  have mapping (read : List (Datum × Datum) → Value) : Accounted root (ofMapping read).2 := by
    simp only [ofMapping]
    split
    · split
      · exact (accounted_entriesFault together).inside
      · exact accounted_some together
    · exact accounted_some (blamed_value _)
  split
  · split
    · exact (Accounted.foldl accounted_none fun found accounted d member =>
        accounted.earlier (all d member).accounted).inside
    · exact accounted_some (blamed_value _)
  · exact mapping _
  · have found := mapping entriesValue
    split
    · next same => rwa [same] at found
    · next same => rwa [same] at found
  · exact accounted_pairsValue _ all
  · exact accounted_pairsValue _ all
  · have blamed : Settles (fun _ => True) (Blamed root) found := by
      simp only [found]
      cases text with
      | error e =>
        dsimp only
        split_ifs
        · exact read
        · exact blamed_value _
      | ok s =>
        dsimp only
        cases made : scalarValue? tag (kind == .scalar) s with
        | none => exact blamed_value _
        | some result =>
          cases result with
          | ok v => trivial
          | error e =>
            rintro fault rfl
            exact read fault made
    clear_value found
    cases found with
    | ok v => exact accounted_none
    | error e => exact accounted_some blamed

section known

variable {known outer : Known}

/-- The names that are known stand for nodes of the document. -/
def AllFit (root : Node) (known : Known) : Prop :=
  ∀ named ∈ known, Fits root named.2

theorem AllFit.add (all : AllFit root known) (anchor : Option String) (fits : Fits root d) :
    AllFit root (known.add anchor d) := by
  cases anchor with
  | none => exact all
  | some name => exact List.forall_mem_cons.mpr ⟨fits, all⟩

theorem AllFit.lookup (all : AllFit root known) {name : String} (found : known.lookup name = some d) : Fits root d := by
  obtain ⟨before, after, same, -⟩ := List.lookup_eq_some_iff.mp found
  exact all (name, d) (by simp [same])

theorem fits_aliasTo (outside : AllFit root outer) (all : AllFit root known) (name : String) :
    Fits root ((known.lookup name).getD ((outer.lookup name).getD hole)) := by
  cases found : known.lookup name with
  | some d => exact all.lookup found
  | none =>
    cases around : outer.lookup name with
    | some d => exact outside.lookup around
    | none => exact fits_hole

mutual
theorem fits_ofNode (outside : AllFit root outer) : ∀ (n : Node) (known : Known), root.Holds n → AllFit root known →
    Fits root (ofNode outer n known).1 ∧ AllFit root (ofNode outer n known).2
  | .aliasTo name, known, _, all => ⟨fits_aliasTo outside all name, all⟩
  | .scalar anchor tag text, known, inside, all => by
    have accounted : Accounted root (assess tag .scalar (.ok text) [] (.ok [])).2 :=
      accounted_assess (fun fault refused => .scalar inside refused) (by simp) (by simp [Settles])
    have fits : Fits root (ofNode outer (.scalar anchor tag text) known).1 := .scalar ⟨anchor, tag, inside⟩ accounted
    exact ⟨fits, all.add anchor fits⟩
  | .sequence anchor tag nodes, known, inside, all => by
    obtain ⟨items, named⟩ := fits_ofNodes outside nodes known (fun n member => .item inside member) all
    have accounted : Accounted root (assess tag .sequence (.error (.value (.wrongKind .scalar .sequence)))
        (ofNodes outer nodes known).1 (.ok [])).2 :=
      accounted_assess (blamed_value _) items (by simp [Settles])
    have fits : Fits root (ofNode outer (.sequence anchor tag nodes) known).1 := .sequence items accounted
    exact ⟨fits, named.add anchor fits⟩
  | .mapping anchor tag nodes, known, inside, all => by
    obtain ⟨entries, named⟩ :=
      fits_ofEntries outside nodes known (fun entry member => ⟨.key inside member, .value inside member⟩) all
    have together := settles_mergeEntries entries
    have written := settles_defaultText entries
    have accounted : Accounted root (assess tag .mapping (defaultText (ofEntries outer nodes known).1) []
        (mergeEntries (ofEntries outer nodes known).1)).2 := by
      refine accounted_assess (written.mono ?_) (by simp) together
      rintro s ⟨_, _, default⟩ fault refused
      exact .mapping inside default refused
    have fits : Fits root (ofNode outer (.mapping anchor tag nodes) known).1 :=
      .mapping (fun entry member => (entries entry member).1) (fun entry member => (entries entry member).2)
        together written accounted
    exact ⟨fits, named.add anchor fits⟩

theorem fits_ofNodes (outside : AllFit root outer) : ∀ (nodes : List Node) (known : Known),
    (∀ n ∈ nodes, root.Holds n) → AllFit root known →
    (∀ d ∈ (ofNodes outer nodes known).1, Fits root d) ∧ AllFit root (ofNodes outer nodes known).2
  | [], known, _, all => ⟨by simp [ofNodes], all⟩
  | n :: rest, known, inside, all => by
    obtain ⟨first, named⟩ := fits_ofNode outside n known (inside n List.mem_cons_self) all
    obtain ⟨others, named⟩ := fits_ofNodes outside rest _ (fun n member => inside n (List.mem_cons_of_mem _ member)) named
    rw [ofNodes]
    exact ⟨List.forall_mem_cons.mpr ⟨first, others⟩, named⟩

theorem fits_ofEntries (outside : AllFit root outer) : ∀ (nodes : List (Node × Node)) (known : Known),
    (∀ entry ∈ nodes, root.Holds entry.1 ∧ root.Holds entry.2) → AllFit root known →
    (∀ entry ∈ (ofEntries outer nodes known).1, EntryFits root entry) ∧ AllFit root (ofEntries outer nodes known).2
  | [], known, _, all => ⟨by simp [ofEntries], all⟩
  | (key, n) :: rest, known, inside, all => by
    obtain ⟨keyInside, valueInside⟩ := inside (key, n) List.mem_cons_self
    obtain ⟨keyFits, named⟩ := fits_ofNode outside key known keyInside all
    obtain ⟨fits, named⟩ := fits_ofNode outside n _ valueInside named
    obtain ⟨others, named⟩ :=
      fits_ofEntries outside rest _ (fun entry member => inside entry (List.mem_cons_of_mem _ member)) named
    rw [ofEntries]
    exact ⟨List.forall_mem_cons.mpr ⟨⟨keyFits, fits⟩, others⟩, named⟩
end

theorem fits_ofRoot (root : Node) (n : Nat) : Fits root (ofRoot root n).1 ∧ AllFit root (ofRoot root n).2 := by
  have none : AllFit root [] := fun named member => absurd member List.not_mem_nil
  induction n with
  | zero => exact fits_ofNode none root [] .root none
  | succ n ih => exact fits_ofNode ih.2 root [] .root none

end known

end Datum

variable {root : Node} {fault : ScalarFault} {text : String}

/-- A document has a scalar fault for one of its scalars. -/
theorem blames_of_valueOf (failed : valueOf root = .error (.scalar fault)) : root.Blames fault := by
  have accounted := (Datum.fits_ofRoot root Datum.unfoldings).1.accounted
  unfold valueOf at failed
  dsimp only at failed
  split at failed
  · next t found => exact accounted t found fault (Except.error.inj failed)
  · contradiction

/-- What a text has a scalar fault for: a character or a number that is no scalar, or a scalar of its document. -/
def Blames (text : String) (fault : ScalarFault) : Prop :=
  (Node.ofText text = .error (.scalar fault) ∧ fault.isLexical) ∨
    ∃ root, Node.ofText text = .ok (some root) ∧ root.Blames fault

theorem blames_of_read (failed : read text = .error (.scalar fault)) : Blames text fault := by
  have settled := Node.settles_ofText text
  rcases bind_eq_error failed with unread | ⟨found, composed, failed⟩
  · rw [unread] at settled
    exact .inl ⟨unread, settled⟩
  · cases found with
    | none => contradiction
    | some root => exact .inr ⟨root, composed, blames_of_valueOf failed⟩

end AgentConfig.Yaml
