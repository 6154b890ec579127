import AgentConfig.Proofs.Schema.ReadWrite
import AgentConfig.Proofs.Schema.Tree
import AgentConfig.Schema.Json

namespace AgentConfig

namespace Demands

/-- What is stored without loss: integers that have not too many digits to be read again, finite numbers, and no
foreign objects. -/
def storable : Demands where
  int n := (decimalDigits n.natAbs).length ≤ digitLimit
  float x := x.isFinite
  secret s := s ≠ .foreign

/-- What is equal to itself: numbers other than NaN, and no foreign objects. -/
def reflexive : Demands where
  int _ := True
  float x := x ≠ .nan
  secret s := s ≠ .foreign

end Demands

/-- Data without integers, numbers and secrets can always be stored. -/
theorem Shape.meets_storable {α : Type} (shape : Shape α) (plain : shape.kinds = []) (a : α) : shape.Meets .storable a :=
  shape.meets_of_free (fun kind member => by
    rw [plain] at member
    contradiction) a

namespace Binary64

variable {x : Binary64}

theorem equal_self_iff : x.equal x ↔ x ≠ .nan := by
  cases x <;> simp [equal]

theorem ne_nan_of_isFinite (finite : x.isFinite) : x ≠ .nan := by
  rintro rfl
  contradiction

end Binary64

mutual
/-- Data are equal to themselves unless there is a NaN or a foreign object in them. -/
theorem Shape.equal_self_iff : ∀ {α : Type} (shape : Shape α) {a : α}, shape.equal a a ↔ shape.Meets .reflexive a
  | _, .text _, _ | _, .int, _ | _, .bool, _ | _, .choice _, _ => iff_of_true (beq_self_eq_true _) trivial
  | _, .secret, .text _ => iff_of_true (beq_self_eq_true _) nofun
  | _, .secret, .foreign => iff_of_false nofun fun clean => clean rfl
  | _, .float, _ => Binary64.equal_self_iff
  | _, .nullable _, none => iff_of_true rfl nofun
  | _, .nullable inner, some a => by
    rw [Shape.equal, inner.equal_self_iff]
    exact ⟨fun meets b same => Option.some.inj same ▸ meets, fun meets => meets a rfl⟩
  | _, .list item, as => by
    have each : ∀ a ∈ as, (item.equal a a ↔ item.Meets .reflexive a) := fun a _ => item.equal_self_iff
    simp only [Shape.equal, Shape.Meets, beq_self_eq_true, Bool.true_and, List.all_eq_true, List.zip_eq_zipWith,
      List.zipWith_self, List.forall_mem_map]
    exact forall₂_congr each
  | _, .record _ fields _, _ => fields.equal_self_iff

theorem Fields.equal_self_iff : ∀ {ρ : Type} (fields : Fields ρ) {r : ρ}, fields.equal r r ↔ fields.Meets .reflexive r
  | _, .nil, _ => iff_of_true rfl trivial
  | _, .cons _ shape _ rest, (_, _) => Bool.and_eq_true_iff.trans (and_congr shape.equal_self_iff rest.equal_self_iff)
end

/-- Data that can be stored are equal to themselves. -/
theorem Shape.equal_self {α : Type} (shape : Shape α) {a : α} (meets : shape.Meets .storable a) : shape.equal a a :=
  shape.equal_self_iff.mpr (Shape.Meets.imp (d := .storable) (e := .reflexive) (fun _ _ => trivial)
    (fun _ => Binary64.ne_nan_of_isFinite) (fun _ clean => clean) shape meets)

namespace Shape

variable {α : Type} {shape : Shape α} {naming : Naming} {indent : Json.Indent} {a b : α} {t : Tree} {text : String}

theorem allFinite_write (written : shape.write naming a = some t) : Json.AllFinite t.leaves := by
  intro x member
  exact (shape.leaves_write (shape.meets_anything a) written _ member).2 x rfl

theorem not_holdsLong_write (meets : shape.Meets .storable a) (written : shape.write naming a = some t) :
    ¬ Json.HoldsLong digitLimit t.leaves := by
  rintro ⟨n, member, long⟩
  have short := (shape.leaves_write meets written _ member).1 n rfl
  exact absurd long (Nat.not_lt.mpr short)

theorem finite_of_storable (meets : shape.Meets .storable a) : shape.Meets .finite a :=
  Meets.imp (d := .storable) (e := .finite) (fun _ _ => trivial) (fun _ finite => finite) (fun _ _ => trivial) shape meets

theorem toJson_eq_some (written : shape.toJson naming indent a = some text) :
    ∃ t, shape.write naming a = some t ∧ text = Json.write indent t := by
  obtain ⟨t, tree, rfl⟩ := Option.map_eq_some_iff.mp written
  exact ⟨t, tree, rfl⟩

/-- Data with an integer that is too long are refused once they have been written. -/
theorem ofJson_toJson_long {n : Int} (shallow : shape.depth ≤ Json.depthLimit) (tree : shape.write naming a = some t)
    (member : .int n ∈ t.leaves) (long : digitLimit < (decimalDigits n.natAbs).length) (indent : Json.Indent) :
    ∃ e, shape.ofJson (Json.write indent t) = .error e := by
  obtain ⟨e, refused⟩ := Json.read_write_long (allFinite_write tree) ((shape.depth_write tree).trans shallow)
    ⟨n, member, long⟩ indent
  simp only [ofJson, refused]
  exact ⟨_, rfl⟩

/-- Written data come back as they are or not at all: what is needed are finite numbers and short integers. -/
theorem ofJson_write_eq_ok (sound : shape.Sound) (shallow : shape.depth ≤ Json.depthLimit)
    (written : shape.write naming a = some t) (indent : Json.Indent) :
    shape.ofJson (Json.write indent t) = .ok b ↔
      b = a ∧ shape.Meets .finite a ∧ shape.Meets (.ints Demands.storable.int) a := by
  by_cases long : Json.HoldsLong digitLimit t.leaves
  · obtain ⟨n, member, digits⟩ := long
    obtain ⟨e, refused⟩ := ofJson_toJson_long shallow written member digits indent
    rw [refused]
    refine iff_of_false (by simp) fun ⟨_, _, ints⟩ => ?_
    exact Nat.not_lt.mpr ((shape.leaves_write ints written _ member).1 n rfl) digits
  · have ints : shape.Meets (.ints Demands.storable.int) a := shape.meets_ints written fun n member =>
      Nat.not_lt.mp fun digits => long ⟨n, member, digits⟩
    have read := Json.read_write (allFinite_write written) long ((shape.depth_write written).trans shallow) indent
    rcases shape.read_write .json sound written with ⟨finite, back⟩ | ⟨infinite, problems, refused⟩
    · simp only [ofJson, read, check, back, Except.ok.injEq, finite, ints, and_self, and_true]
      exact eq_comm
    · simp [ofJson, read, check, refused, infinite]

/-- Data that can be stored are read back from JSON, under either naming and with any indentation. -/
theorem ofJson_toJson (sound : shape.Sound) (shallow : shape.depth ≤ Json.depthLimit) (meets : shape.Meets .storable a)
    (naming : Naming) (indent : Json.Indent) :
    ∃ text, shape.toJson naming indent a = some text ∧ shape.ofJson text = .ok a := by
  obtain ⟨t, written⟩ := shape.write_isSome (fun _ clean => clean) naming meets
  have ints : shape.Meets (.ints Demands.storable.int) a :=
    Meets.imp (d := .storable) (e := .ints _) (fun _ short => short) (fun _ _ => trivial) (fun _ _ => trivial) shape meets
  exact ⟨Json.write indent t, by rw [toJson, written]; rfl,
    (ofJson_write_eq_ok sound shallow written indent).mpr ⟨rfl, finite_of_storable meets, ints⟩⟩

/-- Data with an infinite number or NaN are refused once they have been written. -/
theorem ofJson_toJson_infinite (sound : shape.Sound) (shallow : shape.depth ≤ Json.depthLimit)
    (infinite : ¬ shape.Meets .finite a) (written : shape.toJson naming indent a = some text) :
    ∃ e, shape.ofJson text = .error e := by
  obtain ⟨t, tree, rfl⟩ := toJson_eq_some written
  cases read : shape.ofJson (Json.write indent t) with
  | error e => exact ⟨e, rfl⟩
  | ok b => exact absurd ((ofJson_write_eq_ok sound shallow tree indent).mp read).2.1 infinite

/-- Finite data with the same tree are the same. -/
theorem write_injective (sound : shape.Sound) (finite : shape.Meets .finite a) (finite' : shape.Meets .finite b)
    (first : shape.write naming a = some t) (second : shape.write naming b = some t) : a = b := by
  rcases shape.read_write .json sound first with ⟨_, back⟩ | ⟨infinite, _⟩
  · rcases shape.read_write .json sound second with ⟨_, back'⟩ | ⟨infinite, _⟩
    · rw [back] at back'
      exact Except.ok.inj back'
    · exact absurd finite' infinite
  · exact absurd finite infinite

/-- Data with the same canonical text have the same tree. Here integers may be of any length. -/
theorem write_eq_of_canonical_eq (same : shape.canonical a = shape.canonical b)
    (written : shape.write .document a = some t) : shape.write .document b = some t := by
  have text : shape.canonical a = some (Json.write none t) := by rw [canonical, toJson, written]; rfl
  obtain ⟨u, tree, eq⟩ := toJson_eq_some (same ▸ text)
  rw [tree, Json.write_injective (allFinite_write written) (allFinite_write tree) eq]

/-- The canonical text tells finite data apart. -/
theorem canonical_injective (sound : shape.Sound) (finite : shape.Meets .finite a) (finite' : shape.Meets .finite b)
    (written : (shape.write .document a).isSome) (same : shape.canonical a = shape.canonical b) : a = b := by
  obtain ⟨t, tree⟩ := Option.isSome_iff_exists.mp written
  exact write_injective sound finite finite' tree (write_eq_of_canonical_eq same tree)

end Shape
end AgentConfig
