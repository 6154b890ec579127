import AgentConfig.Document.Text
import AgentConfig.Proofs.Document.Sound
import AgentConfig.Proofs.Schema.Field

namespace AgentConfig

theorem Fields.write_cons_int {ρ : Type} {label : Label} {rest : Fields ρ} {r : ρ} {naming : Naming}
    {others : List (String × Tree)} (kept : label.omitEmpty = false) (fallback : Option Int) (n : Int)
    (written : rest.write naming r = some others) :
    (Fields.cons label .int fallback rest).write naming (n, r) = some ((label.key naming, .int n) :: others) := by
  simp [Fields.write, Shape.write, written, kept]

/-- The size of a server's cache in gigabytes. -/
abbrev Server.cacheSize (server : Server) : Binary64 :=
  server.arguments.storage.engine.tuning.cacheSize

/-- The only number that is not whole is the size of the cache. -/
theorem Server.finite_iff {server : Server} : Server.shape.Meets .finite server ↔ server.cacheSize.isFinite := by
  constructor
  · rintro ⟨_, _, ⟨_, ⟨_, ⟨⟨size, _⟩, _⟩, _⟩, _⟩, _⟩
    exact size
  · intro size
    have arguments : Arguments.shape.Meets .finite server.arguments :=
      ⟨Network.shape.meets_finite (by decide) _, ⟨trivial, ⟨⟨size, trivial⟩, trivial⟩, trivial⟩, ⟨trivial, trivial⟩, trivial⟩
    exact ⟨trivial, trivial, arguments, trivial, trivial, trivial, trivial, LogTarget.shape.meets_finite (by decide) _,
      trivial⟩

theorem Auth.meets_written {auth : Auth} (known : auth.key ≠ .foreign) : Auth.shape.Meets .written auth := by
  have texts : ∀ words : List String, (Shape.list (.text false)).Meets .written words :=
    fun words => Shape.meets_written _ (by decide) words
  exact ⟨(Shape.list User.shape).meets_written (by decide) _, trivial, trivial, texts _, trivial, texts _, trivial, known,
    trivial, trivial, trivial, trivial⟩

namespace Document

variable {d e : Document} {naming : Naming} {t : Tree} {text : String}

theorem canonical_eq_ok : d.canonical = .ok text ↔ shape.canonical d = some text := by
  unfold canonical
  cases shape.canonical d <;> simp

theorem canonical_eq_ok_of_write (written : shape.write .document d = some t) :
    d.canonical = .ok (Json.write none t) :=
  canonical_eq_ok.mpr (by rw [Shape.canonical, Shape.toJson, written]; rfl)

/-- The version is the first entry, and the others do not depend on it. -/
theorem write_eq_record (written : shape.write naming d = some t) :
    ∃ others, t = .record (("version", .int d.version) :: others) ∧
      ∀ version, shape.write naming { d with version } = some (.record (("version", .int version) :: others)) := by
  obtain ⟨entries, all, rfl⟩ := Option.map_eq_some_iff.mp written
  obtain ⟨version, others, first, remaining, rfl⟩ := Fields.write_cons all
  obtain rfl : .int d.version = version := Option.some.inj first
  have key : (Label.plain "version").key naming = "version" := by cases naming <;> rfl
  have again : ∀ version, shape.write naming { d with version } =
      some (.record (((Label.plain "version").key naming, .int version) :: others)) := fun version =>
    congrArg (Option.map Tree.record) (Fields.write_cons_int rfl (some 0) version remaining)
  rw [key] at again
  exact ⟨others, Option.some.inj (written.symm.trans (again d.version)), again⟩

/-- Documents with the same text have the same version. -/
theorem version_eq_of_canonical_eq (first : d.canonical = .ok text) (second : e.canonical = .ok text) :
    d.version = e.version := by
  rw [canonical_eq_ok] at first second
  obtain ⟨t, written, rfl⟩ := Shape.toJson_eq_some first
  have written' : shape.write .document e = some t :=
    Shape.write_eq_of_canonical_eq (first.trans second.symm) written
  obtain ⟨others, rfl, _⟩ := write_eq_record written
  obtain ⟨others', same, _⟩ := write_eq_record written'
  simp only [Tree.record.injEq, List.cons.injEq, Prod.mk.injEq, Tree.int.injEq, true_and] at same
  exact same.1

/-- A change of the version leaves a document writable. -/
theorem canonical_with_version (written : d.canonical = .ok text) (version : Int) :
    ∃ text, canonical { d with version } = .ok text := by
  obtain ⟨t, tree, _⟩ := Shape.toJson_eq_some (canonical_eq_ok.mp written)
  obtain ⟨others, _, again⟩ := write_eq_record tree
  exact ⟨_, canonical_eq_ok_of_write (again version)⟩

/-- Finite documents with the same text are the same. -/
theorem canonical_injective (finite : shape.Meets .finite d) (finite' : shape.Meets .finite e)
    (first : d.canonical = .ok text) (second : e.canonical = .ok text) : d = e := by
  rw [canonical_eq_ok] at first second
  obtain ⟨t, written, _⟩ := Shape.toJson_eq_some first
  exact Shape.canonical_injective sound finite finite' (by rw [written]; rfl) (first.trans second.symm)

theorem finite_iff : shape.Meets .finite d ↔ ∀ server ∈ d.servers, server.cacheSize.isFinite := by
  constructor
  · rintro ⟨_, servers, _⟩ server member
    exact Server.finite_iff.mp (servers server member)
  · intro sizes
    exact ⟨trivial, fun server member => Server.finite_iff.mpr (sizes server member),
      (Shape.list ReplicaSet.shape).meets_finite (by decide) _, Auth.shape.meets_finite (by decide) _,
      AgentTls.shape.meets_finite (by decide) _, (Shape.list Release.shape).meets_finite (by decide) _,
      AgentOptions.shape.meets_finite (by decide) _, trivial⟩

/-- The only part of a document that may have no written form is the key that servers share. -/
theorem meets_written (known : d.auth.key ≠ .foreign) : shape.Meets .written d :=
  ⟨trivial, (Shape.list Server.shape).meets_written (by decide) _,
    (Shape.list ReplicaSet.shape).meets_written (by decide) _, Auth.meets_written known,
    AgentTls.shape.meets_written (by decide) _, (Shape.list Release.shape).meets_written (by decide) _,
    AgentOptions.shape.meets_written (by decide) _, trivial⟩

theorem exists_canonical_of_meets (meets : shape.Meets .written d) : ∃ text, d.canonical = .ok text := by
  obtain ⟨t, written⟩ := shape.write_isSome (fun _ clean => clean) .document meets
  exact ⟨_, canonical_eq_ok_of_write written⟩

theorem exists_canonical (known : d.auth.key ≠ .foreign) : ∃ text, d.canonical = .ok text :=
  exists_canonical_of_meets (meets_written known)

theorem key_ne_foreign_of_write (tree : shape.write .document d = some t) : d.auth.key ≠ .foreign := by
  have auth : (⟨_, .plain "auth", Auth.shape, some {}, d.auth⟩ : Field) ∈ shape.filled d :=
    .tail _ (.tail _ (.tail _ (.head _)))
  obtain ⟨u, inside, -⟩ := Shape.exists_at? sound tree auth
  have key : (⟨_, (Label.plain "key").omitted, .secret, some (.text ""), d.auth.key⟩ : Field) ∈
      Auth.shape.filled d.auth :=
    .tail _ (.tail _ (.tail _ (.tail _ (.tail _ (.tail _ (.tail _ (.head _)))))))
  obtain ⟨v, secret, -⟩ := Shape.exists_at? Auth.sound inside key
  intro foreign
  simp only [Shape.write, foreign] at secret
  contradiction

/-- What is written can have no foreign object for a key. -/
theorem key_ne_foreign_of_canonical (written : d.canonical = .ok text) : d.auth.key ≠ .foreign := by
  obtain ⟨t, tree, -⟩ := Shape.toJson_eq_some (canonical_eq_ok.mp written)
  exact key_ne_foreign_of_write tree

end Document
end AgentConfig
