import AgentConfig.Document.File
import AgentConfig.Proofs.Disk
import AgentConfig.Proofs.Document.JsonRoundTrip
import AgentConfig.Proofs.Document.YamlRoundTrip
import AgentConfig.Proofs.Json.Written

namespace AgentConfig.Document

variable {d : Document} {format : Format} {text : String} {path : String}

/-- Whether a document comes back from a format. -/
def Returns (format : Format) (d : Document) : Prop :=
  match format with
  | .json => shape.Meets .storable d
  | .yaml => shape.Meets .finite d

theorem render_json (written : d.render .json = .ok text) :
    ∃ t, shape.write .document d = some t ∧ text = Json.write (some 2) t ++ "\n" := by
  obtain ⟨line, toJson, rfl⟩ := map_eq_ok written
  obtain ⟨t, tree, rfl⟩ := Shape.toJson_eq_some (toJson_eq_ok.mp toJson)
  exact ⟨t, tree, rfl⟩

/-- All that can go wrong when a document is rendered: its key is foreign, or in YAML one of its integers is too long. -/
theorem render_eq_error {e : WriteError} : d.render format = .error e ↔
    (d.auth.key = .foreign ∧ e = .unwritable) ∨
      (d.auth.key ≠ .foreign ∧ format = .yaml ∧ ¬ shape.Meets (.ints Demands.printable.int) d ∧ e = .tooManyDigits) := by
  by_cases foreign : d.auth.key = .foreign
  · have unwritten : shape.write .document d = none :=
      Option.eq_none_iff_forall_ne_some.mpr fun t tree => key_ne_foreign_of_write tree foreign
    cases format <;> simp [render, toJson, toYaml, Shape.toJson, unwritten, foreign, eq_comm]
  · cases format with
    | json =>
      obtain ⟨t, tree⟩ := shape.write_isSome (fun _ clean => clean) .document (meets_written foreign)
      simp [render, toJson_eq_ok_of_write tree, foreign]
    | yaml =>
      rw [render, toYaml_eq_error (meets_written foreign)]
      simp [foreign, and_comm]

theorem parse_render [Runtime] (returns : d.Returns format) (written : d.render format = .ok text) (source : Option String) :
    parse format source text = .ok d := by
  have back : ofText format text = .ok d := by
    cases format with
    | json =>
      obtain ⟨t, tree, rfl⟩ := render_json written
      have read := Json.read_write_line (Shape.allFinite_write tree) (Shape.not_holdsLong_write returns tree)
        ((shape.depth_write tree).trans shallow) (some 2)
      rcases shape.read_write .json sound tree with ⟨-, back⟩ | ⟨infinite, -⟩
      · simp only [ofText, ofJson, Shape.ofJson, read, Shape.check, back]
      · exact absurd (Shape.finite_of_storable returns) infinite
    | yaml => exact ofYaml_toYaml returns written
  rw [parse, back]

/-- Documents are written with line feeds only. -/
theorem clean_render (written : d.render format = .ok text) : ∀ c ∈ text.toList, c ≠ '\r' := by
  cases format with
  | json =>
    obtain ⟨t, -, rfl⟩ := render_json written
    intro c member
    obtain inside | rfl : c ∈ Json.writeAt (some 2) 0 t ∨ c = '\n' := by simpa [Json.write] using member
    · exact (Json.carries_writeAt (some 2) 0 t).clean c inside
    · decide
  | yaml =>
    rintro c member rfl
    exact absurd (visible_toYaml written '\r' member) (by decide)

theorem store_eq_ok {disk disk' : Disk} : d.store disk path = (disk', .ok ()) ↔
    ∃ place text, disk.target path = .ok place ∧ d.render (.ofPath path) = .ok text ∧
      (Text.utf8 text.toList).length ≤ Disk.sizeLimit ∧ disk' = disk.put place (.file (Text.utf8 text.toList)) := by
  unfold store
  cases disk.target path with
  | error fault => simp
  | ok place =>
    cases d.render (.ofPath path) with
    | error e => simp
    | ok text =>
      simp only
      split_ifs with large
      · simp [large]
      · simp [Nat.not_lt.mp large, eq_comm]

/-- A document that is not stored leaves the disk as it is only if its file cannot be opened. Otherwise the file has
been emptied, or filled as far as it goes. -/
theorem store_eq_error {disk disk' : Disk} {e : StoreError} : d.store disk path = (disk', .error e) ↔
    (∃ fault, disk.target path = .error fault ∧ disk' = disk ∧ e = .disk { fault, path }) ∨
    ∃ place, disk.target path = .ok place ∧
      ((∃ w, d.render (.ofPath path) = .error w ∧ disk' = disk.put place (.file []) ∧ e = .write w) ∨
        ∃ text, d.render (.ofPath path) = .ok text ∧ Disk.sizeLimit < (Text.utf8 text.toList).length ∧
          disk' = disk.put place (.file ((Text.utf8 text.toList).take Disk.sizeLimit)) ∧
          e = .disk { fault := .tooLarge, path }) := by
  unfold store
  cases disk.target path with
  | error fault => simp [eq_comm]
  | ok place =>
    cases d.render (.ofPath path) with
    | error w => simp [eq_comm]
    | ok text =>
      simp only
      split_ifs with large
      · simp [large, eq_comm]
      · simp [large]

/-- What is stored is loaded again, and may be stored again without a change. -/
theorem load_store [Runtime] {disk disk' : Disk} (returns : d.Returns (.ofPath path)) (stored : d.store disk path = (disk', .ok ())) :
    load disk' path = .ok d ∧ d.store disk' path = (disk', .ok ()) := by
  obtain ⟨place, text, target, written, small, rfl⟩ := store_eq_ok.mp stored
  constructor
  · have read := Disk.readText_put_self target (clean_render written)
    rw [String.ofList_toList] at read
    rw [load, Disk.holds_put_self target, if_pos rfl, read]
    simp only [parse_render returns written]
  · exact store_eq_ok.mpr ⟨place, text, Disk.target_put target, written, small, (Disk.put_put _).symm⟩

end AgentConfig.Document
