import AgentConfig.Proofs.Document.File
import AgentConfig.Proofs.Document.Load

namespace AgentConfig.Document

variable {d : Document} {format : Format} {disk : Disk} {path : String} {place : Place}

/-- Why a file does not get a document whole, once it has been opened. -/
inductive Unfit (format : Format) (d : Document) : Prop where
  | foreign (key : d.auth.key = .foreign)
  | digits (yaml : format = .yaml) (long : ¬ shape.Meets (.ints Demands.printable.int) d)
  | large {text : String} (written : d.render format = .ok text) (beyond : Disk.sizeLimit < (Text.utf8 text.toList).length)

/-- What a file is left with when a document is put into it: as much of the text as a file holds, and nothing if there
is no text. -/
def leftover (format : Format) (d : Document) : List UInt8 :=
  match d.render format with
  | .error _ => []
  | .ok text => (Text.utf8 text.toList).take Disk.sizeLimit

/-- Whatever becomes of the document, the old content of an opened file is gone. -/
theorem disk_store (target : disk.target path = .ok place) :
    (d.store disk path).1 = disk.put place (.file (d.leftover (.ofPath path))) := by
  unfold store leftover
  simp only [target]
  cases d.render (.ofPath path) with
  | error e => rfl
  | ok text =>
    simp only
    split_ifs with large
    · rfl
    · rw [List.take_of_length_le (Nat.not_lt.mp large)]

theorem unfit_iff : d.Unfit format ↔ (∃ e, d.render format = .error e) ∨
    ∃ text, d.render format = .ok text ∧ Disk.sizeLimit < (Text.utf8 text.toList).length := by
  constructor
  · rintro (key | ⟨yaml, long⟩ | ⟨written, beyond⟩)
    · exact .inl ⟨_, render_eq_error.mpr (.inl ⟨key, rfl⟩)⟩
    · by_cases key : d.auth.key = .foreign
      · exact .inl ⟨_, render_eq_error.mpr (.inl ⟨key, rfl⟩)⟩
      · exact .inl ⟨_, render_eq_error.mpr (.inr ⟨key, yaml, long, rfl⟩)⟩
    · exact .inr ⟨_, written, beyond⟩
  · rintro (⟨e, refused⟩ | ⟨text, written, beyond⟩)
    · rcases render_eq_error.mp refused with ⟨key, -⟩ | ⟨-, yaml, long, -⟩
      · exact .foreign key
      · exact .digits yaml long
    · exact .large written beyond

theorem store_fails_iff (target : disk.target path = .ok place) :
    (∃ e, (d.store disk path).2 = .error e) ↔ d.Unfit (.ofPath path) := by
  rw [unfit_iff, store]
  simp only [target]
  cases d.render (.ofPath path) with
  | error e => simp
  | ok text =>
    simp only
    split_ifs with large <;> simp [large]

theorem leftover_of_unfit (unfit : d.Unfit format) :
    d.leftover format = [] ∨ (d.leftover format).length = Disk.sizeLimit := by
  rcases unfit_iff.mp unfit with ⟨e, refused⟩ | ⟨text, written, beyond⟩
  · simp [leftover, refused]
  · exact .inr (by simp only [leftover, written]; exact List.length_take_of_le beyond.le)

/-- An empty file passes for the empty document if it is to hold YAML, and is refused if it is to hold JSON. -/
theorem load_emptied [Runtime] (target : disk.target path = .ok place) :
    (Format.ofPath path = .yaml → load (disk.put place (.file [])) path = .ok .empty) ∧
      (Format.ofPath path = .json → ∃ e, load (disk.put place (.file [])) path = .error (.parse (.load e))) := by
  have loaded : load (disk.put place (.file [])) path = (parse (.ofPath path) (some path) "").mapError .parse :=
    load_of_read (Disk.holds_put_self target) (Disk.readText_put_self target (s := []) (by simp))
  refine ⟨fun yaml => ?_, fun json => ?_⟩
  · rw [loaded, yaml]
    rfl
  · rw [loaded, json]
    exact ⟨_, rfl⟩

/-- A document that is not stored has cost the file its content, unless the file could not even be opened: what is left
is nothing, or as much of the text as a file holds. With the content the version is gone that was stored. -/
theorem failed_store_spoils [Runtime] (d : Document) (disk : Disk) (path : String) :
    let after := (d.store disk path).1
    let left := d.leftover (.ofPath path)
    (∀ fault, disk.target path = .error fault → d.store disk path = (disk, .error (.disk { fault, path }))) ∧
    ∀ place, disk.target path = .ok place →
      ((∃ e, (d.store disk path).2 = .error e) ↔ d.Unfit (.ofPath path)) ∧
      after = disk.put place (.file left) ∧ after.read path = .ok left ∧
      (d.Unfit (.ofPath path) → left = [] ∨ left.length = Disk.sizeLimit) ∧
      (left = [] → (Format.ofPath path = .yaml → load after path = .ok .empty) ∧
        (Format.ofPath path = .json → ∃ e, load after path = .error (.parse (.load e)))) := by
  intro after left
  refine ⟨fun fault unopened => by rw [store, unopened], fun place target => ?_⟩
  have put : after = disk.put place (.file left) := disk_store target
  have read : after.read path = .ok left := by
    rw [put]
    exact Disk.read_put_self target
  refine ⟨store_fails_iff target, put, read, leftover_of_unfit, fun nothing => ?_⟩
  rw [put, nothing]
  exact load_emptied target

/-- A disk with nothing but a file of this name. -/
def onlyFile (name text : String) : Disk :=
  (Disk.blank []).put [name] (.file (Text.utf8 text.toList))

/-- A document whose version has more digits than are printed. -/
def overlong : Document where
  version := (10 ^ digitLimit : Nat)

/-- A document with a key that is no text. -/
def sealed : Document where
  auth := { key := .foreign }

theorem overlong_unprintable : ¬ shape.Meets (.ints Demands.printable.int) overlong := by
  rintro ⟨short, -⟩
  have digits : (decimalDigits (10 ^ digitLimit : Nat)).length ≤ digitLimit := short
  rw [length_decimalDigits_pow] at digits
  omega

theorem render_overlong : overlong.render .yaml = .error .tooManyDigits :=
  render_eq_error.mpr (.inr ⟨by decide, rfl, overlong_unprintable, rfl⟩)

theorem render_sealed : sealed.render format = .error .unwritable :=
  render_eq_error.mpr (.inl ⟨rfl, rfl⟩)

theorem target_yaml : (onlyFile "ac.yaml" "version: 7\n").target "ac.yaml" = .ok ["ac.yaml"] := by
  decide +kernel

theorem target_json : (onlyFile "ac.json" "\x7b\"version\":7\x7d").target "ac.json" = .ok ["ac.json"] := by
  decide +kernel

/-- A path that leads nowhere, and a document that empties its file. -/
theorem failed_store_spoils_overlong :
    (Disk.blank []).target "" = .error .missing ∧
    sealed.store (Disk.blank []) "" = (Disk.blank [], .error (.disk { fault := .missing, path := "" })) ∧
    (onlyFile "ac.yaml" "version: 7\n").target "ac.yaml" = .ok ["ac.yaml"] ∧ overlong.Unfit (.ofPath "ac.yaml") ∧
    (∃ e, (overlong.store (onlyFile "ac.yaml" "version: 7\n") "ac.yaml").2 = .error e) ∧
    overlong.leftover (.ofPath "ac.yaml") = [] ∧ Format.ofPath "ac.yaml" = .yaml ∧
    load (overlong.store (onlyFile "ac.yaml" "version: 7\n") "ac.yaml").1 "ac.yaml" = .ok .empty := by
  have nowhere : (Disk.blank []).target "" = .error .missing := rfl
  have yaml : Format.ofPath "ac.yaml" = .yaml := by decide
  have unfit : overlong.Unfit (.ofPath "ac.yaml") := .digits yaml overlong_unprintable
  have nothing : overlong.leftover (.ofPath "ac.yaml") = [] := by
    rw [leftover, yaml, render_overlong]
  obtain ⟨unopened, -⟩ := failed_store_spoils sealed (Disk.blank []) ""
  obtain ⟨-, opened⟩ := failed_store_spoils overlong (onlyFile "ac.yaml" "version: 7\n") "ac.yaml"
  obtain ⟨fails, -, -, -, lost⟩ := opened _ target_yaml
  exact ⟨nowhere, unopened _ nowhere, target_yaml, unfit, fails.mpr unfit, nothing, yaml, (lost nothing).1 yaml⟩

/-- The version that was stored is lost when a document is to take its place that has no text. -/
theorem stored_version_forgotten :
    let yaml := onlyFile "ac.yaml" "version: 7\n"
    let json := onlyFile "ac.json" "\x7b\"version\":7\x7d"
    ((load yaml "ac.yaml").map (·.version) = .ok 7 ∧
      (overlong.store yaml "ac.yaml").2 = .error (.write .tooManyDigits) ∧
      (overlong.store yaml "ac.yaml").1.read "ac.yaml" = .ok [] ∧
      load (overlong.store yaml "ac.yaml").1 "ac.yaml" = .ok .empty) ∧
    (load json "ac.json").map (·.version) = .ok 7 ∧
    (sealed.store json "ac.json").2 = .error (.write .unwritable) ∧
    (sealed.store json "ac.json").1.read "ac.json" = .ok [] ∧
    ∃ e, load (sealed.store json "ac.json").1 "ac.json" = .error e := by
  intro yaml json
  have format : Format.ofPath "ac.yaml" = .yaml := by decide
  have format' : Format.ofPath "ac.json" = .json := by decide
  have stored : overlong.store yaml "ac.yaml" = (yaml.put ["ac.yaml"] (.file []), .error (.write .tooManyDigits)) := by
    have refused : overlong.render (.ofPath "ac.yaml") = .error .tooManyDigits := format ▸ render_overlong
    exact store_eq_error.mpr (.inr ⟨_, target_yaml, .inl ⟨_, refused, rfl, rfl⟩⟩)
  have stored' : sealed.store json "ac.json" = (json.put ["ac.json"] (.file []), .error (.write .unwritable)) :=
    store_eq_error.mpr (.inr ⟨_, target_json, .inl ⟨_, render_sealed, rfl, rfl⟩⟩)
  obtain ⟨e, refused⟩ := (load_emptied target_json).2 format'
  have before : (load yaml "ac.yaml").map (·.version) = .ok 7 := by decide +kernel
  have before' : (load json "ac.json").map (·.version) = .ok 7 := by decide +kernel
  rw [stored, stored']
  exact ⟨⟨before, rfl, Disk.read_put_self target_yaml, (load_emptied target_yaml).1 format⟩,
    before', rfl, Disk.read_put_self target_json, _, refused⟩

end AgentConfig.Document
