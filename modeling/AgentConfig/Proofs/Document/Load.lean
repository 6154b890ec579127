import AgentConfig.Proofs.Disk
import AgentConfig.Proofs.Document.Parse
import AgentConfig.Proofs.Text.Decoded

namespace AgentConfig.Disk

variable {disk : Disk} {path text : String} {entry : Entry} {e : ReadError}

/-- What stands where a path leads. -/
def Has (disk : Disk) (path : String) (entry : Entry) : Prop :=
  ∃ place, disk.find path = .ok place ∧ disk.entryAt place = some entry

/-- A text is in a file if the bytes there are those of the text, with any line ends. -/
def Keeps (disk : Disk) (path text : String) : Prop :=
  ∃ s, disk.Has path (.file (Text.utf8 s)) ∧ text = String.ofList (Text.unifyLineEnds s)

theorem holds_iff : disk.holds path = true ↔ ∃ entry, disk.Has path entry := by
  unfold holds Has
  cases disk.find path with
  | error fault => simp
  | ok place => simp [Option.isSome_iff_exists]

theorem Has.holds (stands : disk.Has path entry) : disk.holds path = true :=
  holds_iff.mpr ⟨entry, stands⟩

theorem readText_folder (stands : disk.Has path .folder) :
    disk.readText path = .error (.disk { fault := .folder, path }) := by
  obtain ⟨place, leads, stands⟩ := stands
  have unread : disk.read path = .error { fault := .folder, path } := by
    simp only [Disk.read, leads, stands]
  rw [readText, unread]

theorem Has.read {bytes : List UInt8} (stands : disk.Has path (.file bytes)) : disk.read path = .ok bytes := by
  obtain ⟨place, leads, stands⟩ := stands
  simp only [Disk.read, leads, stands]

theorem readText_file {s : List Char} (stands : disk.Has path (.file (Text.utf8 s))) :
    disk.readText path = .ok (String.ofList (Text.unifyLineEnds s)) := by
  simp only [readText, stands.read, Text.readUtf8_utf8]

theorem readText_undecoded {bytes : List UInt8} {fault : Text.Utf8Error} (stands : disk.Has path (.file bytes))
    (undecoded : Text.readUtf8 bytes = .error fault) : disk.readText path = .error (.encoding fault) := by
  simp only [readText, stands.read, undecoded]

/-- What stands where a path leads is a folder, a file with a text, or a file with bytes that are no text. -/
theorem cases_of_holds (stands : disk.holds path = true) : disk.Has path .folder ∨
    (∃ s, disk.Has path (.file (Text.utf8 s))) ∨
    ∃ bytes fault, disk.Has path (.file bytes) ∧ Text.readUtf8 bytes = .error fault := by
  obtain ⟨entry, stands⟩ := holds_iff.mp stands
  cases entry with
  | folder => exact .inl stands
  | file bytes =>
    cases decoded : Text.readUtf8 bytes with
    | ok s => exact .inr (.inl ⟨s, Text.readUtf8_eq_ok.mp decoded ▸ stands⟩)
    | error fault => exact .inr (.inr ⟨bytes, fault, stands, decoded⟩)

/-- A file is read as the text in it. -/
theorem readText_eq_ok (stands : disk.holds path = true) : disk.readText path = .ok text ↔ disk.Keeps path text := by
  constructor
  · intro read
    rcases cases_of_holds stands with folder | ⟨s, kept⟩ | ⟨bytes, fault, file, undecoded⟩
    · rw [readText_folder folder] at read
      contradiction
    · rw [readText_file kept] at read
      exact ⟨s, kept, (Except.ok.inj read).symm⟩
    · rw [readText_undecoded file undecoded] at read
      contradiction
  · rintro ⟨s, kept, rfl⟩
    exact readText_file kept

/-- What stands where a path leads cannot be read if it is a folder, or a file with bytes that are no text. -/
theorem readText_eq_error (stands : disk.holds path = true) : disk.readText path = .error e ↔
    (disk.Has path .folder ∧ e = .disk { fault := .folder, path }) ∨
    ∃ bytes fault, disk.Has path (.file bytes) ∧ Text.readUtf8 bytes = .error fault ∧ e = .encoding fault := by
  constructor
  · intro failed
    rcases cases_of_holds stands with folder | ⟨s, kept⟩ | ⟨bytes, fault, file, undecoded⟩
    · rw [readText_folder folder] at failed
      exact .inl ⟨folder, (Except.error.inj failed).symm⟩
    · rw [readText_file kept] at failed
      contradiction
    · rw [readText_undecoded file undecoded] at failed
      exact .inr ⟨bytes, fault, file, undecoded, (Except.error.inj failed).symm⟩
  · rintro (⟨folder, rfl⟩ | ⟨bytes, fault, file, undecoded, rfl⟩)
    · exact readText_folder folder
    · exact readText_undecoded file undecoded

end AgentConfig.Disk

namespace AgentConfig.Document

variable {disk : Disk} {path : String} {d : Document} {e : FileError}

theorem load_of_missing [Runtime] (missing : disk.holds path = false) : load disk path = .ok .empty := by
  simp [load, missing]

theorem load_of_unread [Runtime] {fault : ReadError} (stands : disk.holds path = true)
    (unread : disk.readText path = .error fault) : load disk path = .error (.read fault) := by
  simp [load, stands, unread]

theorem load_of_read [Runtime] {text : String} (stands : disk.holds path = true) (read : disk.readText path = .ok text) :
    load disk path = (parse (.ofPath path) (some path) text).mapError .parse := by
  simp only [load, stands, read, if_true]
  cases parse (.ofPath path) (some path) text <;> rfl

theorem load_eq_ok [Runtime] : load disk path = .ok d ↔
    (disk.holds path = false ∧ d = .empty) ∨
    ∃ text, disk.Keeps path text ∧ parse (.ofPath path) (some path) text = .ok d := by
  cases stands : disk.holds path with
  | false =>
    have unkept : ∀ text, ¬disk.Keeps path text := by
      rintro text ⟨s, kept, -⟩
      exact absurd kept.holds (by simp [stands])
    simp [load_of_missing stands, unkept, eq_comm]
  | true =>
    simp only [Bool.true_eq_false, false_and, false_or, ← Disk.readText_eq_ok stands]
    cases read : disk.readText path with
    | error fault => simp [load_of_unread stands read]
    | ok text =>
      simp only [load_of_read stands read, Except.ok.injEq, exists_eq_left']
      cases parse (.ofPath path) (some path) text <;> simp [Except.mapError]

theorem load_eq_error [Runtime] : load disk path = .error e ↔
    (disk.Has path .folder ∧ e = .read (.disk { fault := .folder, path })) ∨
    (∃ bytes fault, disk.Has path (.file bytes) ∧ Text.readUtf8 bytes = .error fault ∧ e = .read (.encoding fault)) ∨
    ∃ text fault, disk.Keeps path text ∧ parse (.ofPath path) (some path) text = .error fault ∧ e = .parse fault := by
  constructor
  · intro failed
    cases stands : disk.holds path with
    | false =>
      rw [load_of_missing stands] at failed
      contradiction
    | true =>
      cases read : disk.readText path with
      | error fault =>
        obtain rfl := Except.error.inj ((load_of_unread stands read).symm.trans failed)
        obtain ⟨folder, rfl⟩ | ⟨bytes, cause, file, undecoded, rfl⟩ := (Disk.readText_eq_error stands).mp read
        · exact .inl ⟨folder, rfl⟩
        · exact .inr (.inl ⟨bytes, cause, file, undecoded, rfl⟩)
      | ok text =>
        rw [load_of_read stands read] at failed
        obtain ⟨fault, unparsed, rfl⟩ := mapError_eq_error failed
        exact .inr (.inr ⟨text, fault, (Disk.readText_eq_ok stands).mp read, unparsed, rfl⟩)
  · rintro (⟨folder, rfl⟩ | ⟨bytes, fault, file, undecoded, rfl⟩ | ⟨text, fault, kept, unparsed, rfl⟩)
    · exact load_of_unread folder.holds (Disk.readText_folder folder)
    · have unread := (Disk.readText_eq_error file.holds).mpr (.inr ⟨bytes, fault, file, undecoded, rfl⟩)
      exact load_of_unread file.holds unread
    · have stands : disk.holds path = true := by
        obtain ⟨s, file, -⟩ := kept
        exact file.holds
      rw [load_of_read stands ((Disk.readText_eq_ok stands).mpr kept), unparsed]
      rfl

/-- A stored document of JSON is loaded as its text says, and nothing else passes for the empty document but a place
where nothing stands. What fails is a folder, a file with bytes that are no text, or a text that is no document, and
only the last is reported as a fault of the source. -/
theorem load_reports [Runtime] (disk : Disk) {path : String} (json : Format.ofPath path = .json) :
    (load disk path = .ok .empty ↔
      disk.holds path = false ∨ ∃ text, disk.Keeps path text ∧ ofJson text = .ok .empty) ∧
    (∀ d, disk.holds path = true → (load disk path = .ok d ↔ ∃ text, disk.Keeps path text ∧ ofJson text = .ok d)) ∧
    ∀ e, load disk path = .error e ↔
      (disk.Has path .folder ∧ e = .read (.disk { fault := .folder, path })) ∨
      (∃ bytes fault, disk.Has path (.file bytes) ∧ (∀ s, bytes ≠ Text.utf8 s) ∧
        Text.readUtf8 bytes = .error fault ∧ e = .read (.encoding fault)) ∨
      ∃ text cause, disk.Keeps path text ∧ ofJson text = .error cause ∧
        e = .parse (.load { source := some path, cause := .invalid cause }) := by
  have parsed : ∀ text d, parse (.ofPath path) (some path) text = .ok d ↔ ofJson text = .ok d := by
    intro text d
    rw [parse_eq_ok, json, ofText]
    cases ofJson text <;> simp
  have unparsed : ∀ text fault, parse (.ofPath path) (some path) text = .error fault ↔
      ∃ cause, ofJson text = .error cause ∧ fault = .load { source := some path, cause := .invalid cause } := by
    intro text fault
    rw [parse, json, ofText]
    cases ofJson text <;> simp [eq_comm]
  refine ⟨?_, fun d stands => ?_, fun e => ?_⟩
  · simp only [load_eq_ok, parsed, and_true]
  · simp only [load_eq_ok, parsed, stands, Bool.true_eq_false, false_and, false_or]
  · rw [load_eq_error]
    refine or_congr_right (or_congr ?_ ?_)
    · constructor
      · rintro ⟨bytes, fault, file, undecoded, rfl⟩
        refine ⟨bytes, fault, file, ?_, undecoded, rfl⟩
        rintro s rfl
        rw [Text.readUtf8_utf8] at undecoded
        contradiction
      · rintro ⟨bytes, fault, file, -, undecoded, rfl⟩
        exact ⟨bytes, fault, file, undecoded, rfl⟩
    · simp only [unparsed]
      constructor
      · rintro ⟨text, _, kept, ⟨cause, invalid, rfl⟩, rfl⟩
        exact ⟨text, cause, kept, invalid, rfl⟩
      · rintro ⟨text, cause, kept, invalid, rfl⟩
        exact ⟨text, _, kept, ⟨cause, invalid, rfl⟩, rfl⟩

/-- A disk with one file, in its home. -/
def diskWith (bytes : List UInt8) : Disk :=
  (Disk.blank []).put ["ac.json"] (.file bytes)

theorem has_diskWith (bytes : List UInt8) : (diskWith bytes).Has "ac.json" (.file bytes) := by
  have leads : (diskWith bytes).find "ac.json" = .ok ["ac.json"] := by
    have still : (Disk.blank []).entryAt ["ac.json"] ≠ some .folder := by decide
    exact Disk.find_put still (by decide +kernel)
  exact ⟨["ac.json"], leads, Disk.put_entryAt_self _ _ _⟩

/-- A file whose line ends with a carriage return and a line feed. -/
theorem load_reports_version : Format.ofPath "ac.json" = .json ∧
    ∃ d, load (diskWith (Text.utf8 "\x7b\"version\":3\x7d\r\n".toList)) "ac.json" = .ok d ∧ d.version = 3 := by
  have json : Format.ofPath "ac.json" = .json := by decide +kernel
  have stands := has_diskWith (Text.utf8 "\x7b\"version\":3\x7d\r\n".toList)
  have version : (ofJson "\x7b\"version\":3\x7d\n").map (·.version) = .ok 3 := by decide +kernel
  obtain ⟨d, read, version⟩ := map_eq_ok version
  have loaded := ((load_reports _ json).2.1 d stands.holds).mpr ⟨_, ⟨_, stands, rfl⟩, read⟩
  exact ⟨json, d, loaded, version⟩

/-- A byte that begins no character is a fault of its own, and is not reported as one of the source. -/
theorem undecoded_escapes : load (diskWith [0xff]) "ac.json" =
    .error (.read (.encoding { first := 0, last := 0, byte := 0xff, reason := .badStart })) :=
  load_eq_error.mpr (.inr (.inl ⟨[0xff], _, has_diskWith [0xff], by decide, rfl⟩))

end AgentConfig.Document
