import AgentConfig.Disk
import AgentConfig.Proofs.Text.Utf8

namespace AgentConfig.Disk

variable {d : Disk} {path : String} {place found : Place} {entry : Entry} {names : List String}

/-- Two paths that do not lead to the same place. -/
def Apart (d : Disk) (path other : String) : Prop :=
  ∀ place, d.find path = .ok place → d.find other ≠ .ok place

/-- Ways that lead somewhere go through folders, so they stay as they are when something that is no folder is put. -/
theorem walk_put (still : d.entryAt place ≠ some .folder) (walked : d.walk found names = .ok place') :
    (d.put place entry).walk found names = .ok place' := by
  induction names generalizing found with
  | nil => exact walked
  | cons name rest ih =>
    rw [walk] at walked ⊢
    cases here : d.entryAt found with
    | none => simp [here] at walked
    | some stands =>
      cases stands with
      | file bytes => simp [here] at walked
      | folder =>
        have apart : found ≠ place := by
          rintro rfl
          exact still here
        rw [put_entryAt_ne entry apart, here]
        simp only [here] at walked ⊢
        split_ifs at walked ⊢ with stays up long
        · exact ih walked
        · exact ih walked
        · exact ih walked

theorem find_put (still : d.entryAt place ≠ some .folder) (leads : d.find path = .ok found) :
    (d.put place entry).find path = .ok found := by
  unfold find at leads ⊢
  cases fault : pathFault? path with
  | some fault' => simp [fault] at leads
  | none =>
    simp only [fault] at leads ⊢
    exact walk_put still leads

/-- A file can be written where a path leads, unless a folder is there. -/
theorem target_eq_ok : d.target path = .ok place ↔
    bareNames path = pathNames path ∧ d.find path = .ok place ∧ d.entryAt place ≠ some .folder := by
  unfold target find
  cases fault : pathFault? path with
  | some fault' => simp
  | none =>
    simp only
    split_ifs with bare
    · cases walked : d.walk (d.start path) (pathNames path) with
      | error fault' => simp
      | ok found =>
        simp only [Except.ok.injEq]
        split_ifs with folder
        · simp only [false_iff, not_and, not_not]
          rintro - rfl
          exact folder
        · simp only [Except.ok.injEq]
          constructor
          · rintro rfl
            exact ⟨bare, rfl, folder⟩
          · exact fun ⟨_, same, _⟩ => same
    · cases d.walk (d.start path) ((bareNames path).dropLast ++ [""]) <;> simp [bare]

theorem target_put {bytes : List UInt8} (target : d.target path = .ok place) :
    (d.put place (.file bytes)).target path = .ok place := by
  obtain ⟨bare, leads, still⟩ := target_eq_ok.mp target
  exact target_eq_ok.mpr ⟨bare, find_put still leads, by simp⟩

theorem read_put_self {bytes : List UInt8} (target : d.target path = .ok place) :
    (d.put place (.file bytes)).read path = .ok bytes := by
  obtain ⟨-, leads, still⟩ := target_eq_ok.mp target
  rw [read, find_put still leads]
  simp

theorem holds_put_self {bytes : List UInt8} (target : d.target path = .ok place) :
    (d.put place (.file bytes)).holds path = true := by
  obtain ⟨-, leads, still⟩ := target_eq_ok.mp target
  rw [holds, find_put still leads]
  simp

/-- What can be read elsewhere stays readable. -/
theorem readText_put_apart {other text : String} (target : d.target path = .ok place) (apart : d.Apart path other)
    (entry : Entry) (read : d.readText other = .ok text) : (d.put place entry).readText other = .ok text := by
  obtain ⟨-, leads, still⟩ := target_eq_ok.mp target
  rw [readText] at read ⊢
  have same : (d.put place entry).read other = d.read other := by
    unfold Disk.read at read ⊢
    cases goal : d.find other with
    | error fault => simp [goal] at read
    | ok found =>
      have elsewhere : found ≠ place := by
        rintro rfl
        exact apart found leads goal
      rw [find_put still goal]
      simp only [put_entryAt_ne entry elsewhere]
  rw [same, read]

/-- Text is read back from the file that it is put into, if its line ends are line feeds. -/
theorem readText_put_self {s : List Char} (target : d.target path = .ok place) (clean : ∀ c ∈ s, c ≠ '\r') :
    (d.put place (.file (Text.utf8 s))).readText path = .ok (String.ofList s) := by
  rw [readText, read_put_self target]
  simp only [Text.readUtf8_utf8, Text.unifyLineEnds_self clean]

theorem put_put (bytes : List UInt8) : (d.put place (.file bytes)).put place (.file bytes) = d.put place (.file bytes) := by
  have same : ∀ other, ((d.put place (.file bytes)).put place (.file bytes)).entryAt other =
      (d.put place (.file bytes)).entryAt other := by
    intro other
    by_cases here : other = place <;> simp [put, here]
  rw [put, put, Disk.mk.injEq]
  exact ⟨funext same, rfl⟩

end AgentConfig.Disk
