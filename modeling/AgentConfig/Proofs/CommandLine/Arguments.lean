import AgentConfig.CommandLine.Arguments
import AgentConfig.Proofs.Except

namespace AgentConfig

namespace Word

variable {s : List Char} {t word : String}

theorem ne_plain_of_mem_abbreviated {entry : String × Word} (member : entry ∈ abbreviated s) : entry.2 ≠ .plain t := by
  obtain ⟨⟨spelling, f⟩, -, spelled⟩ := List.mem_filterMap.mp member
  obtain ⟨-, same⟩ := Option.ite_none_right_eq_some.mp spelled
  rw [← Option.some.inj same]
  simp

theorem eq_of_ofDashed_plain (read : ofDashed s = .ok (.plain t)) : t = String.ofList s := by
  have strayed : stray s = .plain t → t = String.ofList s := by
    unfold stray
    split_ifs
    · exact fun same => (Word.plain.inj same).symm
    · exact fun same => by contradiction
  unfold ofDashed at read
  split at read
  · next found =>
    obtain rfl := Except.ok.inj read
    rw [Option.orElse_eq_orElse, Option.orElse_eq_or] at found
    rcases Option.or_eq_some_iff.mp found with whole | ⟨-, assigned⟩
    · obtain ⟨f, -, same⟩ := Option.map_eq_some_iff.mp whole
      contradiction
    · obtain ⟨pair, -, flagged⟩ := Option.bind_eq_some_iff.mp assigned
      obtain ⟨f, -, same⟩ := Option.map_eq_some_iff.mp flagged
      contradiction
  · split at read
    · split at read
      · exact strayed (Except.ok.inj read)
      · next single =>
        exact absurd (Except.ok.inj read) (ne_plain_of_mem_abbreviated (single ▸ List.mem_singleton_self _))
      · contradiction
    · cases lettered : lettered? s with
      | none =>
        rw [lettered] at read
        exact strayed (Except.ok.inj read)
      | some w =>
        rw [lettered] at read
        obtain rfl : w = .plain t := Except.ok.inj read
        obtain ⟨f, -, same⟩ := Option.map_eq_some_iff.mp lettered
        contradiction

/-- A plain word stands for itself. -/
theorem eq_of_ofString_plain (read : ofString word = .ok (.plain t)) : t = word := by
  unfold ofString at read
  split at read
  · next dashed =>
    rw [eq_of_ofDashed_plain read, ← dashed, String.ofList_toList]
  · exact (Word.plain.inj (Except.ok.inj read)).symm

end Word

namespace Request

variable {f : Flag} {spelling value : String} {words extras : List String} {ws : List Word} {c : BuildCommand} {r : Request}

/-- A flag that takes a value is followed by a plain word. -/
theorem follow_valued (valued : f ≠ .help) (followed : follow (.flag f none :: ws) extras c = .ok r) :
    ∃ s rest c', ws = .plain s :: rest ∧ c.set f s = .ok c' ∧ follow rest extras c' = .ok r := by
  match ws with
  | .plain s :: rest =>
    have step : (c.set f s >>= follow rest extras) = .ok r := by
      cases f with
      | help => contradiction
      | _ => exact followed
    obtain ⟨c', set, later⟩ := bind_eq_ok step
    exact ⟨s, rest, c', rfl, set, later⟩
  | [] | .divider :: _ | .flag .. :: _ | .letters .. :: _ | .unknownFlag _ :: _ => cases f <;> contradiction

/-- Goes through words that have not been told apart yet. -/
def resume (words extras : List String) (c : BuildCommand) : Except UsageError Request := do
  follow (← Word.ofStrings words) extras c

/-- A flag takes the next word as its value, whatever the word is, or else there is no request. -/
theorem resume_flag (spelled : Word.ofString spelling = .ok (.flag f none)) (whole : spelling ≠ "--") (valued : f ≠ .help)
    (resumed : resume (spelling :: value :: words) extras c = .ok r) :
    ∃ c', c.set f value = .ok c' ∧ resume words extras c' = .ok r := by
  obtain ⟨ws, told, followed⟩ := bind_eq_ok resumed
  rw [Word.ofStrings, if_neg whole, spelled] at told
  obtain ⟨first, flagged, told⟩ := bind_eq_ok told
  obtain rfl := Except.ok.inj flagged
  obtain ⟨more, others, same⟩ := bind_eq_ok told
  obtain rfl : .flag f none :: more = ws := Except.ok.inj same
  obtain ⟨s, rest, c', rfl, set, later⟩ := follow_valued valued followed
  rw [Word.ofStrings] at others
  split_ifs at others with divider
  · simp at others
  · obtain ⟨first, plain, others⟩ := bind_eq_ok others
    obtain ⟨rest', remaining, same⟩ := bind_eq_ok others
    obtain ⟨rfl, rfl⟩ := List.cons.inj (Except.ok.inj same)
    obtain rfl := Word.eq_of_ofString_plain plain
    refine ⟨c', set, ?_⟩
    rw [resume, remaining]
    exact later

end Request
end AgentConfig
