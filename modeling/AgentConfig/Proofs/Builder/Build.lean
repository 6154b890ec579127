import AgentConfig.Builder.Basic
import AgentConfig.Proofs.Document.Canonical

namespace AgentConfig.Builder

variable {b : Builder} {d e : Document} {record : LogRecord} {servers : List Server} {auth : Auth}

/-- A document that is settled has the version it had if its text is the one before, and else the next. -/
theorem settle_eq_ok : (∃ record, b.settle d = .ok (e, record)) ↔
    ∃ before after, b.previous.canonical = .ok before ∧ d.canonical = .ok after ∧
      e = if before = after then d else { d with version := d.version + 1 } := by
  constructor
  · rintro ⟨record, settled⟩
    obtain ⟨before, first, settled⟩ := bind_eq_ok settled
    obtain ⟨after, second, settled⟩ := bind_eq_ok settled
    refine ⟨before, after, first, second, ?_⟩
    split_ifs at settled ⊢ with same
    · exact (Prod.mk.inj (Except.ok.inj settled)).1.symm
    · exact (Prod.mk.inj (Except.ok.inj settled)).1.symm
  · rintro ⟨before, after, first, second, rfl⟩
    simp only [settle, first, second, bind, Except.bind]
    split_ifs <;> exact ⟨_, rfl⟩

/-- All that has to go well when a document is built, and what the document is. -/
theorem build_eq_ok : b.build.outcome = .ok e ↔ b.consumed = false ∧
    ∃ enabler servers auth before after, b.enabler = some enabler ∧ b.servers = .ok servers ∧
      (enabler.enable .baseline).1 = .ok auth ∧ b.previous.canonical = .ok before ∧
      (b.assemble servers auth).canonical = .ok after ∧
      e = if before = after then b.assemble servers auth
        else { b.assemble servers auth with version := b.previous.version + 1 } := by
  constructor
  · intro built
    unfold build at built
    split_ifs at built with consumed
    refine ⟨by simpa using consumed, ?_⟩
    split at built
    · contradiction
    · rename_i enabler given
      split at built
      · contradiction
      · rename_i servers derived
        dsimp only at built
        split at built
        · contradiction
        · rename_i auth log enabled
          split at built
          · contradiction
          · rename_i settled
            obtain rfl := Except.ok.inj built
            obtain ⟨before, after, first, second, same⟩ := settle_eq_ok.mp ⟨_, settled⟩
            exact ⟨enabler, servers, auth, before, after, given, derived, by rw [enabled], first, second, same⟩
  · rintro ⟨fresh, enabler, servers, auth, before, after, given, derived, enabled, first, second, same⟩
    obtain ⟨record, settled⟩ := settle_eq_ok.mpr ⟨before, after, first, second, same⟩
    have pair : enabler.enable .baseline = (.ok auth, (enabler.enable .baseline).2) := Prod.ext enabled rfl
    simp only [build, fresh, Bool.false_eq_true, if_false, given, derived]
    rw [pair]
    simp only [settled]

/-- A build that has its parts and can write the previous document gives the next one. -/
theorem exists_build {enabler : Enabler} {before : String} (fresh : b.consumed = false) (given : b.enabler = some enabler)
    (made : b.servers = .ok servers) (enabled : (enabler.enable .baseline).1 = .ok auth)
    (written : b.previous.canonical = .ok before) (known : auth.key ≠ .foreign) : ∃ d, b.build.outcome = .ok d := by
  obtain ⟨after, second⟩ : ∃ text, (b.assemble servers auth).canonical = .ok text := Document.exists_canonical known
  exact ⟨_, build_eq_ok.mpr ⟨fresh, enabler, servers, auth, before, after, given, made, enabled, written, second, rfl⟩⟩

end AgentConfig.Builder
