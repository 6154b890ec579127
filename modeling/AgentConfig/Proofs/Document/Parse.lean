import AgentConfig.Document.File
import AgentConfig.Proofs.Runtime
import AgentConfig.Proofs.Yaml.Resolved

namespace AgentConfig.Document

variable {format : Format} {source : Option String} {text : String} {d : Document} {e : LoadError} {fault : Yaml.ScalarFault}

theorem parse_eq_ok [Runtime] : parse format source text = .ok d ↔ ofText format text = .ok d := by
  unfold parse
  split <;> simp_all

theorem parse_eq_load [Runtime] : parse format source text = .error (.load e) ↔
    e.source = source ∧ ofText format text = .error e.cause ∧ ∀ fault, e.cause ≠ .yaml (.scalar fault) := by
  obtain ⟨source', cause⟩ := e
  unfold parse
  split
  · next read => simp [read]
  · next fault read =>
    simp only [read, Except.error.injEq, reduceCtorEq, false_iff, not_and]
    rintro - rfl bare
    exact bare fault rfl
  · next cause' bare read =>
    simp only [read, Except.error.injEq, ParseError.load.injEq, LoadError.mk.injEq]
    constructor
    · rintro ⟨rfl, rfl⟩
      exact ⟨rfl, rfl, fun fault same => bare fault same⟩
    · rintro ⟨rfl, rfl, -⟩
      exact ⟨rfl, rfl⟩

theorem parse_eq_scalar [Runtime] : parse format source text = .error (.scalar fault) ↔
    format = .yaml ∧ Yaml.read text = .error (.scalar fault) := by
  cases format with
  | json =>
    unfold parse ofText
    cases ofJson text <;> simp
  | yaml =>
    unfold parse ofText ofYaml
    rw [← Yaml.load_eq_error]
    cases Yaml.load text with
    | ok v =>
      simp only
      generalize shape.check .native _ = checked
      cases checked <;> simp
    | error e => cases e <;> simp

end AgentConfig.Document
