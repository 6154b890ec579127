import Mathlib.Tactic

namespace AgentConfig

variable {ε δ α β : Type}

/-- A chain of steps that succeeds has succeeded in its first step. -/
theorem bind_eq_ok {x : Except ε α} {f : α → Except ε β} {b : β} (bound : x >>= f = .ok b) :
    ∃ a, x = .ok a ∧ f a = .ok b := by
  cases x with
  | error e => contradiction
  | ok a => exact ⟨a, rfl, bound⟩

/-- A chain of steps fails in its first step or in a later one. -/
theorem bind_eq_error {x : Except ε α} {f : α → Except ε β} {e : ε} (bound : x >>= f = .error e) :
    x = .error e ∨ ∃ a, x = .ok a ∧ f a = .error e := by
  cases x with
  | error e' => exact .inl (congrArg _ (Except.error.inj bound))
  | ok a => exact .inr ⟨a, rfl, bound⟩

theorem map_eq_ok {x : Except ε α} {f : α → β} {b : β} (mapped : f <$> x = .ok b) : ∃ a, x = .ok a ∧ f a = b := by
  cases x with
  | error e => contradiction
  | ok a => exact ⟨a, rfl, Except.ok.inj mapped⟩

theorem mapError_eq_ok {x : Except ε α} {g : ε → δ} {a : α} : x.mapError g = .ok a ↔ x = .ok a := by
  cases x with
  | error e => exact iff_of_false nofun nofun
  | ok a' => exact ⟨fun same => congrArg _ (Except.ok.inj same), fun same => congrArg _ (Except.ok.inj same)⟩

theorem mapError_eq_error {x : Except ε α} {g : ε → δ} {e : δ} (mapped : x.mapError g = .error e) :
    ∃ e', x = .error e' ∧ g e' = e := by
  cases x with
  | error e' => exact ⟨e', rfl, Except.error.inj mapped⟩
  | ok a => contradiction

/-- What comes of a step is as `P` says, or its error as `Q` says. -/
def Settles (P : α → Prop) (Q : ε → Prop) : Except ε α → Prop
  | .ok a => P a
  | .error e => Q e

namespace Settles

variable {P P' : α → Prop} {R : β → Prop} {Q : ε → Prop} {x : Except ε α}

theorem bind {f : α → Except ε β} (first : Settles P Q x) (next : ∀ a, P a → Settles R Q (f a)) :
    Settles R Q (x >>= f) := by
  cases x with
  | error e => exact first
  | ok a => exact next a first

theorem map {f : α → β} (first : Settles P Q x) (next : ∀ a, P a → R (f a)) : Settles R Q (f <$> x) := by
  cases x with
  | error e => exact first
  | ok a => exact next a first

theorem mono (settled : Settles P Q x) (weaker : ∀ a, P a → P' a) : Settles P' Q x := by
  cases x with
  | error e => exact settled
  | ok a => exact weaker a settled

theorem any (x : Except ε α) : Settles (fun _ => True) (fun _ => True) x := by
  cases x <;> trivial

theorem and {Q' : ε → Prop} (first : Settles P Q x) (second : Settles P' Q' x) : Settles (fun a => P a ∧ P' a) Q x := by
  cases x with
  | error e => exact first
  | ok a => exact ⟨first, second⟩

theorem mapM {f : β → Except ε α} {items : List β} (each : ∀ b ∈ items, Settles P Q (f b)) :
    Settles (fun found => ∀ a ∈ found, P a) Q (items.mapM f) := by
  induction items with
  | nil => exact fun a member => absurd member List.not_mem_nil
  | cons b rest ih =>
    rw [List.mapM_cons]
    refine (each b List.mem_cons_self).bind fun a first => ?_
    refine (ih fun b member => each b (List.mem_cons_of_mem _ member)).bind fun found others => ?_
    exact List.forall_mem_cons.mpr ⟨first, others⟩

end Settles

end AgentConfig
