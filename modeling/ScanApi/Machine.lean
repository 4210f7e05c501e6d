/-!
Machines that take events one after another and refuse those that cannot happen.
`Reached` are the states that events reach when each of them meets a condition on
the state it finds; `Reached.invariant` is the rule for what holds in all of them.
-/
namespace ScanApi.Machine
universe u v
variable {σ : Type u} {ε : Type v}

/-- What an event makes of a state, if it can happen there. -/
abbrev Step (σ : Type u) (ε : Type v) := σ → ε → Option σ

/-- The states that allowed events reach. -/
inductive Reached (step : Step σ ε) (allowed : σ → ε → Prop) (start : σ) : σ → Prop
  | start : Reached step allowed start start
  | next {s s' : σ} {e : ε} : Reached step allowed start s → allowed s e → step s e = some s' →
      Reached step allowed start s'

/-- Every event is allowed. -/
abbrev always : σ → ε → Prop := fun _ _ => True

variable {step : Step σ ε} {allowed : σ → ε → Prop} {start s : σ}

/-- What holds at the start and survives every allowed event holds in every state reached. -/
theorem Reached.invariant {P : σ → Prop} (first : P start)
    (next : ∀ s e s', P s → allowed s e → step s e = some s' → P s') (reached : Reached step allowed start s) : P s := by
  induction reached with
  | start => exact first
  | next _ ok taken ih => exact next _ _ _ ih ok taken

/-- The state after the events of a list, if each passes a check. -/
def after (step : Step σ ε) (check : σ → ε → Bool) : List ε → σ → Option σ
  | [], s => some s
  | e :: rest, s => if check s e then (step s e).bind (after step check rest) else none

theorem reached_after {check : σ → ε → Bool} (sound : ∀ s e, check s e = true → allowed s e) {events : List ε} {mid : σ}
    (before : Reached step allowed start mid) (taken : after step check events mid = some s) :
    Reached step allowed start s := by
  induction events generalizing mid with
  | nil =>
    obtain rfl := Option.some.inj taken
    exact before
  | cons e rest ih =>
    rw [after] at taken
    split at taken
    · rename_i ok
      obtain ⟨next, first, tail⟩ := Option.bind_eq_some_iff.mp taken
      exact ih (.next before (sound _ _ ok) first) tail
    · cases taken

/-- A state reached by a computation, and what a test says of it. -/
theorem exists_reached {check : σ → ε → Bool} (sound : ∀ s e, check s e = true → allowed s e) (events : List ε)
    (test : σ → Bool) (checked : (after step check events start).any test = true) :
    ∃ s, Reached step allowed start s ∧ test s = true := by
  cases taken : after step check events start with
  | none => rw [taken] at checked; cases checked
  | some s =>
    rw [taken] at checked
    exact ⟨s, reached_after sound .start taken, by simpa using checked⟩

end ScanApi.Machine
