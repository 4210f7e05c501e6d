import Mathlib.Data.List.Basic
import Mathlib.Data.List.Induction
import Mathlib.Logic.Function.Basic

/-!
Parties that take turns at a shared state. Each party is at some place of its
own program, and a turn moves one party and the shared state; nothing is assumed
about the order of turns. `Run.invariant` is the rule for what holds after every
run, `Before` the order of two turns of a run, `lastTo` the party whose turn of
some kind came last.
-/
namespace ScanApi.Interleaving

/-- The shared state and the place of every party. -/
structure Joint (σ ι τ : Type) where
  shared : σ
  place : ι → τ

variable {σ ι τ α : Type} [DecidableEq ι]

/-- What a turn of a kind makes of the shared state and the party's place. -/
abbrev Turn (σ ι τ α : Type) := ι → α → σ × τ → σ × τ → Prop

def Joint.moved (joint : Joint σ ι τ) (i : ι) (after : σ × τ) : Joint σ ι τ where
  shared := after.1
  place := Function.update joint.place i after.2

@[simp] theorem shared_moved (joint : Joint σ ι τ) (i : ι) (after : σ × τ) : (joint.moved i after).shared = after.1 := rfl

@[simp] theorem place_moved (joint : Joint σ ι τ) (i : ι) (after : σ × τ) : (joint.moved i after).place i = after.2 := by
  simp [Joint.moved]

theorem place_moved_of_ne (joint : Joint σ ι τ) {i j : ι} (after : σ × τ) (other : j ≠ i) :
    (joint.moved i after).place j = joint.place j := by
  simp [Joint.moved, other]

/-- Any number of turns, in any order. -/
inductive Run (turn : Turn σ ι τ α) (start : Joint σ ι τ) : List (ι × α) → Joint σ ι τ → Prop
  | nil : Run turn start [] start
  | snoc {turns : List (ι × α)} {joint : Joint σ ι τ} {i : ι} {a : α} {after : σ × τ} :
      Run turn start turns joint → turn i a (joint.shared, joint.place i) after →
      Run turn start (turns ++ [(i, a)]) (joint.moved i after)

/-- What holds at the start and survives every turn holds after every run. -/
theorem Run.invariant {turn : Turn σ ι τ α} {start : Joint σ ι τ} {P : List (ι × α) → Joint σ ι τ → Prop}
    (first : P [] start)
    (next : ∀ turns joint i a after, P turns joint → turn i a (joint.shared, joint.place i) after →
      P (turns ++ [(i, a)]) (joint.moved i after))
    {turns : List (ι × α)} {joint : Joint σ ι τ} (run : Run turn start turns joint) : P turns joint := by
  induction run with
  | nil => exact first
  | snoc _ taken ih => exact next _ _ _ _ _ ih taken

theorem Run.mono {turn turn' : Turn σ ι τ α} (more : ∀ i a before after, turn i a before after → turn' i a before after)
    {start joint : Joint σ ι τ} {turns : List (ι × α)} (run : Run turn start turns joint) :
    Run turn' start turns joint := by
  induction run with
  | nil => exact .nil
  | snoc _ taken ih => exact .snoc ih (more _ _ _ _ taken)

/-- Turns that a function computes; it refuses those that cannot be taken. -/
def ofFunction (f : ι → α → σ × τ → Option (σ × τ)) : Turn σ ι τ α := fun i a before after => f i a before = some after

/-- Takes the turns of a list. -/
def perform (f : ι → α → σ × τ → Option (σ × τ)) : List (ι × α) → Joint σ ι τ → Option (Joint σ ι τ)
  | [], joint => some joint
  | (i, a) :: rest, joint => (f i a (joint.shared, joint.place i)).bind (fun after => perform f rest (joint.moved i after))

theorem run_of_perform {f : ι → α → σ × τ → Option (σ × τ)} {start joint : Joint σ ι τ} {turns : List (ι × α)}
    (performed : perform f turns start = some joint) : Run (ofFunction f) start turns joint := by
  have further : ∀ (rest before : List (ι × α)) (mid : Joint σ ι τ), Run (ofFunction f) start before mid →
      perform f rest mid = some joint → Run (ofFunction f) start (before ++ rest) joint := by
    intro rest
    induction rest with
    | nil =>
      intro before mid run same
      obtain rfl := Option.some.inj same
      simpa using run
    | cons turn rest ih =>
      intro before mid run taken
      obtain ⟨after, moved, tail⟩ := Option.bind_eq_some_iff.mp taken
      have := ih (before ++ [turn]) _ (.snoc run moved) tail
      simpa using this
  simpa using further turns [] start .nil performed

/-- A run from a computation: it takes the turns, and ends where a test says. -/
theorem exists_run (f : ι → α → σ × τ → Option (σ × τ)) (start : Joint σ ι τ) (turns : List (ι × α))
    (test : Joint σ ι τ → Bool) (checked : (perform f turns start).any test = true) :
    ∃ joint, Run (ofFunction f) start turns joint ∧ test joint = true := by
  cases performed : perform f turns start with
  | none => rw [performed] at checked; cases checked
  | some joint =>
    rw [performed] at checked
    exact ⟨joint, run_of_perform performed, by simpa using checked⟩

/-! ### The order of turns -/

/-- One turn comes before the other. -/
def Before (a b : ι × α) (turns : List (ι × α)) : Prop := [a, b].Sublist turns

instance [DecidableEq α] (a b : ι × α) (turns : List (ι × α)) : Decidable (Before a b turns) :=
  inferInstanceAs (Decidable (List.Sublist _ _))

omit [DecidableEq ι] in
theorem sublist_snoc {l : List (ι × α)} {a : ι × α} {turns : List (ι × α)} {b : ι × α} :
    (l ++ [a]).Sublist (turns ++ [b]) ↔ (l ++ [a]).Sublist turns ∨ (a = b ∧ l.Sublist turns) := by
  have flipped : (l ++ [a]).Sublist turns ↔ (a :: l.reverse).Sublist turns.reverse := by
    rw [← List.reverse_sublist, List.reverse_append]
    rfl
  rw [flipped, ← List.reverse_sublist, List.reverse_append, List.reverse_append]
  simp [List.cons_sublist_cons']

omit [DecidableEq ι] in
@[simp] theorem not_before_nil (a b : ι × α) : ¬ Before a b [] := by
  simp [Before]

omit [DecidableEq ι] in
theorem before_snoc {a b c : ι × α} {turns : List (ι × α)} :
    Before a b (turns ++ [c]) ↔ Before a b turns ∨ (b = c ∧ a ∈ turns) := by
  have snoc : ([a] ++ [b]).Sublist (turns ++ [c]) ↔ ([a] ++ [b]).Sublist turns ∨ (b = c ∧ [a].Sublist turns) := sublist_snoc
  simpa [Before] using snoc

/-- The party whose turn of kind `a` came last. -/
def lastTo [DecidableEq α] (a : α) (turns : List (ι × α)) : Option ι :=
  (turns.filter (fun turn => turn.2 = a)).getLast?.map Prod.fst

omit [DecidableEq ι] in
theorem lastTo_snoc [DecidableEq α] (a : α) (turns : List (ι × α)) (i : ι) (b : α) :
    lastTo a (turns ++ [(i, b)]) = if b = a then some i else lastTo a turns := by
  by_cases same : b = a <;> simp [lastTo, same]

omit [DecidableEq ι] in
theorem lastTo_mem [DecidableEq α] {a : α} {turns : List (ι × α)} {i : ι} (last : lastTo a turns = some i) :
    (i, a) ∈ turns := by
  obtain ⟨turn, found, rfl⟩ := Option.map_eq_some_iff.mp last
  have member := List.mem_of_getLast? found
  obtain ⟨inside, kind⟩ := List.mem_filter.mp member
  obtain rfl : turn.2 = a := by simpa using kind
  exact inside

omit [DecidableEq ι] in
theorem lastTo_isSome [DecidableEq α] {a : α} {turns : List (ι × α)} {i : ι} (member : (i, a) ∈ turns) :
    ∃ j, lastTo a turns = some j := by
  have inside : (i, a) ∈ turns.filter (fun turn => turn.2 = a) := List.mem_filter.mpr ⟨member, by simp⟩
  obtain ⟨turn, found⟩ := Option.isSome_iff_exists.mp (List.getLast?_isSome.mpr (List.ne_nil_of_mem inside))
  exact ⟨turn.1, by simp [lastTo, found]⟩

omit [DecidableEq ι] in
/-- Any other turn of the kind comes before the last one. -/
theorem before_last [DecidableEq α] {a : α} {i j : ι} (other : j ≠ i) : ∀ {turns : List (ι × α)},
    lastTo a turns = some i → (j, a) ∈ turns → Before (j, a) (i, a) turns := by
  intro turns
  induction turns using List.reverseRecOn with
  | nil => intro last; cases last
  | append_singleton turns turn ih =>
    obtain ⟨k, b⟩ := turn
    intro last member
    rw [lastTo_snoc] at last
    rw [before_snoc]
    by_cases kind : b = a
    · subst kind
      obtain rfl : k = i := by simpa using last
      have earlier : (j, b) ∈ turns := by simpa [other] using member
      exact .inr ⟨rfl, earlier⟩
    · have earlier : (j, a) ∈ turns := by simpa [Ne.symm kind] using member
      exact .inl (ih (by simpa [kind] using last) earlier)

end ScanApi.Interleaving
