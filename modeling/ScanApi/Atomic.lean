import ScanApi.Interleaving

/-!
Operations of several turns each of which takes effect at one of them. An effect
moves an abstract state; a simulation says for every turn whether it is silent or
takes effect, and then every run is a sequence of effects, each at a turn of its
own party and none twice (`Simulation.linearized`).
-/
namespace ScanApi.Atomic
open ScanApi.Interleaving

variable {σ ι τ α A β : Type}

/-- What an effect with an answer makes of the abstract state. -/
abbrev Effect (A ι β : Type) := ι → β → A → A → Prop

/-- Effects one after another. -/
inductive Sequence (effect : Effect A ι β) (start : A) : List (ι × β) → A → Prop
  | nil : Sequence effect start [] start
  | snoc {done : List (ι × β)} {a a' : A} {i : ι} {b : β} : Sequence effect start done a → effect i b a a' →
      Sequence effect start (done ++ [(i, b)]) a'

/-- The effects of a run, from its turns and what each of them answered. -/
def effects (marks : List ((ι × α) × Option β)) : List (ι × β) :=
  marks.filterMap (fun mark => mark.2.map (fun b => (mark.1.1, b)))

@[simp] theorem effects_nil : effects ([] : List ((ι × α) × Option β)) = [] := rfl

theorem effects_silent (marks : List ((ι × α) × Option β)) (turn : ι × α) :
    effects (marks ++ [(turn, none)]) = effects marks := by
  simp [effects]

theorem effects_taken (marks : List ((ι × α) × Option β)) (turn : ι × α) (b : β) :
    effects (marks ++ [(turn, some b)]) = effects marks ++ [(turn.1, b)] := by
  simp [effects]

variable [DecidableEq ι]

/-- The answers of one party's effects. -/
def answersOf (i : ι) (done : List (ι × β)) : List β := (done.filter (fun e => e.1 = i)).map Prod.snd

@[simp] theorem answersOf_nil (i : ι) : answersOf i ([] : List (ι × β)) = [] := rfl

theorem answersOf_snoc (i j : ι) (done : List (ι × β)) (b : β) :
    answersOf i (done ++ [(j, b)]) = answersOf i done ++ if j = i then [b] else [] := by
  by_cases same : j = i <;> simp [answersOf, same]

/-- The turns of a run explained by effects: they are those of a sequential run, each
    happens at a turn of its party, and a party has the one its place tells of. -/
structure Linearized (effect : Effect A ι β) (outcome : τ → Option β) (start : A) (turns : List (ι × α))
    (place : ι → τ) (marks : List ((ι × α) × Option β)) (a : A) : Prop where
  aligned : marks.map Prod.fst = turns
  sequential : Sequence effect start (effects marks) a
  once : ∀ i, answersOf i (effects marks) = (outcome (place i)).toList

/-- Every turn is silent, or it is the one at which its party takes effect. -/
def Simulation (turn : Turn σ ι τ α) (effect : Effect A ι β) (outcome : τ → Option β)
    (related : Joint σ ι τ → A → Prop) : Prop :=
  ∀ (joint : Joint σ ι τ) (a : A) (i : ι) (act : α) (after : σ × τ), related joint a →
    turn i act (joint.shared, joint.place i) after →
      (outcome after.2 = outcome (joint.place i) ∧ related (joint.moved i after) a) ∨
      ∃ b a', outcome (joint.place i) = none ∧ outcome after.2 = some b ∧ effect i b a a' ∧
        related (joint.moved i after) a'

variable {turn : Turn σ ι τ α} {effect : Effect A ι β} {outcome : τ → Option β} {related : Joint σ ι τ → A → Prop}
  {start : A} {turns : List (ι × α)} {place : ι → τ} {marks : List ((ι × α) × Option β)} {a a' : A} {i : ι} {act : α}
  {at' : τ} {b : β}

theorem Linearized.silent (before : Linearized effect outcome start turns place marks a)
    (same : outcome at' = outcome (place i)) :
    Linearized effect outcome start (turns ++ [(i, act)]) (Function.update place i at') (marks ++ [((i, act), none)]) a where
  aligned := by simp [before.aligned]
  sequential := by rw [effects_silent]; exact before.sequential
  once j := by
    rw [effects_silent, before.once j]
    by_cases here : j = i
    · subst here; rw [Function.update_self, same]
    · rw [Function.update_of_ne here]

theorem Linearized.taken (before : Linearized effect outcome start turns place marks a)
    (open' : outcome (place i) = none) (answered : outcome at' = some b) (moved : effect i b a a') :
    Linearized effect outcome start (turns ++ [(i, act)]) (Function.update place i at') (marks ++ [((i, act), some b)]) a' where
  aligned := by simp [before.aligned]
  sequential := by rw [effects_taken]; exact .snoc before.sequential moved
  once j := by
    rw [effects_taken, answersOf_snoc, before.once j]
    by_cases here : j = i
    · subst here; simp [open', answered]
    · rw [Function.update_of_ne here, if_neg (Ne.symm here), List.append_nil]

/-- Every run is explained by effects. -/
theorem Simulation.linearized (sim : Simulation turn effect outcome related) {first joint : Joint σ ι τ}
    (begun : related first start) (unanswered : ∀ i, outcome (first.place i) = none) (run : Run turn first turns joint) :
    ∃ marks a, Linearized effect outcome start turns joint.place marks a ∧ related joint a := by
  induction run with
  | nil => exact ⟨[], start, ⟨rfl, .nil, fun i => by rw [unanswered i]; rfl⟩, begun⟩
  | @snoc turns joint i act after _ taken ih =>
    obtain ⟨marks, a, before, here⟩ := ih
    rcases sim joint a i act after here taken with ⟨same, next⟩ | ⟨b, a', open', answered, moved, next⟩
    · exact ⟨_, a, before.silent same, next⟩
    · exact ⟨_, a', before.taken open' answered moved, next⟩

end ScanApi.Atomic
