import ScanApi.Prog
import ScanApi.Raising

/-!
Programs that ask something outside and keep the answers. `Recorded` says two
things of a program: however it ends, its view of the state only moves up, and
where it returns, a pure function returns the same in every environment that
gives the answers on record. The rules follow a program statement by statement.
-/
namespace ScanApi.Replay
open ScanApi.Prog ScanApi.Raising

/-- What is on record in a state, and the environments that give these answers. -/
structure Log (σ τ γ : Type) [Preorder τ] where
  view : σ → τ
  Fits : τ → γ → Prop
  earlier : ∀ {v w : τ} {g : γ}, v ≤ w → Fits w g → Fits v g

variable {σ τ γ ε α β : Type} [Preorder τ] {log : Log σ τ γ}

/-- A run moves the view only up; what it returns satisfies `P` and is returned
    by `y` in every environment that fits the state the run leaves. -/
def Recorded (log : Log σ τ γ) (P : α → Prop) (x : Prog σ ε α) (y : γ → Except ε α) : Prop :=
  ∀ s, log.view s ≤ log.view (exec x s).2 ∧
    ∀ a, (exec x s).1 = .ok a → P a ∧ ∀ g, log.Fits (log.view (exec x s).2) g → y g = .ok a

section
variable {P : α → Prop} {Q : β → Prop} {x : Prog σ ε α} {y : γ → Except ε α}

theorem growsTo_of_recorded (recorded : Recorded log P x y) : GrowsTo log.view P x :=
  fun s => ⟨(recorded s).1, fun a returned => ((recorded s).2 a returned).1⟩

theorem recorded_pure {a : α} (holds : P a) : Recorded log P (pure a : Prog σ ε α) (fun _ => pure a) := by
  intro s
  refine ⟨le_rfl, fun b same => ?_⟩
  obtain rfl := Except.ok.inj same
  exact ⟨holds, fun _ _ => rfl⟩

/-- The environment fits what the first part left, since nothing is forgotten. -/
theorem recorded_bind {f : α → Prog σ ε β} {h : α → γ → Except ε β} (first : Recorded log P x y)
    (second : ∀ a, P a → Recorded log Q (f a) (h a)) : Recorded log Q (x >>= f) (fun g => y g >>= fun a => h a g) := by
  intro s
  obtain ⟨up, returns⟩ := first s
  rw [exec_bind]
  rcases run : exec x s with ⟨e | a, s'⟩ <;> rw [run] at up returns
  · exact ⟨up, fun b impossible => nomatch impossible⟩
  · obtain ⟨holds, replayed⟩ := returns a rfl
    obtain ⟨up', returns'⟩ := second a holds s'
    refine ⟨le_trans up up', fun b same => ?_⟩
    obtain ⟨holds', replayed'⟩ := returns' b same
    exact ⟨holds', fun g fits => bind_ok.mpr ⟨a, replayed g (log.earlier up' fits), replayed' g fits⟩⟩

theorem recorded_weaken {P' : α → Prop} (weaker : ∀ a, P a → P' a) (recorded : Recorded log P x y) : Recorded log P' x y :=
  fun s => ⟨(recorded s).1, fun a returned => ((recorded s).2 a returned).imp_left (weaker a)⟩

theorem recorded_map {f : α → β} (first : Recorded log P x y) (after : ∀ a, P a → Q (f a)) :
    Recorded log Q (f <$> x) (fun g => f <$> y g) := by
  have steps : Recorded log Q (x >>= fun a => pure (f a)) (fun g => y g >>= fun a => pure (f a)) :=
    recorded_bind first (fun a holds => recorded_pure (after a holds))
  simpa only [bind_pure_comp] using steps

theorem recorded_ite {c : Prop} [Decidable c] {x' : Prog σ ε α} {y' : γ → Except ε α}
    (yes : c → Recorded log P x y) (no : ¬ c → Recorded log P x' y') :
    Recorded log P (if c then x else x') (fun g => if c then y g else y' g) := by
  by_cases decided : c
  · simpa only [decided, ↓reduceIte] using yes decided
  · simpa only [decided, ↓reduceIte] using no decided

/-- A loop has what an empty result and a longer one have. -/
theorem recorded_extend {R : List β → Prop} {f : α → Prog σ ε (List β)} {h : α → γ → Except ε (List β)}
    (empty : R []) (longer : ∀ first others, R first → R others → R (first ++ others))
    (round : ∀ a, Recorded log R (f a) (h a)) : ∀ l : List α,
      Recorded log R (extend f l) (fun g => extend (fun a => h a g) l) := by
  intro l
  induction l with
  | nil => exact recorded_pure empty
  | cons a rest ih =>
    refine recorded_bind (round a) (fun first holds => recorded_bind ih (fun others holds' => ?_))
    exact recorded_pure (longer first others holds holds')

end

end ScanApi.Replay
