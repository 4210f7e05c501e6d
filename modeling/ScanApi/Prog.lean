import Mathlib.Order.Defs.PartialOrder

/-!
Programs that read and write a state and may raise. The state survives a raise,
so what was done before it can still be observed. `exec` runs a program from a
state; the `exec_*` lemmas take a run apart statement by statement, and a loop
that returns is the fold of what its rounds do. `Grows` is the rule for what
holds however a program ends: a view of the state only moves up.
-/
namespace ScanApi

abbrev Prog (σ ε α : Type) := ExceptT ε (StateM σ) α

namespace Prog
variable {σ ε α β : Type}

/-- The outcome of a run and the state it leaves. -/
def exec (x : Prog σ ε α) (s : σ) : Except ε α × σ := x.run s

@[simp] theorem exec_pure (a : α) (s : σ) : exec (pure a : Prog σ ε α) s = (.ok a, s) := rfl
@[simp] theorem exec_throw (e : ε) (s : σ) : exec (throw e : Prog σ ε α) s = (.error e, s) := rfl
@[simp] theorem exec_get (s : σ) : exec (get : Prog σ ε σ) s = (.ok s, s) := rfl
@[simp] theorem exec_set (s' s : σ) : exec (set s' : Prog σ ε PUnit) s = (.ok ⟨⟩, s') := rfl
@[simp] theorem exec_modify (f : σ → σ) (s : σ) : exec (modify f : Prog σ ε PUnit) s = (.ok ⟨⟩, f s) := rfl

theorem exec_bind (x : Prog σ ε α) (f : α → Prog σ ε β) (s : σ) :
    exec (x >>= f) s = match exec x s with
      | (.ok a, s') => exec (f a) s'
      | (.error e, s') => (.error e, s') := by
  change exec (ExceptT.mk (ExceptT.run x >>= ExceptT.bindCont f)) s = _
  rcases run : exec x s with ⟨_ | a, s'⟩ <;> simp_all [exec, ExceptT.run, ExceptT.mk, StateT.bind, bind, ExceptT.bindCont]
  all_goals rfl

theorem exec_map (f : α → β) (x : Prog σ ε α) (s : σ) :
    exec (f <$> x) s = match exec x s with
      | (.ok a, s') => (.ok (f a), s')
      | (.error e, s') => (.error e, s') := by
  rw [← bind_pure_comp, exec_bind]
  rfl

theorem exec_tryCatch (x : Prog σ ε α) (handle : ε → Prog σ ε α) (s : σ) :
    exec (tryCatch x handle) s = match exec x s with
      | (.ok a, s') => (.ok a, s')
      | (.error e, s') => exec (handle e) s' := by
  change exec (ExceptT.tryCatch x handle) s = _
  rcases run : exec x s with ⟨_ | a, s'⟩ <;> simp_all [exec, ExceptT.run, ExceptT.mk, StateT.bind, bind, ExceptT.tryCatch]
  all_goals rfl

/-- A sequence returns when both of its parts do. -/
theorem exec_bind_ok {x : Prog σ ε α} {f : α → Prog σ ε β} {s s'' : σ} {b : β} :
    exec (x >>= f) s = (.ok b, s'') ↔ ∃ a s', exec x s = (.ok a, s') ∧ exec (f a) s' = (.ok b, s'') := by
  rw [exec_bind]
  rcases run : exec x s with ⟨_ | a, s'⟩
  · simp
  · constructor
    · intro tail; exact ⟨a, s', rfl, tail⟩
    · rintro ⟨a', s'', same, tail⟩; cases same; exact tail

/-- A raise comes from the first part, or from the second after the first returned. -/
theorem exec_bind_error {x : Prog σ ε α} {f : α → Prog σ ε β} {s s'' : σ} {e : ε} :
    exec (x >>= f) s = (.error e, s'') ↔
      exec x s = (.error e, s'') ∨ ∃ a s', exec x s = (.ok a, s') ∧ exec (f a) s' = (.error e, s'') := by
  rw [exec_bind]
  rcases run : exec x s with ⟨_ | a, s'⟩
  · simp
  · constructor
    · intro tail; exact .inr ⟨a, s', rfl, tail⟩
    · rintro (impossible | ⟨a', s'', same, tail⟩)
      · cases impossible
      · cases same; exact tail

/-! ### Loops -/

section
variable {τ : Type}

/-- A loop that returns did every round, and the view of the state is the fold
    of the rounds. -/
theorem exec_forM_ok {f : α → Prog σ ε PUnit} {view : σ → τ} {round : τ → α → τ} {Done : α → Prop}
    (one : ∀ a s s', exec (f a) s = (.ok ⟨⟩, s') → Done a ∧ view s' = round (view s) a) :
    ∀ {l : List α} {s s' : σ}, exec (l.forM f) s = (.ok ⟨⟩, s') →
      (∀ a ∈ l, Done a) ∧ view s' = l.foldl round (view s) := by
  intro l
  induction l with
  | nil =>
    intro s s' returned
    cases returned
    exact ⟨by simp, rfl⟩
  | cons a rest ih =>
    intro s s'' returned
    change exec (f a >>= fun _ => rest.forM f) s = _ at returned
    obtain ⟨_, s', first, tail⟩ := exec_bind_ok.mp returned
    obtain ⟨done, moved⟩ := one a s s' first
    obtain ⟨others, folded⟩ := ih tail
    exact ⟨by simpa [done] using others, by rw [folded, moved, List.foldl_cons]⟩

/-- A loop whose rounds all return returns their fold. -/
theorem exec_forM_of_rounds {f : α → Prog σ ε PUnit} {round : σ → α → σ} {Ready : σ → Prop} {l : List α}
    (one : ∀ a ∈ l, ∀ s, Ready s → exec (f a) s = (.ok ⟨⟩, round s a) ∧ Ready (round s a)) :
    ∀ {s : σ}, Ready s → exec (l.forM f) s = (.ok ⟨⟩, l.foldl round s) ∧ Ready (l.foldl round s) := by
  induction l with
  | nil => intro s ready; exact ⟨rfl, ready⟩
  | cons a rest ih =>
    intro s ready
    obtain ⟨first, next⟩ := one a List.mem_cons_self s ready
    obtain ⟨tail, last⟩ := ih (fun b member => one b (List.mem_cons_of_mem _ member)) next
    change exec (f a >>= fun _ => rest.forM f) s = _ ∧ _
    rw [exec_bind, first]
    exact ⟨tail, last⟩

/-! ### However it ends -/

variable [Preorder τ] {view : σ → τ}

/-- A run moves the view of the state only up, whether it returns or raises. -/
def Grows (view : σ → τ) (x : Prog σ ε α) : Prop := ∀ s, view s ≤ view (exec x s).2

theorem grows_pure (a : α) : Grows view (pure a : Prog σ ε α) := fun _ => le_rfl
theorem grows_throw (e : ε) : Grows view (throw e : Prog σ ε α) := fun _ => le_rfl
theorem grows_get : Grows view (get : Prog σ ε σ) := fun _ => le_rfl
theorem grows_modify {f : σ → σ} (up : ∀ s, view s ≤ view (f s)) : Grows view (modify f : Prog σ ε PUnit) := up

theorem grows_bind {x : Prog σ ε α} {f : α → Prog σ ε β} (first : Grows view x) (second : ∀ a, Grows view (f a)) :
    Grows view (x >>= f) := by
  intro s
  have up := first s
  rw [exec_bind]
  rcases run : exec x s with ⟨_ | a, s'⟩ <;> rw [run] at up
  · exact up
  · exact le_trans up (second a s')

theorem grows_map {f : α → β} {x : Prog σ ε α} (first : Grows view x) : Grows view (f <$> x) := by
  rw [← bind_pure_comp]
  exact grows_bind first (fun a => grows_pure (f a))

theorem grows_tryCatch {x : Prog σ ε α} {handle : ε → Prog σ ε α} (body : Grows view x)
    (handler : ∀ e, Grows view (handle e)) : Grows view (tryCatch x handle) := by
  intro s
  have up := body s
  rw [exec_tryCatch]
  rcases run : exec x s with ⟨e | a, s'⟩ <;> rw [run] at up
  · exact le_trans up (handler e s')
  · exact up

theorem grows_forM {f : α → Prog σ ε PUnit} {l : List α} (round : ∀ a ∈ l, Grows view (f a)) :
    Grows view (l.forM f) := by
  induction l with
  | nil => exact grows_pure _
  | cons a rest ih =>
    change Grows view (f a >>= fun _ => rest.forM f)
    exact grows_bind (round a List.mem_cons_self) (fun _ => ih (fun b member => round b (List.mem_cons_of_mem _ member)))

/-- A run moves the view only up, and what it returns satisfies `Q`. -/
def GrowsTo (view : σ → τ) (Q : α → Prop) (x : Prog σ ε α) : Prop :=
  ∀ s, view s ≤ view (exec x s).2 ∧ ∀ a, (exec x s).1 = .ok a → Q a

section
variable {P : α → Prop} {Q : β → Prop}

theorem growsTo_pure {a : α} (holds : P a) : GrowsTo view P (pure a : Prog σ ε α) := by
  intro s
  refine ⟨le_rfl, fun b same => ?_⟩
  obtain rfl := Except.ok.inj same
  exact holds

theorem growsTo_bind {x : Prog σ ε α} {f : α → Prog σ ε β} (first : GrowsTo view P x)
    (second : ∀ a, P a → GrowsTo view Q (f a)) : GrowsTo view Q (x >>= f) := by
  intro s
  obtain ⟨up, returns⟩ := first s
  rw [exec_bind]
  rcases run : exec x s with ⟨e | a, s'⟩ <;> rw [run] at up returns
  · exact ⟨up, fun b impossible => nomatch impossible⟩
  · obtain ⟨up', returns'⟩ := second a (returns a rfl) s'
    exact ⟨le_trans up up', returns'⟩

end

end

end Prog
end ScanApi
