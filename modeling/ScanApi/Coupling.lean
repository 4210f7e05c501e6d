import Mathlib.Data.List.Forall2
import ScanApi.Raising

/-!
Two programs that do the same things and differ in what they return. In a coupling
one program runs for both, and each takes its part of what it returns; so whatever
the monad records, fetches or raises is the same, and only results are to be
compared (`coupled_bind`). Programs coupled by equality are equal.
-/
namespace ScanApi.Coupling
open ScanApi.Raising

variable {m : Type → Type} [Monad m] {α β γ δ : Type}

/-- One program runs for both, and what it returns to each is related. -/
def Coupled (R : α → β → Prop) (x : m α) (y : m β) : Prop :=
  ∃ both : m {p : α × β // R p.1 p.2}, x = (fun p => p.1.1) <$> both ∧ y = (fun p => p.1.2) <$> both

variable [LawfulMonad m] {R : α → β → Prop} {S : γ → δ → Prop}

theorem coupled_pure {a : α} {b : β} (related : R a b) : Coupled R (pure a : m α) (pure b) :=
  ⟨pure ⟨(a, b), related⟩, by simp, by simp⟩

theorem coupled_bind {x : m α} {y : m β} {f : α → m γ} {g : β → m δ} (first : Coupled R x y)
    (second : ∀ a b, R a b → Coupled S (f a) (g b)) : Coupled S (x >>= f) (y >>= g) := by
  obtain ⟨both, rfl, rfl⟩ := first
  choose next left right using fun p : {p : α × β // R p.1 p.2} => second p.1.1 p.1.2 p.2
  refine ⟨both >>= next, ?_, ?_⟩
  · rw [map_bind, bind_map_left]
    exact bind_congr left
  · rw [map_bind, bind_map_left]
    exact bind_congr right

theorem coupled_map {x : m α} {y : m β} {f : α → γ} {g : β → δ} (first : Coupled R x y)
    (second : ∀ a b, R a b → S (f a) (g b)) : Coupled S (f <$> x) (g <$> y) := by
  rw [← bind_pure_comp, ← bind_pure_comp]
  exact coupled_bind first (fun a b related => coupled_pure (second a b related))

/-- One program, and what it returns. -/
theorem coupled_refl {R : α → α → Prop} (refl : ∀ a, R a a) (x : m α) : Coupled R x x :=
  ⟨(fun a => ⟨(a, a), refl a⟩) <$> x, by simp, by simp⟩

/-- The same first part, which returns the same to both. -/
theorem coupled_bind_same (x : m α) {f : α → m γ} {g : α → m δ} (second : ∀ a, Coupled S (f a) (g a)) :
    Coupled S (x >>= f) (x >>= g) := by
  have same : Coupled (· = ·) x x := coupled_refl (fun _ => rfl) x
  refine coupled_bind same (fun a b equal => ?_)
  subst equal
  exact second a

omit [LawfulMonad m] in
theorem coupled_ite {c : Prop} [Decidable c] {x x' : m α} {y y' : m β} (yes : Coupled R x y) (no : Coupled R x' y') :
    Coupled R (if c then x else x') (if c then y else y') := by
  split
  · exact yes
  · exact no

/-- Where what is returned to one is a function of what is returned to the other. -/
theorem eq_map_of_coupled {x : m α} {y : m β} {f : α → β} (coupled : Coupled (fun a b => b = f a) x y) : y = f <$> x := by
  obtain ⟨both, rfl, rfl⟩ := coupled
  rw [← comp_map]
  exact congrArg (· <$> both) (funext fun p => p.2)

/-- Loops whose rounds are coupled, where the relation is kept when lists are joined. -/
theorem coupled_extend {Q : α → β → Prop} {R : List γ → List δ → Prop} {f : α → m (List γ)} {g : β → m (List δ)}
    (nil : R [] []) (append : ∀ first first' rest rest', R first first' → R rest rest' → R (first ++ rest) (first' ++ rest'))
    {l : List α} {l' : List β} (related : List.Forall₂ Q l l') (round : ∀ a b, Q a b → Coupled R (f a) (g b)) :
    Coupled R (extend f l) (extend g l') := by
  induction related with
  | nil => exact coupled_pure nil
  | cons pair _ ih =>
    refine coupled_bind (round _ _ pair) (fun first first' one => coupled_bind ih (fun rest rest' tail => ?_))
    exact coupled_pure (append _ _ _ _ one tail)

end ScanApi.Coupling
