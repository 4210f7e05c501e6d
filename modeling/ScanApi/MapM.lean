import Mathlib.Data.List.Forall2

/-!
Lists of results of a function that may have none: `List.mapM` of an `Option`.
-/
namespace ScanApi.MapM

variable {α β : Type} {f : α → Option β}

theorem mapM_cons_some {a : α} {rest : List α} {results : List β} :
    (a :: rest).mapM f = some results ↔ ∃ b others, f a = some b ∧ rest.mapM f = some others ∧ results = b :: others := by
  rw [List.mapM_cons]
  simp only [Option.bind_eq_bind, Option.bind_eq_some_iff, Option.pure_def, Option.some.injEq]
  constructor
  · rintro ⟨b, first, others, looped, rfl⟩; exact ⟨b, others, first, looped, rfl⟩
  · rintro ⟨b, others, first, looped, rfl⟩; exact ⟨b, first, others, looped, rfl⟩

/-- The results are those of the elements, one each. -/
theorem forall₂_mapM : ∀ {l : List α} {results : List β}, l.mapM f = some results →
    List.Forall₂ (fun a b => f a = some b) l results := by
  intro l
  induction l with
  | nil =>
    intro results mapped
    rw [List.mapM_nil] at mapped
    obtain rfl := Option.some.inj mapped
    exact .nil
  | cons a rest ih =>
    intro results mapped
    obtain ⟨b, others, first, looped, rfl⟩ := mapM_cons_some.mp mapped
    exact .cons first (ih looped)

theorem mem_mapM {l : List α} {results : List β} (mapped : l.mapM f = some results) {b : β} :
    b ∈ results ↔ ∃ a ∈ l, f a = some b := by
  have related := forall₂_mapM mapped
  clear mapped
  induction related with
  | nil => simp
  | @cons a b' _ _ first _ ih =>
    simp only [List.mem_cons, ih]
    constructor
    · rintro (rfl | ⟨a', member, found⟩)
      · exact ⟨a, .inl rfl, first⟩
      · exact ⟨a', .inr member, found⟩
    · rintro ⟨a', rfl | member, found⟩
      · exact .inl (Option.some.inj (found.symm.trans first))
      · exact .inr ⟨a', member, found⟩

theorem mapM_all {l : List α} {results : List β} (mapped : l.mapM f = some results) {a : α} (member : a ∈ l) :
    ∃ b, f a = some b := by
  have related := forall₂_mapM mapped
  clear mapped
  induction related with
  | nil => cases member
  | cons first _ ih =>
    rcases List.mem_cons.mp member with rfl | inside
    · exact ⟨_, first⟩
    · exact ih inside

theorem exists_mapM {l : List α} (all : ∀ a ∈ l, ∃ b, f a = some b) :
    ∃ results, l.mapM f = some results := by
  induction l with
  | nil => exact ⟨[], rfl⟩
  | cons a rest ih =>
    obtain ⟨⟨b, first⟩, others⟩ := List.forall_mem_cons.mp all
    obtain ⟨results, mapped⟩ := ih others
    exact ⟨b :: results, mapM_cons_some.mpr ⟨b, results, first, mapped, rfl⟩⟩

theorem length_mapM {l : List α} {results : List β} (mapped : l.mapM f = some results) : l.length = results.length :=
  (forall₂_mapM mapped).length_eq

/-- Reordered elements have reordered results. -/
theorem perm_mapM {l l' : List α} (perm : l.Perm l') : Option.Rel List.Perm (l.mapM f) (l'.mapM f) := by
  induction perm with
  | nil => exact .some (.refl _)
  | @cons a rest rest' _ ih =>
    rw [List.mapM_cons, List.mapM_cons]
    generalize rest.mapM f = results at ih ⊢
    generalize rest'.mapM f = results' at ih ⊢
    cases f a with
    | none => exact .none
    | some b =>
      cases ih with
      | none => exact .none
      | some perm => exact .some (perm.cons b)
  | swap a b l =>
    simp only [List.mapM_cons]
    cases f a with
    | none => cases f b <;> exact .none
    | some c =>
      cases f b with
      | none => exact .none
      | some d =>
        cases l.mapM f with
        | none => exact .none
        | some rest => exact .some (.swap c d rest)
  | @trans one two three _ _ first second =>
    generalize one.mapM f = results at first ⊢
    generalize two.mapM f = results' at first second
    generalize three.mapM f = results'' at second ⊢
    cases first with
    | none => exact second
    | some perm =>
      cases second with
      | some perm' => exact .some (perm.trans perm')

/-- What does not depend on the order of the results does not depend on that of the elements. -/
theorem bind_mapM_perm {γ : Type} {l l' : List α} (perm : l.Perm l') {g : List β → Option γ}
    (same : ∀ {results results' : List β}, results.Perm results' → g results = g results') :
    (l.mapM f).bind g = (l'.mapM f).bind g := by
  have reordered : Option.Rel List.Perm (l.mapM f) (l'.mapM f) := perm_mapM perm
  generalize l.mapM f = results at reordered ⊢
  generalize l'.mapM f = results' at reordered ⊢
  cases reordered with
  | none => rfl
  | some moved => exact same moved

end ScanApi.MapM
