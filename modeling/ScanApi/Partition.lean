import Mathlib.Data.List.TakeWhile

/-!
Cutting a text at a character: `text.partition(c)`, where the text before the
first `c` has none, and `text.rpartition(c)`, where the text after the last one
has none. Such a cut is the only one. A text is also cut where a class of
characters ends.
-/
namespace ScanApi.Partition
universe u
variable {α : Type u} [DecidableEq α] {sep : α} {before after l : List α}

/-- `text.partition(sep)`: what follows the separator is there if the separator is. -/
def partition (sep : α) (l : List α) : List α × Option (List α) :=
  (l.takeWhile (· ≠ sep), match l.dropWhile (· ≠ sep) with
    | [] => none
    | _ :: rest => some rest)

/-- `text.rpartition(sep)`, if the separator is there. -/
def rpartition (sep : α) (l : List α) : Option (List α × List α) :=
  let (last, front) := partition sep l.reverse
  front.map (fun front => (front.reverse, last.reverse))

/-- `text.split(mark, 1)`: what stands before and after the first `mark`, if it occurs. -/
def splitOnce (mark : List α) : List α → Option (List α × List α)
  | [] => none
  | a :: rest =>
    if mark.isPrefixOf (a :: rest) then some ([], (a :: rest).drop mark.length)
    else (splitOnce mark rest).map (fun parts => (a :: parts.1, parts.2))

theorem ne_of_notMem (absent : sep ∉ l) : ∀ a ∈ l, decide (a ≠ sep) = true :=
  fun _ member => decide_eq_true (fun same => absent (same ▸ member))

theorem dropWhile_of_notMem (absent : sep ∉ l) : l.dropWhile (· ≠ sep) = [] :=
  List.dropWhile_eq_nil_iff.mpr (ne_of_notMem absent)

theorem dropWhile_append (absent : sep ∉ before) (after : List α) :
    (before ++ sep :: after).dropWhile (· ≠ sep) = sep :: after := by
  rw [List.dropWhile_append_of_pos (ne_of_notMem absent)]
  simp

theorem partition_of_notMem (absent : sep ∉ l) : partition sep l = (l, none) := by
  rw [partition, List.takeWhile_eq_self_iff.mpr (ne_of_notMem absent), dropWhile_of_notMem absent]

theorem partition_append (absent : sep ∉ before) (after : List α) :
    partition sep (before ++ sep :: after) = (before, some after) := by
  rw [partition, List.takeWhile_append_of_pos (ne_of_notMem absent), dropWhile_append absent]
  simp

/-- A text has no separator, or is cut at its first one. -/
theorem eq_or_partition (sep : α) (l : List α) :
    (sep ∉ l ∧ partition sep l = (l, none)) ∨
      ∃ before after, l = before ++ sep :: after ∧ sep ∉ before ∧ partition sep l = (before, some after) := by
  by_cases inside : sep ∈ l
  · obtain ⟨before, after, split, absent⟩ := List.eq_append_cons_of_mem inside
    exact .inr ⟨before, after, split, absent, split ▸ partition_append absent after⟩
  · exact .inl ⟨inside, partition_of_notMem inside⟩

theorem rpartition_of_notMem (absent : sep ∉ l) : rpartition sep l = none := by
  rw [rpartition, partition_of_notMem (fun inside => absent (List.mem_reverse.mp inside))]
  rfl

theorem rpartition_append (before : List α) (absent : sep ∉ after) :
    rpartition sep (before ++ sep :: after) = some (before, after) := by
  have flipped : (before ++ sep :: after).reverse = after.reverse ++ sep :: before.reverse := by simp
  rw [rpartition, flipped, partition_append (fun inside => absent (List.mem_reverse.mp inside))]
  simp

/-- A text has no separator, or is cut at its last one. -/
theorem eq_or_rpartition (sep : α) (l : List α) :
    (sep ∉ l ∧ rpartition sep l = none) ∨
      ∃ before after, l = before ++ sep :: after ∧ sep ∉ after ∧ rpartition sep l = some (before, after) := by
  rcases eq_or_partition sep l.reverse with ⟨absent, -⟩ | ⟨first, rest, split, absent, -⟩
  · have none : sep ∉ l := fun inside => absent (List.mem_reverse.mpr inside)
    exact .inl ⟨none, rpartition_of_notMem none⟩
  · have whole : l = rest.reverse ++ sep :: first.reverse := by
      rw [← List.reverse_reverse l, split]
      simp
    have none : sep ∉ first.reverse := fun inside => absent (List.mem_reverse.mp inside)
    exact .inr ⟨_, _, whole, none, whole ▸ rpartition_append _ none⟩

/-- The cut at the last separator is the only one. -/
theorem append_cons_inj_right {before' after' : List α} (absent : sep ∉ after) (absent' : sep ∉ after')
    (same : before ++ sep :: after = before' ++ sep :: after') : before = before' ∧ after = after' := by
  have cut := rpartition_append before absent
  rw [same, rpartition_append before' absent'] at cut
  obtain ⟨first, second⟩ := Prod.mk.inj (Option.some.inj cut)
  exact ⟨first.symm, second.symm⟩

/-- The cut at the first separator is the only one. -/
theorem append_cons_inj_left {before' after' : List α} (absent : sep ∉ before) (absent' : sep ∉ before')
    (same : before ++ sep :: after = before' ++ sep :: after') : before = before' ∧ after = after' := by
  have cut := partition_append absent after
  rw [same, partition_append absent' after'] at cut
  obtain ⟨first, second⟩ := Prod.mk.inj cut
  exact ⟨first.symm, (Option.some.inj second).symm⟩

omit [DecidableEq α] in
/-- Two cuts of a text at different separators: one of them lies before the other. -/
theorem mem_or_mem_of_ne {a b : α} {before' after' : List α} (other : a ≠ b)
    (same : before ++ a :: after = before' ++ b :: after') : a ∈ before' ∨ b ∈ before := by
  rcases List.append_eq_append_iff.mp same with ⟨mid, rfl, later⟩ | ⟨mid, rfl, later⟩
  · cases mid with
    | nil => exact absurd (List.cons.inj later).1 other
    | cons d mid =>
      obtain ⟨rfl, -⟩ := List.cons.inj later
      exact .inl (by simp)
  · cases mid with
    | nil => exact absurd (List.cons.inj later).1.symm other
    | cons d mid =>
      obtain ⟨rfl, -⟩ := List.cons.inj later
      exact .inr (by simp)

/-! ### The end of a class -/

omit [DecidableEq α] in
/-- The characters of a class, up to the first one outside of it. -/
theorem span_append {p : α → Bool} {front rest : List α} (all : ∀ a ∈ front, p a = true)
    (stop : rest.head?.all (!p ·) = true) :
    (front ++ rest).takeWhile p = front ∧ (front ++ rest).dropWhile p = rest := by
  rw [List.takeWhile_append_of_pos all, List.dropWhile_append_of_pos all]
  cases rest with
  | nil => simp
  | cons a rest =>
    have outside : p a = false := by simpa using stop
    simp [outside]

omit [DecidableEq α] in
theorem stop_dropWhile (p : α → Bool) (l : List α) : (l.dropWhile p).head?.all (!p ·) = true := by
  have stop := List.head?_dropWhile_not p l
  cases found : (l.dropWhile p).head? with
  | none => rfl
  | some a =>
    rw [found] at stop
    simp [stop]

end ScanApi.Partition
