import Mathlib.Data.List.Perm.Basic
import Mathlib.Order.Lattice

/-!
Pages of a list that is read anew for every page, descending by a key. Elements
with equal keys may come in another order each time. The pages together hold
every element once when no page ends between equal keys (`pages_perm`), and only
then (`exists_not_perm`).
-/
namespace ScanApi.Pages
universe u v
variable {α : Type u} {β : Type v}

/-- `LIMIT limit OFFSET number * limit`. -/
def page (limit number : Nat) (l : List α) : List α := (l.drop (number * limit)).take limit

/-- How many pages hold `total` elements. -/
def pageCount (total limit : Nat) : Nat := (total + limit - 1) / limit

/-- The first pages, each from a reading of its own. -/
def pages (limit count : Nat) (reading : Nat → List α) : List α :=
  (List.range count).flatMap (fun number => page limit number (reading number))

theorem le_pageCount {total limit : Nat} (positive : 0 < limit) : total ≤ pageCount total limit * limit := by
  have rest := Nat.mod_lt (total + limit - 1) positive
  have parts := Nat.div_add_mod (total + limit - 1) limit
  rw [pageCount, Nat.mul_comm]
  omega

theorem take_succ_page (limit number : Nat) (l : List α) :
    l.take ((number + 1) * limit) = l.take (number * limit) ++ page limit number l := by
  rw [Nat.succ_mul, List.take_add, page]

theorem pages_succ (limit count : Nat) (reading : Nat → List α) :
    pages limit (count + 1) reading = pages limit count reading ++ page limit count (reading count) := by
  simp [pages, List.range_succ]

/-- Pages of one reading are its beginning. -/
theorem pages_const {limit count : Nat} {reading : Nat → List α} {l : List α}
    (same : ∀ number < count, reading number = l) : pages limit count reading = l.take (count * limit) := by
  induction count with
  | zero => simp [pages]
  | succ count ih =>
    rw [pages_succ, take_succ_page, same count (Nat.lt_succ_self count),
      ih (fun number below => same number (Nat.lt_succ_of_lt below))]

/-- Pages of one reading, then pages of another. -/
theorem pages_switch {limit number : Nat} {reading : Nat → List α} {l l' : List α}
    (first : ∀ n < number, reading n = l) (second : ∀ n, number ≤ n → reading n = l') (more : Nat) :
    pages limit (number + more) reading =
      l.take (number * limit) ++ (l'.drop (number * limit)).take (more * limit) := by
  induction more with
  | zero => simpa using pages_const first
  | succ more ih =>
    rw [← Nat.add_assoc, pages_succ, ih, second _ (Nat.le_add_right _ _), Nat.succ_mul, List.take_add, page,
      List.drop_drop, ← Nat.add_mul, List.append_assoc]

section
variable [LinearOrder β] {key : α → β}

/-- `ORDER BY key DESC`, whatever the order of equal keys. -/
def Descending (key : α → β) (l : List α) : Prop := l.Pairwise (fun a b => key b ≤ key a)

/-- A reading of the rows. -/
def Reading (key : α → β) (rows l : List α) : Prop := l.Perm rows ∧ Descending key l

/-- The first `p` rows are those from some key on. -/
def Cut (key : α → β) (rows : List α) (p : Nat) : Prop := ∃ k, rows.countP (fun a => k ≤ key a) = p

theorem take_countP {l : List α} (descending : Descending key l) (k : β) :
    l.take (l.countP (fun a => k ≤ key a)) = l.filter (fun a => k ≤ key a) := by
  induction l with
  | nil => rfl
  | cons a rest ih =>
    have split := List.pairwise_cons.mp descending
    by_cases late : k ≤ key a
    · simp [late, ih split.2]
    · have none : ∀ b ∈ a :: rest, ¬ decide (k ≤ key b) = true := by
        intro b member up
        rcases List.mem_cons.mp member with rfl | below
        · exact late (of_decide_eq_true up)
        · exact late ((of_decide_eq_true up).trans (split.1 b below))
      rw [List.countP_eq_zero.mpr none, List.filter_eq_nil_iff.mpr none, List.take_zero]

/-- Up to a cut, all readings have the same rows. -/
theorem take_perm {rows l l' : List α} {p : Nat} (reading : Reading key rows l) (reading' : Reading key rows l')
    (cut : p < rows.length → Cut key rows p) : (l.take p).Perm (l'.take p) := by
  by_cases inside : p < rows.length
  · obtain ⟨k, rfl⟩ := cut inside
    have first : l.take (rows.countP (fun a => k ≤ key a)) = l.filter (fun a => k ≤ key a) := by
      rw [← reading.1.countP_eq]; exact take_countP reading.2 k
    have second : l'.take (rows.countP (fun a => k ≤ key a)) = l'.filter (fun a => k ≤ key a) := by
      rw [← reading'.1.countP_eq]; exact take_countP reading'.2 k
    rw [first, second]
    exact (reading.1.trans reading'.1.symm).filter _
  · have all : l.length ≤ p := reading.1.length_eq ▸ Nat.le_of_not_lt inside
    have all' : l'.length ≤ p := reading'.1.length_eq ▸ Nat.le_of_not_lt inside
    rw [List.take_of_length_le all, List.take_of_length_le all']
    exact reading.1.trans reading'.1.symm

/-- When every page ends at a cut, the pages hold every row once. -/
theorem pages_perm {rows : List α} {limit : Nat} (positive : 0 < limit) {reading : Nat → List α}
    (readings : ∀ number, Reading key rows (reading number))
    (cuts : ∀ number, 0 < number → number * limit < rows.length → Cut key rows (number * limit)) :
    (pages limit (pageCount rows.length limit) reading).Perm rows := by
  have prefixes : ∀ number l l', Reading key rows l → Reading key rows l' →
      (l.take (number * limit)).Perm (l'.take (number * limit)) := by
    intro number l l' isReading isReading'
    rcases Nat.eq_zero_or_pos number with rfl | later
    · simp
    · exact take_perm isReading isReading' (cuts number later)
  have begun : ∀ count, (pages limit count reading).Perm ((reading 0).take (count * limit)) := by
    intro count
    induction count with
    | zero => simp [pages]
    | succ count ih =>
      have here := prefixes (count + 1) _ _ (readings count) (readings 0)
      rw [take_succ_page, take_succ_page] at here
      have before := prefixes count _ _ (readings count) (readings 0)
      have last : (page limit count (reading count)).Perm (page limit count (reading 0)) :=
        (List.perm_append_left_iff _).mp ((before.symm.append_right _).trans here)
      rw [pages_succ, take_succ_page]
      exact ih.append last
  refine (begun _).trans ?_
  rw [List.take_of_length_le ((readings 0).1.length_eq ▸ le_pageCount positive)]
  exact (readings 0).1

section
variable {rows before after : List α} {a b : α}

/-- Rows on both sides of a place that is no cut have the same key. -/
theorem tie_of_not_cut (reading : Reading key rows (before ++ a :: b :: after))
    (noCut : ¬ Cut key rows (before.length + 1)) : key a = key b := by
  obtain ⟨-, descending, across⟩ := List.pairwise_append.mp reading.2
  obtain ⟨below, descending⟩ := List.pairwise_cons.mp descending
  refine le_antisymm (le_of_not_gt (fun drop => noCut ⟨key a, ?_⟩)) (below b List.mem_cons_self)
  have early : before.countP (fun c => key a ≤ key c) = before.length :=
    List.countP_eq_length.mpr (fun c member => decide_eq_true (across c member a List.mem_cons_self))
  have late : (b :: after).countP (fun c => key a ≤ key c) = 0 := by
    refine List.countP_eq_zero.mpr (fun c member up => absurd (of_decide_eq_true up) (not_le_of_gt ?_))
    rcases List.mem_cons.mp member with rfl | rest
    · exact drop
    · exact lt_of_le_of_lt ((List.pairwise_cons.mp descending).1 c rest) drop
  rw [← reading.1.countP_eq, List.countP_append, List.countP_cons, late, early]
  simp

/-- Rows with the same key may change places. -/
theorem reading_swap (reading : Reading key rows (before ++ a :: b :: after)) (tie : key a = key b) :
    Reading key rows (before ++ b :: a :: after) := by
  obtain ⟨start, descending, across⟩ := List.pairwise_append.mp reading.2
  obtain ⟨belowA, descending⟩ := List.pairwise_cons.mp descending
  obtain ⟨belowB, rest⟩ := List.pairwise_cons.mp descending
  refine ⟨((List.Perm.swap a b after).append_left before).trans reading.1, List.pairwise_append.mpr ⟨start, ?_, ?_⟩⟩
  · refine List.pairwise_cons.mpr ⟨fun c member => ?_, List.pairwise_cons.mpr ⟨fun c member => ?_, rest⟩⟩
    · rcases List.mem_cons.mp member with rfl | later
      · exact tie.le
      · exact belowB c later
    · exact belowA c (List.mem_cons_of_mem _ member)
  · intro c early d member
    refine across c early d ?_
    simp only [List.mem_cons] at member ⊢
    tauto

end

/-- A page that ends between equal keys: some readings repeat a row and lose another. -/
theorem exists_not_perm {rows base : List α} {limit number : Nat} (positive : 0 < limit) (distinct : rows.Nodup)
    (isReading : Reading key rows base) (later : 0 < number) (inside : number * limit < rows.length)
    (noCut : ¬ Cut key rows (number * limit)) : ∃ reading : Nat → List α, (∀ number, Reading key rows (reading number)) ∧
      ¬ (pages limit (pageCount rows.length limit) reading).Perm rows := by
  obtain ⟨p, place⟩ : ∃ p, number * limit = p + 1 := ⟨_, (Nat.succ_pred_eq_of_pos (Nat.mul_pos later positive)).symm⟩
  have long : p + 1 < base.length := isReading.1.length_eq ▸ place ▸ inside
  -- The rows on both sides of the end of the page.
  obtain ⟨before, a, b, after, split, size⟩ : ∃ before a b after, base = before ++ a :: b :: after ∧ before.length = p :=
    ⟨base.take p, base[p], base[p + 1], base.drop (p + 2), by simp, by simp; omega⟩
  subst split
  have tie : key a = key b := tie_of_not_cut isReading (by rwa [size, ← place])
  refine ⟨fun n => if n < number then before ++ a :: b :: after else before ++ b :: a :: after, fun n => ?_, fun perm => ?_⟩
  · dsimp only
    split
    · exact isReading
    · exact reading_swap isReading tie
  -- The pages hold `a` twice and `b` not at all.
  have enough : number ≤ pageCount rows.length limit := by
    by_contra few
    have fewer := Nat.mul_le_mul_right limit (Nat.le_of_not_le few)
    have all : rows.length ≤ pageCount rows.length limit * limit := le_pageCount positive
    omega
  obtain ⟨more, count⟩ := Nat.exists_eq_add_of_le enough
  have rest : ((before ++ b :: a :: after).drop (number * limit)).length ≤ more * limit := by
    have all : rows.length ≤ pageCount rows.length limit * limit := le_pageCount positive
    rw [count, Nat.add_mul] at all
    rw [List.length_drop, (reading_swap isReading tie).1.length_eq]
    omega
  rw [count, pages_switch (fun n below => if_pos below) (fun n above => if_neg (Nat.not_lt.mpr above)),
    List.take_of_length_le rest, place] at perm
  have repeated : ((before ++ [a]) ++ (a :: after)).Perm (before ++ a :: b :: after) := by
    have first : (before ++ a :: b :: after).take (p + 1) = before ++ [a] := by
      rw [← size, List.take_append, List.take_of_length_le (Nat.le_succ _)]; simp
    have second : (before ++ b :: a :: after).drop (p + 1) = a :: after := by
      rw [← size, List.drop_append]; simp
    rw [first, second] at perm
    exact perm.trans isReading.1.symm
  have nodup : (before ++ a :: b :: after).Nodup := isReading.1.nodup_iff.mpr distinct
  have twice := repeated.nodup_iff.mpr nodup
  exact (List.nodup_append.mp twice).2.2 a (by simp) a (by simp) rfl

/-- Pages hold every row once, in every order of equal keys, when every page ends at a cut and only then. -/
theorem pages_perm_iff {rows base : List α} {limit : Nat} (positive : 0 < limit) (distinct : rows.Nodup)
    (isReading : Reading key rows base) :
    (∀ reading : Nat → List α, (∀ number, Reading key rows (reading number)) →
        (pages limit (pageCount rows.length limit) reading).Perm rows) ↔
      ∀ number, 0 < number → number * limit < rows.length → Cut key rows (number * limit) := by
  constructor
  · intro all number later inside
    by_contra noCut
    obtain ⟨reading, readings, lost⟩ := exists_not_perm positive distinct isReading later inside noCut
    exact lost (all reading readings)
  · intro cuts reading readings
    exact pages_perm positive readings cuts

end
end ScanApi.Pages
