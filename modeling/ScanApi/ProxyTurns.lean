import ScanApi.ProxyRotation

/-!
Whether proxies take turns. The rotation steps from one proxy of the list to the
next, alive or not, and a request starts with the first alive proxy from there on.
So it passes over the proxies that cool down once for each of them, and the proxy
behind them starts more than one request in a row.
-/
namespace ScanApi.ProxyTurns
open ScanApi.ProxyRotation

/-- A rotator in use: what threads can make of a new one. -/
inductive Used : ProxyRotator → Prop
  | new (urls : List Url) (cooldown : Rat) (maxAttempts : Int) :
      Used { urls := urls, cooldown := cooldown, maxAttempts := maxAttempts }
  | candidates {rotator : ProxyRotator} (now : Rat) (used : Used rotator) : Used (rotator.candidates now).2
  | reportFailure {rotator : ProxyRotator} (url : Url) (now : Rat) (used : Used rotator) :
      Used (rotator.reportFailure url now)

/-- The proxy is not cooling down. -/
def alive (rotator : ProxyRotator) (now : Rat) (url : Url) : Bool :=
  rotator.cooldown ≤ now - (rotator.failedAt.get? url).getD (-rotator.cooldown)

/-- The first alive proxy that follows a proxy of the list in cyclic order. -/
def following (rotator : ProxyRotator) (now : Rat) (url : Url) : Option Url :=
  (rotator.urls.rotate (rotator.urls.idxOf url + 1)).find? (alive rotator now)

/-- The first candidate of a call. -/
def first (rotator : ProxyRotator) (now : Rat) : Option Url := (rotator.candidates now).1.head?

/-- Two calls, one after the other: the second one starts after the first one's start. -/
def TakesTurns (rotator : ProxyRotator) (now later : Rat) : Prop :=
  ∀ url, first rotator now = some url →
    first (rotator.candidates now).2 later = following rotator now url ∧
      first (rotator.candidates now).2 later ≠ some url

/-- Between two calls without a failure no cooldown ends. -/
structure Steady (rotator : ProxyRotator) (now later : Rat) : Prop where
  forward : now ≤ later
  cooling : ∀ url ∈ rotator.urls, alive rotator now url = false → alive rotator later url = false

/-- Calls with this many alive proxies have a candidate. -/
def Tries (maxAttempts : Int) (count : Nat) : Prop := maxAttempts ≠ 0 ∧ -(count : Int) < maxAttempts

variable {rotator : ProxyRotator} {now later : Rat}

/-- The rotation stands at a proxy of the list. -/
theorem Used.next_lt (used : Used rotator) (nonempty : rotator.urls ≠ []) : rotator.next < rotator.urls.length := by
  induction used with
  | new urls cooldown maxAttempts => exact List.length_pos_iff.mpr nonempty
  | candidates now used ih =>
    rw [ProxyRotator.candidates] at nonempty ⊢
    split at nonempty
    · rename_i empty
      exact absurd empty nonempty
    · rename_i some'
      rw [if_neg some']
      exact Nat.mod_lt _ (List.length_pos_iff.mpr some')
  | reportFailure url now used ih => exact ih nonempty

theorem alive_later (steady : Steady rotator now later) {url : Url} (member : url ∈ rotator.urls) :
    alive rotator later url = alive rotator now url := by
  cases before : alive rotator now url with
  | false => exact steady.cooling url member before
  | true =>
    have forward := steady.forward
    simp only [alive, decide_eq_true_eq] at before ⊢
    exact before.trans (sub_le_sub_right forward _)

theorem head?_slice {α : Type} {n : Int} {l : List α} (tries : Tries n l.length) : (slice n l).head? = l.head? := by
  obtain ⟨nonzero, enough⟩ := tries
  rw [slice]
  split
  · rw [List.head?_take, if_neg (by omega)]
  · rw [List.head?_take, if_neg (by omega)]

theorem slice_eq_nil {α : Type} {n : Int} {l : List α} (none : ¬ Tries n l.length) : slice n l = [] := by
  rw [Tries, not_and_or, not_not, not_lt] at none
  rw [slice]
  split
  · have zero : n.toNat = 0 ∨ l.length = 0 := by omega
    rcases zero with zero | zero
    · rw [zero, List.take_zero]
    · rw [List.length_eq_zero_iff.mp zero, List.take_nil]
  · rw [show l.length - (-n).toNat = 0 by omega, List.take_zero]

/-- The alive proxies from where the rotation stands, and the rotation one proxy further. -/
theorem candidates_of_lt (within : rotator.next < rotator.urls.length) :
    rotator.candidates now = (slice rotator.maxAttempts ((rotator.urls.rotate rotator.next).filter (alive rotator now)),
      { rotator with next := (rotator.next + 1) % rotator.urls.length }) := by
  have nonempty : rotator.urls ≠ [] := List.ne_nil_of_length_pos (Nat.zero_lt_of_lt within)
  rw [ProxyRotator.candidates, if_neg nonempty, List.rotate_eq_drop_append_take within.le]
  rfl

theorem length_alive (n : Nat) :
    ((rotator.urls.rotate n).filter (alive rotator now)).length = (rotator.urls.filter (alive rotator now)).length :=
  ((List.rotate_perm rotator.urls n).filter _).length_eq

/-- A call starts with the first alive proxy from where the rotation stands. -/
theorem first_eq (within : rotator.next < rotator.urls.length)
    (tries : Tries rotator.maxAttempts (rotator.urls.filter (alive rotator now)).length) :
    first rotator now = (rotator.urls.rotate rotator.next).find? (alive rotator now) := by
  rw [first, candidates_of_lt within, head?_slice (length_alive rotator.next ▸ tries), List.head?_filter]

theorem first_eq_none (within : rotator.next < rotator.urls.length)
    (without : ¬ Tries rotator.maxAttempts (rotator.urls.filter (alive rotator now)).length) :
    first rotator now = none := by
  rw [first, candidates_of_lt within, slice_eq_nil (length_alive rotator.next ▸ without), List.head?_nil]

/-- The second call starts one proxy further. -/
theorem second_eq (within : rotator.next < rotator.urls.length) (steady : Steady rotator now later)
    (tries : Tries rotator.maxAttempts (rotator.urls.filter (alive rotator now)).length) :
    first (rotator.candidates now).2 later = (rotator.urls.rotate (rotator.next + 1)).find? (alive rotator now) := by
  rw [candidates_of_lt within]
  set moved : ProxyRotator := { rotator with next := (rotator.next + 1) % rotator.urls.length }
  have kept : ∀ url ∈ rotator.urls, alive moved later url = alive rotator now url :=
    fun url member => alive_later steady member
  have further : moved.next < moved.urls.length := Nat.mod_lt _ (Nat.zero_lt_of_lt within)
  have enough : Tries moved.maxAttempts (moved.urls.filter (alive moved later)).length := by
    rw [List.filter_congr kept]
    exact tries
  have start : moved.urls.rotate moved.next = rotator.urls.rotate (rotator.next + 1) := List.rotate_mod _ _
  rw [first_eq further enough, start, ← List.head?_filter, ← List.head?_filter]
  exact congrArg List.head? (List.filter_congr (fun url member => kept url (List.mem_rotate.mp member)))

/-- The list from a position of it on, and from the next one on. -/
theorem rotate_getElem {urls : List Url} {n : Nat} (within : n < urls.length) :
    ∃ rest, urls.rotate n = urls[n] :: rest ∧ urls.rotate (n + 1) = rest ++ [urls[n]] := by
  have split : urls.rotate n = urls[n] :: (urls.drop (n + 1) ++ urls.take n) := by
    rw [List.rotate_eq_drop_append_take within.le, List.drop_eq_getElem_cons within, List.cons_append]
  refine ⟨_, split, ?_⟩
  rw [← List.rotate_rotate, split, List.rotate_cons_succ, List.rotate_zero]

/-- Of two calls without a failure between them the second one starts after the first
    one's start exactly where the proxy that the rotation stands at is alive. -/
theorem takesTurns_iff (used : Used rotator) (distinct : rotator.urls.Nodup)
    (two : 2 ≤ (rotator.urls.filter (alive rotator now)).length) (steady : Steady rotator now later) :
    TakesTurns rotator now later ↔
      (Tries rotator.maxAttempts (rotator.urls.filter (alive rotator now)).length →
        ∃ url, rotator.urls[rotator.next]? = some url ∧ alive rotator now url = true) := by
  have nonempty : rotator.urls ≠ [] := by
    intro empty
    rw [empty, List.filter_nil, List.length_nil] at two
    cases two
  have within := used.next_lt nonempty
  by_cases tries : Tries rotator.maxAttempts (rotator.urls.filter (alive rotator now)).length
  swap
  · have nothing := first_eq_none within tries
    constructor
    · intro _ some'
      exact absurd some' tries
    · intro _ url start
      cases nothing.symm.trans start
  obtain ⟨rest, here, further⟩ := rotate_getElem within
  have start := first_eq within tries
  have second := second_eq within steady tries
  rw [here] at start
  rw [further] at second
  have another : ∃ url, rest.find? (alive rotator now) = some url := by
    have count : ((rotator.urls[rotator.next] :: rest).filter (alive rotator now)).length =
        (rotator.urls.filter (alive rotator now)).length := by
      rw [← here]
      exact length_alive rotator.next
    have longer : ((rotator.urls[rotator.next] :: rest).filter (alive rotator now)).length ≤
        1 + (rest.filter (alive rotator now)).length := by
      rw [List.filter_cons, Nat.add_comm]
      split
      · exact Nat.le_refl _
      · exact Nat.le_succ _
    have nonempty : rest.filter (alive rotator now) ≠ [] := List.ne_nil_of_length_pos (by omega)
    rw [← List.head?_filter]
    exact ⟨_, List.head?_eq_some_head nonempty⟩
  obtain ⟨next, found⟩ := another
  have behind : first (rotator.candidates now).2 later = some next := by
    rw [second, List.find?_append, found, Option.some_or]
  have other : next ≠ rotator.urls[rotator.next] := by
    have split : (rotator.urls[rotator.next] :: rest).Nodup := here ▸ List.nodup_rotate.mpr distinct
    rintro rfl
    exact (List.nodup_cons.mp split).1 (List.mem_of_find?_eq_some found)
  rw [TakesTurns, behind]
  cases stands : alive rotator now rotator.urls[rotator.next] with
  | true =>
    have position : rotator.urls.idxOf rotator.urls[rotator.next] = rotator.next := distinct.idxOf_getElem _ within
    refine ⟨fun _ _ => ⟨_, List.getElem?_eq_getElem within, stands⟩, fun _ url begins => ?_⟩
    rw [List.find?_cons_of_pos stands] at start
    obtain rfl := Option.some.inj (start.symm.trans begins)
    rw [following, position, further, List.find?_append, found, Option.some_or]
    exact ⟨rfl, fun same => other (Option.some.inj same)⟩
  | false =>
    -- The request starts with the proxy behind, and so does the next one.
    rw [List.find?_cons_of_neg (by simp [stands]), found] at start
    refine ⟨fun turns => absurd rfl (turns next start).2, fun condition => ?_⟩
    obtain ⟨url, listed, isAlive⟩ := condition tries
    rw [List.getElem?_eq_getElem within] at listed
    obtain rfl := Option.some.inj listed
    cases stands.symm.trans isAlive

/-- A rotator of three proxies whose first one failed at the start. -/
def firstFailed : ProxyRotator :=
  ({ urls := ["http://a:1".toList, "http://b:1".toList, "http://c:1".toList] } : ProxyRotator).reportFailure
    "http://a:1".toList 0

theorem used_firstFailed : Used firstFailed := .reportFailure _ 0 (.new _ 300 3)

/-- Once the rotation is past the failed proxy the other two take turns. -/
theorem takesTurns_iff_later : TakesTurns (firstFailed.candidates 1).2 2 3 := by
  have steady : Steady (firstFailed.candidates 1).2 2 3 := ⟨by decide +kernel, by decide +kernel⟩
  refine (takesTurns_iff (.candidates 1 used_firstFailed) (by decide) (by decide +kernel) steady).mpr (fun _ => ?_)
  exact ⟨"http://b:1".toList, by decide +kernel, by decide +kernel⟩

/-- The first proxy cools down, and two requests in a row start with the second one. -/
theorem same_start_twice : ¬ ∀ rotator now later, Used rotator → rotator.urls.Nodup →
    2 ≤ (rotator.urls.filter (alive rotator now)).length → Steady rotator now later → TakesTurns rotator now later := by
  intro claim
  have steady : Steady firstFailed 1 2 := ⟨by decide +kernel, by decide +kernel⟩
  have turns := claim firstFailed 1 2 used_firstFailed (by decide) (by decide +kernel) steady
  have start : first firstFailed 1 = some "http://b:1".toList := by decide +kernel
  have again : first (firstFailed.candidates 1).2 2 = some "http://b:1".toList := by decide +kernel
  exact (turns _ start).2 again

end ScanApi.ProxyTurns
