import Mathlib.Data.List.Pairwise
import Mathlib.Data.Nat.Basic
import ScanApi.Machine

/-!
The panel of a running parse (`useParse.ts`): a chain of polls, each of which asks
for the next one with a timer while the parse runs. Chains begin when the page
finds a parse running and when one is started, and every new one ends the one
before; answers come back in any order. `watched_once` is what holds in all runs,
`shown_watched` what holds while polls are answered in the order they were sent.
-/
namespace ScanApi.ParseWatch
open ScanApi.Machine

def maxPollFailures : Nat := 5

/-- What the server says of the parse. -/
structure ParseStatus where
  running : Bool
deriving DecidableEq

/-- A status request of a chain that has not been answered. -/
structure Poll where
  gen : Nat
  /-- The call of `start` waits for it. -/
  awaited : Bool
deriving DecidableEq

/-- The references of the hook, its requests in flight, and counts of what it did. -/
structure Chain where
  generation : Nat := 0
  timer : Bool := false
  mounted : Bool := true
  /-- In the order they were sent. -/
  polls : List Poll := []
  /-- The chains that have begun, and those of them that began on a page that was left. -/
  begun : Nat := 0
  late : Nat := 0
  /-- The calls of `onFinished`. -/
  finished : Nat := 0
deriving DecidableEq

namespace Chain

def stop (c : Chain) : Chain := { c with generation := c.generation + 1, timer := false }

/-- `watch` up to its poll. -/
def watch (c : Chain) (awaited : Bool) : Chain :=
  { c.stop with polls := c.polls ++ [⟨c.generation + 1, awaited⟩] }

/-- A `watch` that no timer calls. -/
def start (c : Chain) (awaited : Bool) : Chain :=
  { c with begun := c.begun + 1, late := if c.mounted then c.late else c.late + 1 }.watch awaited

/-- The rest of `watch` after its poll. -/
def watched (c : Chain) (gen : Nat) (running : Bool) : Chain :=
  if gen ≠ c.generation then c
  else if running then { c with timer := true }
  else { c with finished := c.finished + 1 }

end Chain

structure State extends Chain where
  status : Option ParseStatus := none
  error : Option String := none
  starting : Bool := false
  failures : Nat := 0
  /-- The first status request is in flight. -/
  loading : Bool := true
  /-- The start requests in flight. -/
  starts : Nat := 0
deriving DecidableEq

inductive StartParseResult
  | started
  | alreadyRunning
  | forbidden
deriving DecidableEq

/-- An answer that is missing came as an error. -/
inductive Event
  | showFirst (answer : Option ParseStatus)
  | start
  | answerStart (answer : Option StartParseResult)
  | tick
  | answerPoll (i : Nat) (answer : Option ParseStatus)
  | unmount

/-- Nothing is set on a page that was left. -/
def setStatus (s : State) (status : Option ParseStatus) : State := if s.mounted then { s with status } else s

def setError (s : State) (error : Option String) : State := if s.mounted then { s with error } else s

def setStarting (s : State) (starting : Bool) : State := if s.mounted then { s with starting } else s

/-- The rest of `poll` after its answer: whether a parse is running. -/
def poll (s : State) (answer : Option ParseStatus) : Bool × State :=
  match answer with
  | some status => (status.running, setStatus { s with failures := 0 } (some status))
  | none =>
    let s := { s with failures := s.failures + 1 }
    if maxPollFailures ≤ s.failures then
      -- The button is released: unknown is not running.
      (false, setStatus (setError s (some "Сервер не отвечает — статус парсинга неизвестен"))
        (s.status.map (fun status => { status with running := false })))
    else (true, s)

def step (s : State) : Event → Option State
  | .showFirst answer =>
    if !s.loading then none
    else
      let s := { s with loading := false }
      match answer with
      | some status =>
        if !s.mounted then some s
        else
          let s := setStatus s (some status)
          some (if status.running then { s with toChain := s.toChain.start false } else s)
      | none => some s
  | .start =>
    if !s.mounted then none
    else some (setStarting { setError s none with starts := s.starts + 1 } true)
  | .answerStart answer =>
    if s.starts = 0 then none
    else
      let s := { s with starts := s.starts - 1 }
      match answer with
      | some .forbidden => some (setStarting (setError s (some "Запуск парсинга доступен только администратору")) false)
      | some _ => some { s with failures := 0, toChain := s.toChain.start true }
      | none => some (setStarting (setError s (some "Не удалось запустить парсинг")) false)
  | .tick => if s.timer then some { s with toChain := s.toChain.watch false } else none
  | .answerPoll i answer => match s.polls[i]? with
    | none => none
    | some asked =>
      let (running, s) := poll { s with polls := s.polls.eraseIdx i } answer
      let s := { s with toChain := s.toChain.watched asked.gen running }
      some (if asked.awaited then setStarting s false else s)
  | .unmount => if !s.mounted then none else some { s with toChain := { s.toChain.stop with mounted := false } }

/-- The page is opened. -/
def opened : State := {}

/-! ### What a step does -/

section
variable {s s' : State} {e : Event}

@[simp] theorem setStatus_chain (s : State) (status : Option ParseStatus) : (setStatus s status).toChain = s.toChain := by
  unfold setStatus
  split <;> rfl

@[simp] theorem setError_chain (s : State) (error : Option String) : (setError s error).toChain = s.toChain := by
  unfold setError
  split <;> rfl

@[simp] theorem setStarting_chain (s : State) (starting : Bool) : (setStarting s starting).toChain = s.toChain := by
  unfold setStarting
  split <;> rfl

@[simp] theorem setError_status (s : State) (error : Option String) : (setError s error).status = s.status := by
  unfold setError
  split <;> rfl

@[simp] theorem setStarting_status (s : State) (starting : Bool) : (setStarting s starting).status = s.status := by
  unfold setStarting
  split <;> rfl

theorem setStatus_status (mounted : s.mounted = true) (status : Option ParseStatus) :
    (setStatus s status).status = status := by
  rw [setStatus, if_pos mounted]

theorem poll_chain (s : State) (answer : Option ParseStatus) : (poll s answer).2.toChain = s.toChain := by
  unfold poll
  split
  · simp
  · simp only
    split <;> simp

/-- The page shows a running parse. -/
def Shown (s : State) : Prop := s.status.any (·.running) = true

instance (s : State) : Decidable (Shown s) := inferInstanceAs (Decidable (_ = _))

/-- A poll that finds no running parse shows none. -/
theorem poll_not_shown {answer : Option ParseStatus} (mounted : s.mounted = true) (ended : (poll s answer).1 = false) :
    ¬ Shown (poll s answer).2 := by
  unfold poll at ended ⊢
  split at ended
  · simp only at ended
    rw [Shown, setStatus_status (by exact mounted)]
    simp [ended]
  · simp only at ended ⊢
    split at ended
    · rename_i many
      rw [if_pos many, Shown, setStatus_status (by simpa using mounted)]
      cases s.status <;> simp
    · cases ended

/-- A poll that has been answered. -/
def answered (c : Chain) (i : Nat) : Chain := { c with polls := c.polls.eraseIdx i }

/-- What a step can do to the chains, and where the page may show a running parse after it. -/
inductive Effect (s s' : State) : Event → Prop
  | same (e : Event) (chain : s'.toChain = s.toChain) (shown : s.mounted = true → Shown s' → Shown s) : Effect s s' e
  | start (e : Event) (awaited : Bool) (chain : s'.toChain = s.toChain.start awaited) : Effect s s' e
  | tick (set : s.timer = true) (chain : s'.toChain = s.toChain.watch false) : Effect s s' .tick
  | answer (i : Nat) (answer : Option ParseStatus) (asked : Poll) (running : Bool) (sent : s.polls[i]? = some asked)
      (chain : s'.toChain = (answered s.toChain i).watched asked.gen running)
      (shown : s.mounted = true → running = false → ¬ Shown s') : Effect s s' (.answerPoll i answer)
  | unmount (chain : s'.toChain = { s.toChain.stop with mounted := false }) : Effect s s' .unmount

theorem step_answerPoll {i : Nat} {answer : Option ParseStatus} (taken : step s (.answerPoll i answer) = some s') :
    ∃ asked running, s.polls[i]? = some asked ∧ s'.toChain = (answered s.toChain i).watched asked.gen running ∧
      (s.mounted = true → running = false → ¬ Shown s') := by
  simp only [step] at taken
  split at taken
  · cases taken
  · rename_i asked sent
    obtain rfl := Option.some.inj taken
    refine ⟨asked, (poll { s with polls := s.polls.eraseIdx i } answer).1, sent, ?_, fun mounted ended => ?_⟩
    · split
      · rw [setStarting_chain, poll_chain]
        rfl
      · rw [poll_chain]
        rfl
    · have hidden := @poll_not_shown { s with polls := s.polls.eraseIdx i } answer mounted ended
      split
      · simpa [Shown] using hidden
      · exact hidden

theorem step_effect (taken : step s e = some s') : Effect s s' e := by
  cases e with
  | showFirst answer =>
    simp only [step] at taken
    split at taken
    · cases taken
    split at taken
    · rename_i status
      split at taken
      · obtain rfl := Option.some.inj taken
        exact .same _ rfl (fun _ shown => shown)
      · rename_i mounted
        obtain rfl := Option.some.inj taken
        split
        · exact .start _ false (by simp)
        · rename_i ended
          refine .same _ (by simp) (fun here shown => ?_)
          rw [Shown, setStatus_status (by exact here)] at shown
          exact absurd (by simpa using shown) ended
    · obtain rfl := Option.some.inj taken
      exact .same _ rfl (fun _ shown => shown)
  | start =>
    simp only [step] at taken
    split at taken
    · cases taken
    · obtain rfl := Option.some.inj taken
      exact .same _ (by simp) (fun _ shown => by simpa [Shown] using shown)
  | answerStart answer =>
    simp only [step] at taken
    split at taken
    · cases taken
    split at taken
    · obtain rfl := Option.some.inj taken
      exact .same _ (by simp) (fun _ shown => by simpa [Shown] using shown)
    · obtain rfl := Option.some.inj taken
      exact .start _ true rfl
    · obtain rfl := Option.some.inj taken
      exact .same _ (by simp) (fun _ shown => by simpa [Shown] using shown)
  | tick =>
    simp only [step] at taken
    split at taken
    · rename_i set
      obtain rfl := Option.some.inj taken
      exact .tick set rfl
    · cases taken
  | answerPoll i answer =>
    obtain ⟨asked, running, sent, chain, shown⟩ := step_answerPoll taken
    exact .answer i answer asked running sent chain shown
  | unmount =>
    simp only [step] at taken
    split at taken
    · cases taken
    · obtain rfl := Option.some.inj taken
      exact .unmount rfl

end

/-! ### Chains -/

/-- The polls of the chain that goes on. -/
def current (c : Chain) : List Poll := c.polls.filter (fun asked => asked.gen = c.generation)

/-- The chains that go on: a poll that is not outdated, or a timer. -/
def live (c : Chain) : Nat := (current c).length + c.timer.toNat

/-- Polls are numbered as they are sent, and a timer is set only between two of them. -/
structure Ordered (c : Chain) : Prop where
  sorted : c.polls.Pairwise (fun first second => first.gen < second.gen)
  past : ∀ asked ∈ c.polls, asked.gen ≤ c.generation
  between : c.timer = true → ∀ asked ∈ c.polls, asked.gen < c.generation

section
variable {c : Chain}

theorem live_le_one (ordered : Ordered c) : live c ≤ 1 := by
  have few : (current c).length ≤ 1 := by
    have apart := ordered.sorted.filter (fun asked => decide (asked.gen = c.generation))
    cases found : current c with
    | nil => exact Nat.zero_le _
    | cons first rest =>
      cases rest with
      | nil => exact le_rfl
      | cons second rest =>
        -- two of them would have one number
        have members : ∀ asked ∈ current c, asked.gen = c.generation := by simp [current]
        rw [current] at found members
        rw [found] at apart members
        have less := (List.pairwise_cons.mp apart).1 second (by simp)
        rw [members first (by simp), members second (by simp)] at less
        exact absurd less (lt_irrefl _)
  by_cases set : c.timer = true
  · have none : current c = [] := List.filter_eq_nil_iff.mpr (fun asked member => by
      simpa using Nat.ne_of_lt (ordered.between set asked member))
    simp [live, none, set]
  · simpa [live, set] using few

theorem ordered_stop (ordered : Ordered c) : Ordered c.stop :=
  ⟨ordered.sorted, fun asked member => Nat.le_succ_of_le (ordered.past asked member), fun set => nomatch set⟩

theorem live_stop (ordered : Ordered c) : live c.stop = 0 := by
  have none : current c.stop = [] := List.filter_eq_nil_iff.mpr (fun asked member => by
    have before : asked.gen ≤ c.generation := ordered.past asked member
    have apart : asked.gen ≠ c.stop.generation := Nat.ne_of_lt (Nat.lt_succ_of_le before)
    simpa using apart)
  rw [live, none]
  rfl

theorem ordered_watch (ordered : Ordered c) (awaited : Bool) : Ordered (c.watch awaited) := by
  refine ⟨?_, ?_, fun set => nomatch set⟩
  · rw [Chain.watch]
    refine List.pairwise_append.mpr ⟨ordered.sorted, List.pairwise_singleton _ _, ?_⟩
    intro asked member next last
    obtain rfl := List.mem_singleton.mp last
    exact Nat.lt_succ_of_le (ordered.past asked member)
  · intro asked member
    rcases List.mem_append.mp member with earlier | last
    · exact Nat.le_succ_of_le (ordered.past asked earlier)
    · rw [List.mem_singleton.mp last]
      exact le_rfl

theorem live_watch (ordered : Ordered c) (awaited : Bool) : live (c.watch awaited) = 1 := by
  have none : current c.stop = [] := by
    have none := live_stop ordered
    rw [live, Nat.add_eq_zero_iff] at none
    exact List.length_eq_zero_iff.mp none.1
  have only : current (c.watch awaited) = [⟨c.generation + 1, awaited⟩] := by
    rw [current, Chain.stop] at none
    rw [current, Chain.watch, List.filter_append]
    exact (congrArg (· ++ _) none).trans (by simp [Chain.stop])
  rw [live, only]
  rfl

/-- The chain whose begin is counted. -/
def counted (c : Chain) : Chain := { c with begun := c.begun + 1, late := if c.mounted then c.late else c.late + 1 }

theorem ordered_counted (ordered : Ordered c) : Ordered (counted c) := ⟨ordered.sorted, ordered.past, ordered.between⟩

theorem ordered_start (ordered : Ordered c) (awaited : Bool) : Ordered (c.start awaited) :=
  ordered_watch (ordered_counted ordered) awaited

theorem live_start (ordered : Ordered c) (awaited : Bool) : live (c.start awaited) = 1 :=
  live_watch (ordered_counted ordered) awaited

theorem ordered_answered (ordered : Ordered c) (i : Nat) : Ordered (answered c i) :=
  ⟨ordered.sorted.eraseIdx i, fun asked member => ordered.past asked (List.mem_of_mem_eraseIdx member),
    fun set asked member => ordered.between set asked (List.mem_of_mem_eraseIdx member)⟩

theorem watched_answered (i gen : Nat) (running : Bool) : (answered c i).watched gen running =
    if gen ≠ c.generation then answered c i
    else if running then { answered c i with timer := true }
    else { answered c i with finished := c.finished + 1 } := rfl

/-- An outdated poll is in no chain that goes on, a current one is all of it. -/
theorem live_answered {i : Nat} {asked : Poll} (sent : c.polls[i]? = some asked) :
    live c = live (answered c i) + if asked.gen = c.generation then 1 else 0 := by
  obtain ⟨inside, rfl⟩ := List.getElem?_eq_some_iff.mp sent
  have split : c.polls = c.polls.take i ++ c.polls[i] :: c.polls.drop (i + 1) := by
    rw [List.getElem_cons_drop, List.take_append_drop]
  have whole : (current c).length = (current (answered c i)).length + if c.polls[i].gen = c.generation then 1 else 0 := by
    simp only [current, answered, List.eraseIdx_eq_take_drop_succ]
    conv => lhs; rw [split]
    rw [List.filter_append, List.filter_append, List.filter_cons, List.length_append, List.length_append]
    by_cases own : c.polls[i].gen = c.generation
    · rw [if_pos (decide_eq_true own), if_pos own, List.length_cons, Nat.add_assoc]
    · rw [if_neg (by simpa using own), if_neg own]
      rfl
  have timer : (answered c i).timer = c.timer := rfl
  rw [live, live, whole, timer]
  omega

end

/-! ### Runs -/

/-- Chains begin one at a time and come to at most one end each; none goes on once
    the page was left, unless it began after that. A chain that was superseded has a
    poll in flight at most: it never goes on again, and nothing comes of its answer. -/
structure Watched (s : State) : Prop where
  one : live s.toChain ≤ 1
  ends : s.finished + live s.toChain ≤ s.begun
  quiet : s.mounted = false → s.late = 0 → live s.toChain = 0
  superseded : ∀ asked ∈ s.polls, asked.gen ≠ s.generation → ∀ s', Reached step always s s' → asked.gen ≠ s'.generation
  ignored : ∀ i answer asked s', s.polls[i]? = some asked → asked.gen ≠ s.generation →
    step s (.answerPoll i answer) = some s' → s'.toChain = answered s.toChain i
  /-- A timer is set, or the page reloaded, only by the answer of the chain that goes on. -/
  cause : ∀ e s', step s e = some s' → (s.timer = false ∧ s'.timer = true) ∨ s'.finished ≠ s.finished →
    ∃ i answer asked, e = .answerPoll i answer ∧ s.polls[i]? = some asked ∧ asked.gen = s.generation

/-- What every step keeps. -/
structure Invariant (c : Chain) : Prop extends Ordered c where
  ends : c.finished + live c ≤ c.begun
  quiet : c.mounted = false → c.late = 0 → live c = 0

section
variable {c : Chain}

theorem invariant_start (invariant : Invariant c) (awaited : Bool) : Invariant (c.start awaited) := by
  refine ⟨ordered_start invariant.toOrdered awaited, ?_, ?_⟩
  · rw [live_start invariant.toOrdered]
    have ends := invariant.ends
    change c.finished + 1 ≤ c.begun + 1
    omega
  · intro left none
    have late : (if c.mounted then c.late else c.late + 1) = 0 := none
    rw [show c.mounted = false from left] at late
    cases late

theorem invariant_watch (invariant : Invariant c) (set : c.timer = true) (awaited : Bool) : Invariant (c.watch awaited) := by
  have alive : 1 ≤ live c := by simp [live, set]
  refine ⟨ordered_watch invariant.toOrdered awaited, ?_, ?_⟩
  · rw [live_watch invariant.toOrdered]
    have ends := invariant.ends
    change c.finished + 1 ≤ c.begun
    omega
  · intro left none
    have quiet := invariant.quiet left none
    omega

theorem invariant_left (invariant : Invariant c) : Invariant { c.stop with mounted := false } := by
  have none := live_stop invariant.toOrdered
  have ordered := ordered_stop invariant.toOrdered
  refine ⟨⟨ordered.sorted, ordered.past, ordered.between⟩, ?_, fun _ _ => none⟩
  have ends := invariant.ends
  change c.finished + live c.stop ≤ c.begun
  omega

/-- No other poll is in the chain of a current one. -/
theorem live_answered_own {i : Nat} {asked : Poll} (sent : c.polls[i]? = some asked) (own : asked.gen = c.generation)
    (ordered : Ordered c) : current (answered c i) = [] ∧ c.timer = false := by
  have before := live_answered sent
  have one := live_le_one ordered
  rw [if_pos own] at before
  have none : live (answered c i) = 0 := by omega
  rw [live, Nat.add_eq_zero_iff] at none
  refine ⟨List.length_eq_zero_iff.mp none.1, ?_⟩
  have unset : c.timer.toNat = 0 := none.2
  cases timer : c.timer with
  | false => rfl
  | true => rw [timer] at unset; cases unset

/-- The chains that go on after an answer: as many as before, unless it ended one. -/
theorem live_watched {i : Nat} {asked : Poll} (sent : c.polls[i]? = some asked) (ordered : Ordered c) (running : Bool) :
    live ((answered c i).watched asked.gen running) =
      if asked.gen = c.generation ∧ running = false then 0 else live c := by
  rw [watched_answered]
  by_cases own : asked.gen = c.generation
  · obtain ⟨none, unset⟩ := live_answered_own sent own ordered
    have before : live c = 1 := by
      rw [live_answered sent, if_pos own, live, none]
      simp [answered, unset]
    rw [if_neg (not_not.mpr own)]
    cases running with
    | true =>
      rw [if_pos rfl, if_neg (by simp), before, live]
      exact congrArg (fun polls => polls.length + 1) none
    | false =>
      rw [if_neg (by simp), if_pos ⟨own, rfl⟩, live]
      change (current (answered c i)).length + c.timer.toNat = 0
      rw [none, unset]
      rfl
  · rw [if_pos own, if_neg (fun both => own both.1), live_answered sent, if_neg own, Nat.add_zero]

theorem ordered_watched {i : Nat} {asked : Poll} (sent : c.polls[i]? = some asked) (ordered : Ordered c) (running : Bool) :
    Ordered ((answered c i).watched asked.gen running) := by
  have rest := ordered_answered ordered i
  rw [watched_answered]
  by_cases own : asked.gen = c.generation
  · rw [if_neg (not_not.mpr own)]
    obtain ⟨none, -⟩ := live_answered_own sent own ordered
    split
    · refine ⟨rest.sorted, rest.past, fun _ other member => ?_⟩
      have outdated : other.gen ≠ c.generation := fun own => List.filter_eq_nil_iff.mp none other member (decide_eq_true own)
      exact Nat.lt_of_le_of_ne (rest.past other member) outdated
    · exact ⟨rest.sorted, rest.past, rest.between⟩
  · rw [if_pos own]
    exact rest

theorem invariant_watched {i : Nat} {asked : Poll} (sent : c.polls[i]? = some asked) (invariant : Invariant c)
    (running : Bool) : Invariant ((answered c i).watched asked.gen running) := by
  have after := live_watched sent invariant.toOrdered running
  have ends := invariant.ends
  have quiet := invariant.quiet
  have kept : ((answered c i).watched asked.gen running).mounted = c.mounted ∧
      ((answered c i).watched asked.gen running).late = c.late ∧
      ((answered c i).watched asked.gen running).begun = c.begun ∧
      ((answered c i).watched asked.gen running).finished =
        c.finished + if asked.gen = c.generation ∧ running = false then 1 else 0 := by
    rw [watched_answered]
    by_cases own : asked.gen = c.generation
    · rw [if_neg (not_not.mpr own)]
      cases running <;> simp [answered, own]
    · rw [if_pos own]
      simp [answered, own]
  obtain ⟨mounted, late, begun, finished⟩ := kept
  refine ⟨ordered_watched sent invariant.toOrdered running, ?_, fun left none => ?_⟩
  · rw [after, finished, begun]
    split
    · rename_i ended
      have own := live_answered sent
      rw [if_pos ended.1] at own
      omega
    · omega
  · rw [after]
    split
    · rfl
    · exact quiet (mounted ▸ left) (late ▸ none)

end

section
variable {s s' : State} {e : Event}

theorem invariant_step (invariant : Invariant s.toChain) (taken : step s e = some s') : Invariant s'.toChain := by
  cases step_effect taken with
  | same _ chain => exact chain ▸ invariant
  | start _ awaited chain => exact chain ▸ invariant_start invariant awaited
  | tick set chain => exact chain ▸ invariant_watch invariant set false
  | answer i answer asked running sent chain => exact chain ▸ invariant_watched sent invariant running
  | unmount chain => exact chain ▸ invariant_left invariant

theorem invariant_opened : Invariant opened.toChain :=
  ⟨⟨.nil, fun _ member => (nomatch member), fun set => (nomatch set)⟩, Nat.zero_le 0, fun left => (nomatch left)⟩

theorem generation_step (taken : step s e = some s') : s.generation ≤ s'.generation := by
  cases step_effect taken with
  | same _ chain => rw [chain]
  | start _ awaited chain => rw [chain]; exact Nat.le_succ _
  | tick _ chain => rw [chain]; exact Nat.le_succ _
  | answer i answer asked running sent chain =>
    rw [chain, watched_answered]
    split
    · exact le_rfl
    · split <;> exact le_rfl
  | unmount chain => rw [chain]; exact Nat.le_succ _

/-- An outdated poll stays so. -/
theorem superseded_stays (ordered : Ordered s.toChain) {asked : Poll} (sent : asked ∈ s.polls)
    (outdated : asked.gen ≠ s.generation) (later : Reached step always s s') : asked.gen ≠ s'.generation := by
  have grown : s.generation ≤ s'.generation := Reached.invariant (P := fun s' => s.generation ≤ s'.generation) le_rfl
    (fun _ _ _ before _ taken => le_trans before (generation_step taken)) later
  have past := ordered.past asked sent
  omega

/-- The answer of an outdated poll takes it away and does nothing else to the chains. -/
theorem superseded_ignored {i : Nat} {answer : Option ParseStatus} {asked : Poll} (sent : s.polls[i]? = some asked)
    (outdated : asked.gen ≠ s.generation) (taken : step s (.answerPoll i answer) = some s') :
    s'.toChain = answered s.toChain i := by
  obtain ⟨_, running, sent', chain, -⟩ := step_answerPoll taken
  obtain rfl := Option.some.inj (sent.symm.trans sent')
  rw [chain, watched_answered, if_pos outdated]

/-- Only the answer of a poll that is not outdated sets a timer or ends a chain. -/
theorem timer_cause (taken : step s e = some s') (moved : (s.timer = false ∧ s'.timer = true) ∨ s'.finished ≠ s.finished) :
    ∃ i answer asked, e = .answerPoll i answer ∧ s.polls[i]? = some asked ∧ asked.gen = s.generation := by
  have still : ∀ chain : Chain, s'.toChain = chain → (s.timer = false → chain.timer = false) →
      chain.finished ≠ s.finished := by
    rintro _ rfl unset
    exact moved.resolve_left (fun set => by rw [unset set.1] at set; cases set.2)
  cases step_effect taken with
  | same _ chain => exact absurd rfl (still _ chain id)
  | start _ awaited chain => exact absurd rfl (still (s.toChain.start awaited) chain (fun _ => rfl))
  | tick _ chain => exact absurd rfl (still (s.toChain.watch false) chain (fun _ => rfl))
  | unmount chain => exact absurd rfl (still { s.toChain.stop with mounted := false } chain (fun _ => rfl))
  | answer i answer asked running sent chain =>
    refine ⟨i, answer, asked, rfl, sent, ?_⟩
    by_contra outdated
    rw [watched_answered, if_pos outdated] at chain
    exact absurd rfl (still (answered s.toChain i) chain id)

/-- Whatever the server answers and in whichever order, at most one chain of polls
    goes on, each comes to at most one end, and none outlives the page unless a start
    was answered after it was left. One that was superseded ends with its poll. -/
theorem watched_once (reached : Reached step always opened s) : Watched s := by
  have invariant : Invariant s.toChain := Reached.invariant (P := fun s => Invariant s.toChain) invariant_opened
    (fun _ _ _ before _ taken => invariant_step before taken) reached
  exact ⟨live_le_one invariant.toOrdered, invariant.ends, invariant.quiet,
    fun _ sent outdated _ => superseded_stays invariant.toOrdered sent outdated,
    fun _ _ _ _ sent outdated => superseded_ignored sent outdated, fun _ _ taken => timer_cause taken⟩

/-- Polls are answered in the order they were sent. -/
def InOrder (_ : State) : Event → Prop
  | .answerPoll i _ => i = 0
  | _ => True

instance (s : State) (e : Event) : Decidable (InOrder s e) := match e with
  | .answerPoll i _ => inferInstanceAs (Decidable (i = 0))
  | .showFirst _ | .start | .answerStart _ | .tick | .unmount => inferInstanceAs (Decidable True)

/-- While the page is open and no chain goes on, no poll is in flight and no running parse is shown. -/
def Settled (s : State) : Prop := s.mounted = true → live s.toChain = 0 → s.polls = [] ∧ ¬ Shown s

theorem settled_of_live (alive : live s.toChain = 1) : Settled s := fun _ none => absurd none (by omega)

/-- In order, an answer belongs to the chain that goes on only when it is the last one asked for. -/
theorem polls_of_own {c : Chain} {asked : Poll} (ordered : Ordered c) (sent : c.polls[0]? = some asked)
    (own : asked.gen = c.generation) : c.polls.eraseIdx 0 = [] := by
  cases polls : c.polls with
  | nil => rfl
  | cons first rest =>
    obtain rfl : first = asked := by simpa [polls] using sent
    cases rest with
    | nil => rfl
    | cons second rest =>
      have less : first.gen < second.gen := by
        have sorted := ordered.sorted
        rw [polls] at sorted
        exact (List.pairwise_cons.mp sorted).1 second (by simp)
      have past := ordered.past second (by simp [polls])
      omega

theorem settled_answer {asked : Poll} {running : Bool} (ordered : Ordered s.toChain) (settled : Settled s)
    (sent : s.polls[0]? = some asked)
    (chain : s'.toChain = (answered s.toChain 0).watched asked.gen running)
    (shown : s.mounted = true → running = false → ¬ Shown s') : Settled s' := by
  intro mounted none
  have mounted' : s.mounted = true := by
    rw [← mounted, chain, watched_answered]
    split
    · rfl
    · split <;> rfl
  rw [chain] at none
  have after := live_watched sent ordered running
  rw [show live _ = 0 from none] at after
  split at after
  · rename_i ended
    refine ⟨?_, shown mounted' ended.2⟩
    rw [chain, watched_answered, if_neg (not_not.mpr ended.1)]
    have rest := polls_of_own ordered sent ended.1
    split <;> exact rest
  · -- an outdated poll would have been the last one, and no chain goes on after it
    have empty := (settled mounted' after.symm).1
    rw [empty] at sent
    cases sent

theorem settled_step (invariant : Invariant s.toChain) (settled : Settled s) (inOrder : InOrder s e)
    (taken : step s e = some s') : Settled s' := by
  cases step_effect taken with
  | same _ chain shown =>
    intro mounted none
    rw [chain] at mounted none
    obtain ⟨empty, hidden⟩ := settled mounted none
    exact ⟨by rw [chain]; exact empty, fun again => hidden (shown mounted again)⟩
  | start _ awaited chain => exact settled_of_live (chain ▸ live_start invariant.toOrdered awaited)
  | tick _ chain => exact settled_of_live (chain ▸ live_watch invariant.toOrdered false)
  | answer i answer asked running sent chain shown =>
    obtain rfl : i = 0 := inOrder
    exact settled_answer invariant.toOrdered settled sent chain shown
  | unmount chain =>
    intro mounted
    rw [chain] at mounted
    cases mounted

/-- While polls are answered in the order they were sent, a page that shows a running
    parse is still asking about it. -/
theorem shown_watched (reached : Reached step InOrder opened s) (mounted : s.mounted = true) (shown : Shown s) :
    live s.toChain = 1 := by
  have kept : Invariant s.toChain ∧ Settled s := Reached.invariant (P := fun s => Invariant s.toChain ∧ Settled s)
    ⟨invariant_opened, fun _ _ => ⟨rfl, by decide⟩⟩
    (fun _ _ _ before inOrder taken => ⟨invariant_step before.1 taken, settled_step before.1 before.2 inOrder taken⟩) reached
  have one := live_le_one kept.1.toOrdered
  have some : live s.toChain ≠ 0 := fun none => (kept.2 mounted none).2 shown
  omega

/-- A parse is found running, another one is started meanwhile, and its chain goes on. -/
def visit : List Event :=
  [.showFirst (some ⟨true⟩), .start, .answerStart (some .alreadyRunning), .answerPoll 0 (some ⟨true⟩),
    .answerPoll 0 (some ⟨true⟩), .tick]

theorem watched_once_visit : ∃ s, Reached step always opened s ∧ s.begun = 2 ∧ Watched s := by
  obtain ⟨s, reached, twice⟩ := @exists_reached _ _ step always opened (fun _ _ => true) (fun _ _ _ => trivial) visit
    (fun s => s.begun = 2) (by decide)
  exact ⟨s, reached, by simpa using twice, watched_once reached⟩

theorem shown_watched_visit : ∃ s, Reached step InOrder opened s ∧ Shown s ∧ live s.toChain = 1 := by
  obtain ⟨s, reached, opened'⟩ := @exists_reached _ _ step InOrder opened (fun s e => decide (InOrder s e))
    (fun _ _ => of_decide_eq_true) visit (fun s => s.mounted && decide (Shown s)) (by decide)
  rw [Bool.and_eq_true, decide_eq_true_eq] at opened'
  exact ⟨s, reached, opened'.2, shown_watched reached opened'.1 opened'.2⟩

/-- The answer of an ended chain comes last: a running parse is shown that nobody asks about. -/
example : (after step (fun _ _ => true) [.showFirst (some ⟨true⟩), .start, .answerStart (some .alreadyRunning),
    .answerPoll 1 (some ⟨false⟩), .answerPoll 0 (some ⟨true⟩)] opened).any
      (fun s => decide (Shown s) && decide (live s.toChain = 0)) = true := by decide

/-- A start that is answered after the page was left begins a chain that goes on. -/
example : (after step (fun _ _ => true) [.start, .unmount, .answerStart (some .started), .answerPoll 0 (some ⟨true⟩), .tick]
    opened).any (fun s => !s.mounted && decide (live s.toChain = 1)) = true := by decide

end

end ScanApi.ParseWatch
