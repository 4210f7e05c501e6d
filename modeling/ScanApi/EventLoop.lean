import ScanApi.Interleaving

/-!
Coroutines on one event loop. A coroutine reads and replaces a shared state, asks
the world outside, whose answer may be anything, and suspends where it awaits; in
between nobody else runs. `wp` is what must hold before a coroutine so that `Q`
holds where it ends, whatever is answered. `Guarded` is any number of tasks that
run a coroutine under one lock: at most one is inside, and what they do to the
state is what they do one after another (`serial`), and so is what the world behind
them sees (`world_of_run`).
-/
namespace ScanApi.EventLoop
open ScanApi.Interleaving

/-- Questions to the world outside, and what it may answer. -/
structure Outside where
  Query : Type
  Reply : Query → Type

/-- A question that was asked, and its answer. -/
abbrev Exchange (w : Outside) := Σ q : w.Query, w.Reply q
abbrev Log (w : Outside) := List (Exchange w)

inductive Coro (σ : Type) (w : Outside) (α : Type)
  | ret (a : α)
  | get (k : σ → Coro σ w α)
  | set (s : σ) (rest : Coro σ w α)
  | ask (q : w.Query) (k : w.Reply q → Coro σ w α)
  | suspend (rest : Coro σ w α)

namespace Coro
variable {σ : Type} {w : Outside} {α β : Type}

protected def bind : Coro σ w α → (α → Coro σ w β) → Coro σ w β
  | .ret a, f => f a
  | .get k, f => .get (fun s => (k s).bind f)
  | .set s rest, f => .set s (rest.bind f)
  | .ask q k, f => .ask q (fun r => (k r).bind f)
  | .suspend rest, f => .suspend (rest.bind f)

instance : Monad (Coro σ w) where
  pure := .ret
  bind := Coro.bind

instance : MonadStateOf σ (Coro σ w) where
  get := .get .ret
  set s := .set s (.ret ⟨⟩)
  modifyGet f := .get (fun s => .set (f s).2 (.ret (f s).1))

/-- Asks without suspending: a clock, a pure function that may raise. -/
def query (q : w.Query) : Coro σ w (w.Reply q) := .ask q .ret

/-- `await`: others may run until the answer is there. -/
def await (q : w.Query) : Coro σ w (w.Reply q) := .suspend (.ask q .ret)

/-! ### Runs -/

/-- What a coroutine on its own comes to, some of the way or to its end. -/
inductive Reaches : Coro σ w α → σ → Log w → Coro σ w α → σ → Log w → Prop
  | refl {c : Coro σ w α} {s : σ} {log : Log w} : Reaches c s log c s log
  | get {k : σ → Coro σ w α} {s s' : σ} {log log' : Log w} {c : Coro σ w α} :
      Reaches (k s) s log c s' log' → Reaches (.get k) s log c s' log'
  | set {rest : Coro σ w α} {s t s' : σ} {log log' : Log w} {c : Coro σ w α} :
      Reaches rest t log c s' log' → Reaches (.set t rest) s log c s' log'
  | ask {q : w.Query} {k : w.Reply q → Coro σ w α} {s s' : σ} {log log' : Log w} {c : Coro σ w α} (r : w.Reply q) :
      Reaches (k r) s (log ++ [⟨q, r⟩]) c s' log' → Reaches (.ask q k) s log c s' log'
  | suspend {rest : Coro σ w α} {s s' : σ} {log log' : Log w} {c : Coro σ w α} :
      Reaches rest s log c s' log' → Reaches (.suspend rest) s log c s' log'

/-- What runs without others in between: up to the next `await`, or to the end. -/
inductive Segment : Coro σ w α → σ → Log w → Coro σ w α → σ → Log w → Prop
  | ret {a : α} {s : σ} {log : Log w} : Segment (.ret a) s log (.ret a) s log
  | suspend {rest : Coro σ w α} {s : σ} {log : Log w} : Segment (.suspend rest) s log (.suspend rest) s log
  | get {k : σ → Coro σ w α} {s s' : σ} {log log' : Log w} {c : Coro σ w α} :
      Segment (k s) s log c s' log' → Segment (.get k) s log c s' log'
  | set {rest : Coro σ w α} {s t s' : σ} {log log' : Log w} {c : Coro σ w α} :
      Segment rest t log c s' log' → Segment (.set t rest) s log c s' log'
  | ask {q : w.Query} {k : w.Reply q → Coro σ w α} {s s' : σ} {log log' : Log w} {c : Coro σ w α} (r : w.Reply q) :
      Segment (k r) s (log ++ [⟨q, r⟩]) c s' log' → Segment (.ask q k) s log c s' log'

theorem Segment.reaches {c c' : Coro σ w α} {s s' : σ} {log log' : Log w} (segment : Segment c s log c' s' log') :
    Reaches c s log c' s' log' := by
  induction segment with
  | ret => exact .refl
  | suspend => exact .refl
  | get _ ih => exact .get ih
  | set _ ih => exact .set ih
  | ask r _ ih => exact .ask r ih

theorem Reaches.trans {c mid c' : Coro σ w α} {s t s' : σ} {log log₁ log' : Log w}
    (first : Reaches c s log mid t log₁) (second : Reaches mid t log₁ c' s' log') : Reaches c s log c' s' log' := by
  induction first with
  | refl => exact second
  | get _ ih => exact .get (ih second)
  | set _ ih => exact .set (ih second)
  | ask r _ ih => exact .ask r (ih second)
  | suspend _ ih => exact .suspend (ih second)

/-- Runs a coroutine to its end with the answers of a function. -/
def perform (answer : ∀ q : w.Query, w.Reply q) : Coro σ w α → σ → Log w → α × σ × Log w
  | .ret a, s, log => (a, s, log)
  | .get k, s, log => perform answer (k s) s log
  | .set t rest, _, log => perform answer rest t log
  | .ask q k, s, log => perform answer (k (answer q)) s (log ++ [⟨q, answer q⟩])
  | .suspend rest, s, log => perform answer rest s log

theorem reaches_perform (answer : ∀ q : w.Query, w.Reply q) (c : Coro σ w α) (s : σ) (log : Log w) :
    Reaches c s log (.ret (perform answer c s log).1) (perform answer c s log).2.1 (perform answer c s log).2.2 := by
  induction c generalizing s log with
  | ret a => exact .refl
  | get k ih => exact .get (ih s s log)
  | set t rest ih => exact .set (ih t log)
  | ask q k ih => exact .ask (answer q) (ih (answer q) s _)
  | suspend rest ih => exact .suspend (ih s log)

/-- Runs a coroutine to its next `await`, or to its end. -/
def advance (answer : ∀ q : w.Query, w.Reply q) : Coro σ w α → σ → Log w → Coro σ w α × σ × Log w
  | .ret a, s, log => (.ret a, s, log)
  | .get k, s, log => advance answer (k s) s log
  | .set t rest, _, log => advance answer rest t log
  | .ask q k, s, log => advance answer (k (answer q)) s (log ++ [⟨q, answer q⟩])
  | .suspend rest, s, log => (.suspend rest, s, log)

theorem segment_advance (answer : ∀ q : w.Query, w.Reply q) (c : Coro σ w α) (s : σ) (log : Log w) :
    Segment c s log (advance answer c s log).1 (advance answer c s log).2.1 (advance answer c s log).2.2 := by
  induction c generalizing s log with
  | ret a => exact .ret
  | get k ih => exact .get (ih s s log)
  | set t rest ih => exact .set (ih t log)
  | ask q k ih => exact .ask (answer q) (ih (answer q) s _)
  | suspend rest _ => exact .suspend

/-! ### What holds at the end -/

/-- `Q` holds wherever the coroutine ends on its own. -/
def wp : Coro σ w α → (α → σ → Log w → Prop) → σ → Log w → Prop
  | .ret a, Q, s, log => Q a s log
  | .get k, Q, s, log => wp (k s) Q s log
  | .set t rest, Q, _, log => wp rest Q t log
  | .ask q k, Q, s, log => ∀ r, wp (k r) Q s (log ++ [⟨q, r⟩])
  | .suspend rest, Q, s, log => wp rest Q s log

variable {Q Q' : α → σ → Log w → Prop} {s : σ} {log : Log w}

@[simp] theorem wp_pure (a : α) : wp (pure a : Coro σ w α) Q s log ↔ Q a s log := Iff.rfl
@[simp] theorem wp_ret (a : α) : wp (.ret a : Coro σ w α) Q s log ↔ Q a s log := Iff.rfl
@[simp] theorem wp_get {Q : σ → σ → Log w → Prop} : wp (MonadState.get : Coro σ w σ) Q s log ↔ Q s s log := Iff.rfl
@[simp] theorem wp_modify {Q : PUnit → σ → Log w → Prop} (f : σ → σ) :
    wp (modify f : Coro σ w PUnit) Q s log ↔ Q ⟨⟩ (f s) log := Iff.rfl
@[simp] theorem wp_query (q : w.Query) {Q : w.Reply q → σ → Log w → Prop} :
    wp (query q : Coro σ w _) Q s log ↔ ∀ r, Q r s (log ++ [⟨q, r⟩]) := Iff.rfl
@[simp] theorem wp_await (q : w.Query) {Q : w.Reply q → σ → Log w → Prop} :
    wp (await q : Coro σ w _) Q s log ↔ ∀ r, Q r s (log ++ [⟨q, r⟩]) := Iff.rfl

@[simp] theorem wp_bind (c : Coro σ w α) (f : α → Coro σ w β) {Q : β → σ → Log w → Prop} {s : σ} {log : Log w} :
    wp (c >>= f) Q s log ↔ wp c (fun a => wp (f a) Q) s log := by
  show wp (c.bind f) Q s log ↔ _
  induction c generalizing s log with
  | ret a => exact Iff.rfl
  | get k ih => exact ih s
  | set t rest ih => exact ih
  | ask q k ih => exact forall_congr' (fun r => ih r)
  | suspend rest ih => exact ih

theorem wp_mono {c : Coro σ w α} (weaker : ∀ a s log, Q a s log → Q' a s log) {s : σ} {log : Log w}
    (before : wp c Q s log) : wp c Q' s log := by
  induction c generalizing s log with
  | ret a => exact weaker a s log before
  | get k ih => exact ih s before
  | set t rest ih => exact ih before
  | ask q k ih => exact fun r => ih r (before r)
  | suspend rest ih => exact ih before

/-- All that a coroutine asks is among these questions. -/
def Only (allowed : w.Query → Prop) : Coro σ w α → Prop
  | .ret _ => True
  | .get k => ∀ s, Only allowed (k s)
  | .set _ rest => Only allowed rest
  | .ask q k => allowed q ∧ ∀ r, Only allowed (k r)
  | .suspend rest => Only allowed rest

section
variable {allowed : w.Query → Prop}

@[simp] theorem only_pure (a : α) : Only allowed (pure a : Coro σ w α) := trivial
@[simp] theorem only_get : Only allowed (MonadState.get : Coro σ w σ) := fun _ => trivial
@[simp] theorem only_modify (f : σ → σ) : Only allowed (modify f : Coro σ w PUnit) := fun _ => trivial

theorem only_bind {c : Coro σ w α} {f : α → Coro σ w β} (first : Only allowed c) (second : ∀ a, Only allowed (f a)) :
    Only allowed (c >>= f) := by
  show Only allowed (c.bind f)
  induction c with
  | ret a => exact second a
  | get k ih => exact fun s => ih s (first s)
  | set t rest ih => exact ih first
  | ask q k ih => exact ⟨first.1, fun r => ih r (first.2 r)⟩
  | suspend rest ih => exact ih first

/-- A coroutine adds only its own questions to the log. -/
theorem wp_only {c : Coro σ w α} (only : Only allowed c) (s : σ) (log : Log w) :
    wp c (fun _ _ log' => ∃ more, log' = log ++ more ∧ ∀ x ∈ more, allowed x.1) s log := by
  induction c generalizing s log with
  | ret a => exact ⟨[], (List.append_nil log).symm, fun x member => nomatch member⟩
  | get k ih => exact ih s (only s) s log
  | set t rest ih => exact ih only t log
  | ask q k ih =>
    intro r
    refine wp_mono ?_ (ih r (only.2 r) s (log ++ [⟨q, r⟩]))
    rintro a s' log' ⟨more, rfl, asked⟩
    refine ⟨⟨q, r⟩ :: more, by simp, ?_⟩
    rintro x member
    rcases List.mem_cons.mp member with rfl | later
    · exact only.1
    · exact asked x later
  | suspend rest ih => exact ih only s log

end

theorem wp_and {c : Coro σ w α} {s : σ} {log : Log w} (first : wp c Q s log) (second : wp c Q' s log) :
    wp c (fun a s' log' => Q a s' log' ∧ Q' a s' log') s log := by
  induction c generalizing s log with
  | ret a => exact ⟨first, second⟩
  | get k ih => exact ih s first second
  | set t rest ih => exact ih first second
  | ask q k ih => exact fun r => ih r (first r) (second r)
  | suspend rest ih => exact ih first second

/-- On the way to its end a coroutine keeps what was required of it. -/
theorem Reaches.wp {c c' : Coro σ w α} {s s' : σ} {log log' : Log w} (reaches : Reaches c s log c' s' log')
    (before : Coro.wp c Q s log) : Coro.wp c' Q s' log' := by
  induction reaches with
  | refl => exact before
  | get _ ih => exact ih before
  | set _ ih => exact ih before
  | ask r _ ih => exact ih (before r)
  | suspend _ ih => exact ih before

end Coro

/-! ### The world behind a log -/

section
variable {ω β : Type} {w : Outside} {effect : ω → Exchange w → ω → Prop} {o o' : ω} {log log' : Log w}

/-- From one state of the world outside to another, an exchange at a time. -/
inductive Along (effect : ω → Exchange w → ω → Prop) : ω → Log w → ω → Prop
  | nil {o : ω} : Along effect o [] o
  | cons {o mid o' : ω} {x : Exchange w} {log : Log w} :
      effect o x mid → Along effect mid log o' → Along effect o (x :: log) o'

theorem along_append : Along effect o (log ++ log') o' ↔ ∃ mid, Along effect o log mid ∧ Along effect mid log' o' := by
  induction log generalizing o with
  | nil =>
    refine ⟨fun along => ⟨o, .nil, along⟩, ?_⟩
    rintro ⟨mid, first, second⟩
    cases first
    exact second
  | cons x log ih =>
    constructor
    · rintro (_ | ⟨one, along⟩)
      obtain ⟨mid, first, second⟩ := ih.mp along
      exact ⟨mid, .cons one first, second⟩
    · rintro ⟨mid, _ | ⟨one, first⟩, second⟩
      exact .cons one (ih.mpr ⟨mid, first, second⟩)

/-- What every exchange adds to a list that is kept outside, a log adds in order. -/
theorem Along.added {P : ω → Prop} {kept : ω → List β} {adds : Exchange w → List β}
    (one : ∀ o x o', P o → effect o x o' → P o' ∧ kept o' = kept o ++ adds x) (along : Along effect o log o')
    (before : P o) : P o' ∧ kept o' = kept o ++ log.flatMap adds := by
  induction along with
  | nil => exact ⟨before, (List.append_nil _).symm⟩
  | cons step _ ih =>
    obtain ⟨mid, first⟩ := one _ _ _ before step
    obtain ⟨after, rest⟩ := ih mid
    exact ⟨after, by rw [rest, first, List.flatMap_cons, List.append_assoc]⟩

end

/-! ### Tasks under one lock -/

open Coro

variable {σ ι α : Type} {w : Outside} [DecidableEq ι]

/-- What the tasks share: the lock, and the state that it guards. -/
structure Locked (σ : Type) where
  locked : Bool
  value : σ

/-- Where a task is: it tests the lock, and then either waits for it and runs, or
    skips because another task runs, and says so. -/
inductive Phase (σ : Type) (w : Outside) (α : Type)
  | calling
  | waiting
  | inside (log : Log w) (rest : Coro σ w α)
  | finished (result : α) (log : Log w)
  | skipping
  | skipped (said : Exchange w)

def Phase.isInside : Phase σ w α → Bool
  | .inside _ _ => true
  | _ => false

/-- What a task has asked so far. -/
def Phase.asked : Phase σ w α → Log w
  | .inside log _ => log
  | .finished _ log => log
  | .skipped said => [said]
  | _ => []

/-- Where a task is after a segment of its coroutine. -/
def settled (log : Log w) : Coro σ w α → Phase σ w α
  | .ret a => .finished a log
  | c => .inside log c

theorem asked_settled (log : Log w) (c : Coro σ w α) : (settled log c).asked = log := by
  cases c <;> rfl

inductive Move
  | test
  | acquire
  | resume
  | leave
deriving DecidableEq, Repr

/-- The turns of a task: the lock is tested and taken in two steps, held over every
    suspension, and released with the end of the coroutine. -/
inductive Guarded (body : ι → Coro σ w α) (aside : ι → w.Query) : Turn (Locked σ) ι (Phase σ w α) Move
  | free {i : ι} {shared : Locked σ} :
      shared.locked = false → Guarded body aside i .test (shared, .calling) (shared, .waiting)
  | taken {i : ι} {shared : Locked σ} :
      shared.locked = true → Guarded body aside i .test (shared, .calling) (shared, .skipping)
  | skip {i : ι} {shared : Locked σ} (r : w.Reply (aside i)) :
      Guarded body aside i .leave (shared, .skipping) (shared, .skipped ⟨aside i, r⟩)
  | acquire {i : ι} {shared : Locked σ} {c : Coro σ w α} {v : σ} {log : Log w} :
      shared.locked = false → Segment (body i) shared.value [] c v log →
      Guarded body aside i .acquire (shared, .waiting) (⟨(settled log c).isInside, v⟩, settled log c)
  | resume {i : ι} {shared : Locked σ} {rest c : Coro σ w α} {v : σ} {log log' : Log w} :
      Segment rest shared.value log c v log' →
      Guarded body aside i .resume (shared, .inside log (.suspend rest)) (⟨(settled log' c).isInside, v⟩, settled log' c)

/-- The turns of tasks that a function answers. -/
def turnOf (body : ι → Coro σ w α) (aside : ι → w.Query) (answer : ∀ q : w.Query, w.Reply q) (i : ι) :
    Move → Locked σ × Phase σ w α → Option (Locked σ × Phase σ w α)
  | .test, (shared, .calling) => some (shared, if shared.locked then .skipping else .waiting)
  | .leave, (shared, .skipping) => some (shared, .skipped ⟨aside i, answer (aside i)⟩)
  | .acquire, (shared, .waiting) =>
    if shared.locked then none
    else
      let (c, v, log) := advance answer (body i) shared.value []
      some (⟨(settled log c).isInside, v⟩, settled log c)
  | .resume, (shared, .inside log (.suspend rest)) =>
    let (c, v, log) := advance answer rest shared.value log
    some (⟨(settled log c).isInside, v⟩, settled log c)
  | _, _ => none

omit [DecidableEq ι] in
theorem guarded_of_turnOf {body : ι → Coro σ w α} {aside : ι → w.Query} (answer : ∀ q : w.Query, w.Reply q) {i : ι}
    {move : Move} {before after : Locked σ × Phase σ w α} (taken : turnOf body aside answer i move before = some after) :
    Guarded body aside i move before after := by
  unfold turnOf at taken
  split at taken
  · rename_i shared
    obtain rfl := Option.some.inj taken
    cases locked : shared.locked with
    | true => exact .taken locked
    | false => exact .free locked
  · obtain rfl := Option.some.inj taken
    exact .skip (answer (aside i))
  · rename_i shared
    split at taken
    · cases taken
    · rename_i free
      obtain rfl := Option.some.inj taken
      exact .acquire (by simpa using free) (segment_advance answer (body i) shared.value [])
  · rename_i shared log rest
    obtain rfl := Option.some.inj taken
    exact .resume (segment_advance answer rest shared.value log)
  · cases taken

/-- Runs to the end, one after another: who ran, the result and what was asked. -/
inductive Serial (body : ι → Coro σ w α) (start : σ) : List (ι × α × Log w) → σ → Prop
  | nil : Serial body start [] start
  | snoc {history : List (ι × α × Log w)} {s s' : σ} {i : ι} {a : α} {log : Log w} :
      Serial body start history s → Reaches (body i) s [] (.ret a) s' log →
      Serial body start (history ++ [(i, a, log)]) s'

omit [DecidableEq ι] in
/-- Every run of a history starts where the runs before it came to. -/
theorem Serial.at_run {body : ι → Coro σ w α} {start final : σ} {before after : List (ι × α × Log w)} {i : ι} {a : α}
    {log : Log w} (runs : Serial body start (before ++ (i, a, log) :: after) final) :
    ∃ s s', Serial body start before s ∧ Reaches (body i) s [] (.ret a) s' log := by
  induction after using List.reverseRecOn generalizing final with
  | nil =>
    generalize same : before ++ [(i, a, log)] = history at runs
    cases runs with
    | nil => simp at same
    | snoc earlier reaches =>
      obtain ⟨rfl, last⟩ := List.append_inj' same rfl
      cases last
      exact ⟨_, _, earlier, reaches⟩
  | append_singleton after run ih =>
    generalize same : before ++ (i, a, log) :: (after ++ [run]) = history at runs
    cases runs with
    | nil => simp at same
    | snoc earlier reaches =>
      rw [← List.cons_append, ← List.append_assoc] at same
      obtain ⟨rfl, -⟩ := List.append_inj' same rfl
      exact ih earlier

/-! ### One at a time -/

/-- A segment ends at the end of its coroutine or at an `await`. -/
theorem segment_ends {c c' : Coro σ w α} {s s' : σ} {log log' : Log w} (segment : Segment c s log c' s' log') :
    (∃ a, c' = .ret a) ∨ ∃ rest, c' = .suspend rest := by
  induction segment with
  | ret => exact .inl ⟨_, rfl⟩
  | suspend => exact .inr ⟨_, rfl⟩
  | get _ ih => exact ih
  | set _ ih => exact ih
  | ask r _ ih => exact ih

/-- A segment adds to what was asked before it. -/
theorem segment_log {c c' : Coro σ w α} {s s' : σ} {log log' : Log w} (segment : Segment c s log c' s' log') :
    log <+: log' := by
  induction segment with
  | ret => exact List.prefix_refl _
  | suspend => exact List.prefix_refl _
  | get _ ih => exact ih
  | set _ ih => exact ih
  | ask r _ ih => exact (List.prefix_append _ _).trans ih

variable {body : ι → Coro σ w α} {aside : ι → w.Query} {start : σ} {joint : Joint (Locked σ) ι (Phase σ w α)}
  {history : List (ι × α × Log w)} {mid : σ} {i j : ι} {move : Move} {after : Locked σ × Phase σ w α}

omit [DecidableEq ι] in
/-- The tasks that ran did so one after another up to the state `mid`, and the one
    inside, if there is one, has come from there to the state that is now. -/
structure Exclusive (body : ι → Coro σ w α) (start : σ) (joint : Joint (Locked σ) ι (Phase σ w α))
    (history : List (ι × α × Log w)) (mid : σ) : Prop where
  serial : Serial body start history mid
  free : joint.shared.locked = false → joint.shared.value = mid
  held : joint.shared.locked = true → ∃ i, (joint.place i).isInside = true
  inside : ∀ i log rest, joint.place i = .inside log rest →
    joint.shared.locked = true ∧ Reaches (body i) mid [] rest joint.shared.value log
  alone : ∀ i j, (joint.place i).isInside = true → (joint.place j).isInside = true → i = j
  finished : ∀ i a log, joint.place i = .finished a log ↔ (i, a, log) ∈ history
  once : (history.map Prod.fst).Nodup

/-- The run that a task has ended, if it has. -/
def ended (i : ι) : Phase σ w α → List (ι × α × Log w)
  | .finished a log => [(i, a, log)]
  | _ => []

omit [DecidableEq ι] in
theorem Exclusive.locked (exclusive : Exclusive body start joint history mid) (inside : (joint.place i).isInside = true) :
    joint.shared.locked = true := by
  cases place : joint.place i with
  | inside log rest => exact (exclusive.inside i log rest place).1
  | _ => rw [place] at inside; cases inside

/-- A turn that leaves the shared state, of a task that neither runs nor has ended before or after. -/
theorem exclusive_aside {phase : Phase σ w α} (exclusive : Exclusive body start joint history mid)
    (before : (joint.place i).isInside = false) (unended : ended i (joint.place i) = [])
    (outside : phase.isInside = false) (unfinished : ended i phase = []) :
    Exclusive body start (joint.moved i (joint.shared, phase)) history mid where
  serial := exclusive.serial
  free := exclusive.free
  held locked := by
    obtain ⟨k, inside⟩ := exclusive.held locked
    have other : k ≠ i := by rintro rfl; rw [before] at inside; cases inside
    exact ⟨k, by rwa [place_moved_of_ne _ _ other]⟩
  inside k log rest place := by
    by_cases here : k = i
    · subst here; rw [place_moved] at place; rw [show phase = _ from place] at outside; cases outside
    · rw [place_moved_of_ne _ _ here] at place
      exact exclusive.inside k log rest place
  alone k l first second := by
    have still : ∀ m, ((joint.moved i (joint.shared, phase)).place m).isInside = true →
        (joint.place m).isInside = true := by
      intro m inside
      by_cases here : m = i
      · subst here; rw [place_moved] at inside; rw [show phase.isInside = true from inside] at outside; cases outside
      · rwa [place_moved_of_ne _ _ here] at inside
    exact exclusive.alone k l (still k first) (still l second)
  finished k a log := by
    by_cases here : k = i
    · subst here
      rw [place_moved, ← exclusive.finished]
      constructor
      · intro place; rw [show phase = _ from place] at unfinished; cases unfinished
      · intro place; rw [place] at unended; cases unended
    · rw [place_moved_of_ne _ _ here]
      exact exclusive.finished k a log
  once := exclusive.once

/-- A segment of the only task that may be inside: where it ends, the lock is free
    again, and the run joins the history. -/
theorem exclusive_segment {c : Coro σ w α} {v : σ} {log : Log w} (exclusive : Exclusive body start joint history mid)
    (only : ∀ k, (joint.place k).isInside = true → k = i) (unended : ended i (joint.place i) = [])
    (reaches : Reaches (body i) mid [] c v log) (ends : (∃ a, c = .ret a) ∨ ∃ rest, c = .suspend rest) :
    ∃ mid', Exclusive body start (joint.moved i (⟨(settled log c).isInside, v⟩, settled log c))
      (history ++ ended i (settled log c)) mid' := by
  have elsewhere : ∀ after k, k ≠ i → ((joint.moved i after).place k).isInside = false := by
    intro after k other
    rw [place_moved_of_ne _ _ other]
    exact Bool.eq_false_iff.mpr (fun inside => other (only k inside))
  have absent : ∀ a log', (i, a, log') ∉ history := by
    intro a log' member
    rw [(exclusive.finished i a log').mpr member] at unended
    cases unended
  have finished_elsewhere : ∀ after k a log', k ≠ i →
      ((joint.moved i after).place k = .finished a log' ↔ (k, a, log') ∈ history) := by
    intro after k a log' other
    rw [place_moved_of_ne _ _ other]
    exact exclusive.finished k a log'
  rcases ends with ⟨a, rfl⟩ | ⟨rest, rfl⟩
  · refine ⟨v, .snoc exclusive.serial reaches, fun _ => rfl, (fun locked => by cases locked), ?_, ?_, ?_, ?_⟩
    · intro k log' rest place
      by_cases here : k = i
      · subst here; rw [place_moved] at place; cases place
      · have outside := elsewhere (⟨false, v⟩, .finished a log) k here
        rw [show (joint.moved i (⟨false, v⟩, .finished a log)).place k = _ from place] at outside
        cases outside
    · intro k l first _
      by_cases here : k = i
      · subst here; rw [place_moved] at first; cases first
      · rw [elsewhere _ k here] at first; cases first
    · intro k a' log'
      by_cases here : k = i
      · subst here
        rw [place_moved]
        simp [settled, ended, absent, eq_comm]
      · rw [finished_elsewhere _ k a' log' here]
        simp [settled, ended, here]
    · have fresh : i ∉ history.map Prod.fst := by
        intro member
        obtain ⟨⟨k, a', log'⟩, ran, rfl⟩ := List.mem_map.mp member
        exact absent a' log' ran
      show ((history ++ [(i, a, log)]).map Prod.fst).Nodup
      rw [List.map_append]
      refine List.nodup_append.mpr ⟨exclusive.once, List.pairwise_singleton _ i, ?_⟩
      rintro k member l last rfl
      rw [List.mem_singleton.mp last] at member
      exact fresh member
  · -- an `await`: the lock stays taken
    refine ⟨mid, by simpa [settled, ended] using exclusive.serial, (fun free => by cases free),
      fun _ => ⟨i, by rw [place_moved]; rfl⟩, ?_, ?_, ?_, by simpa [settled, ended] using exclusive.once⟩
    · intro k log' rest' place
      by_cases here : k = i
      · subst here
        rw [place_moved] at place
        cases place
        exact ⟨rfl, reaches⟩
      · have outside := elsewhere (⟨true, v⟩, .inside log (.suspend rest)) k here
        rw [show (joint.moved i (⟨true, v⟩, .inside log (.suspend rest))).place k = _ from place] at outside
        cases outside
    · intro k l first second
      by_cases here : k = i
      · by_cases there : l = i
        · rw [here, there]
        · rw [elsewhere _ l there] at second; cases second
      · rw [elsewhere _ k here] at first; cases first
    · intro k a' log'
      by_cases here : k = i
      · subst here
        rw [place_moved]
        simp [settled, ended, absent]
      · rw [finished_elsewhere _ k a' log' here]
        simp [settled, ended]

omit [DecidableEq ι] in
/-- Whoever takes a turn at a free lock is the only one that may be inside. -/
theorem Exclusive.nobody (exclusive : Exclusive body start joint history mid) (unlocked : joint.shared.locked = false) :
    ∀ k, (joint.place k).isInside = true → k = i := by
  intro k inside
  rw [exclusive.locked inside] at unlocked
  cases unlocked

theorem exclusive_next (exclusive : Exclusive body start joint history mid)
    (turn : Guarded body aside i move (joint.shared, joint.place i) after) :
    ∃ mid', Exclusive body start (joint.moved i after) (history ++ ended i after.2) mid' := by
  generalize shared : joint.shared = now at turn
  generalize place : joint.place i = phase at turn
  have still : ∀ phase', phase.isInside = false → ended i phase = [] → phase'.isInside = false → ended i phase' = [] →
      ∃ mid', Exclusive body start (joint.moved i (joint.shared, phase')) (history ++ ended i phase') mid' := by
    intro phase' before unended outside unfinished
    rw [unfinished, List.append_nil]
    subst place
    exact ⟨mid, exclusive_aside exclusive before unended outside unfinished⟩
  cases turn with
  | free unlocked => subst shared; exact still _ rfl rfl rfl rfl
  | taken locked => subst shared; exact still _ rfl rfl rfl rfl
  | skip _ => subst shared; exact still _ rfl rfl rfl rfl
  | acquire unlocked segment =>
    subst shared
    rw [exclusive.free unlocked] at segment
    exact exclusive_segment exclusive (exclusive.nobody unlocked) (by rw [place]; rfl) segment.reaches
      (segment_ends segment)
  | resume segment =>
    subst shared
    have inside : (joint.place i).isInside = true := by rw [place]; rfl
    have reached := (exclusive.inside i _ _ place).2
    exact exclusive_segment exclusive (fun k other => exclusive.alone k i other inside) (by rw [place]; rfl)
      (reached.trans (.suspend segment.reaches)) (segment_ends segment)

/-- Tasks that have not begun, and a free lock. -/
def called (start : σ) : Joint (Locked σ) ι (Phase σ w α) := ⟨⟨false, start⟩, fun _ => .calling⟩

omit [DecidableEq ι] in
theorem exclusive_called (start : σ) : Exclusive body start (called start) [] start where
  serial := .nil
  free _ := rfl
  held locked := by cases locked
  inside i log rest place := by cases place
  alone i j first _ := by cases first
  finished i a log := ⟨fun place => (by cases place), fun member => (by cases member)⟩
  once := List.nodup_nil

/-- In every state that the tasks reach, in whatever order they take turns. -/
theorem exclusive_of_run {turns : List (ι × Move)} (run : Run (Guarded body aside) (called start) turns joint) :
    ∃ history mid, Exclusive body start joint history mid := by
  refine run.invariant (P := fun _ joint => ∃ history mid, Exclusive body start joint history mid)
    ⟨[], start, exclusive_called start⟩ ?_
  rintro turns joint i move after ⟨history, mid, exclusive⟩ turn
  exact ⟨_, exclusive_next exclusive turn⟩

omit [DecidableEq ι] in
/-- While a task is inside, the turns of all others leave the shared state. -/
theorem shared_of_other (exclusive : Exclusive body start joint history mid) (inside : (joint.place j).isInside = true)
    (other : i ≠ j) (turn : Guarded body aside i move (joint.shared, joint.place i) after) : after.1 = joint.shared := by
  have locked := exclusive.locked inside
  generalize shared : joint.shared = now at turn
  generalize place : joint.place i = phase at turn
  subst shared
  cases turn with
  | free _ => rfl
  | taken _ => rfl
  | skip _ => rfl
  | acquire unlocked _ => rw [locked] at unlocked; cases unlocked
  | resume _ => exact absurd (exclusive.alone i j (by rw [place]; rfl) inside) other

omit [DecidableEq ι] in
/-- The turn with which a task finishes ends a run of its coroutine from where the
    runs before it came to. -/
theorem run_of_finished {shared : Locked σ} {a : α} {log : Log w} (exclusive : Exclusive body start joint history mid)
    (turn : Guarded body aside i move (joint.shared, joint.place i) (shared, .finished a log)) :
    Reaches (body i) mid [] (.ret a) shared.value log := by
  generalize now : joint.shared = before at turn
  generalize place : joint.place i = phase at turn
  subst now
  generalize result : (shared, Phase.finished a log) = after at turn
  cases turn with
  | free _ => cases result
  | taken _ => cases result
  | skip _ => cases result
  | @acquire _ _ c v log' unlocked segment =>
    rw [exclusive.free unlocked] at segment
    rcases segment_ends segment with ⟨a', rfl⟩ | ⟨rest, rfl⟩
    · cases result; exact segment.reaches
    · cases result
  | @resume _ _ rest c v log₀ log' segment =>
    have reached := (exclusive.inside i _ _ place).2
    rcases segment_ends segment with ⟨a', rfl⟩ | ⟨rest, rfl⟩
    · cases result; exact reached.trans (.suspend segment.reaches)
    · cases result

/-! ### The world behind the tasks -/

section
variable {τ ω κ : Type} {effect : ω → Exchange w → ω → Prop}

/-- Turns with the world outside behind them: what a turn asks, the world answers as
    it is when the turn is taken. -/
inductive Behind (effect : ω → Exchange w → ω → Prop) (turn : Turn τ ι (Phase σ w α) κ) :
    Turn (τ × ω) ι (Phase σ w α) κ
  | turn {i : ι} {kind : κ} {shared shared' : τ} {place place' : Phase σ w α} {o o' : ω} {log : Log w} :
      turn i kind (shared, place) (shared', place') → place'.asked = place.asked ++ log → Along effect o log o' →
      Behind effect turn i kind ((shared, o), place) ((shared', o'), place')

omit [DecidableEq ι] in
/-- What a turn asks comes after all that its task asked before. -/
theorem asked_grows {before after : Locked σ × Phase σ w α} (turn : Guarded body aside i move before after) :
    before.2.asked <+: after.2.asked := by
  cases turn with
  | free _ => exact List.nil_prefix
  | taken _ => exact List.nil_prefix
  | skip _ => exact List.nil_prefix
  | acquire _ _ => exact List.nil_prefix
  | resume segment =>
    rw [asked_settled]
    exact segment_log segment

/-- The tasks without the world behind them. -/
def front (joint : Joint (τ × ω) ι (Phase σ w α)) : Joint τ ι (Phase σ w α) := ⟨joint.shared.1, joint.place⟩

/-- What the runs of a history asked, one after another. -/
def logs (history : List (ι × α × Log w)) : Log w := history.flatMap (fun run => run.2.2)

/-- What the task inside has asked since it began; nothing, when nobody is inside. -/
structure Current (joint : Joint (Locked σ) ι (Phase σ w α)) (current : Log w) : Prop where
  asked : ∀ i, (joint.place i).isInside = true → (joint.place i).asked = current
  nobody : joint.shared.locked = false → current = []

variable {current : Log w} {o o' : ω} {log : Log w}

omit [DecidableEq ι] in
theorem logs_snoc (history : List (ι × α × Log w)) (i : ι) (a : α) : logs (history ++ [(i, a, log)]) = logs history ++ log := by
  simp [logs]

theorem current_aside {phase : Phase σ w α} (now : Current joint current) (outside : phase.isInside = false) :
    Current (joint.moved i (joint.shared, phase)) current where
  asked k inside := by
    by_cases here : k = i
    · subst here; rw [place_moved] at inside; rw [show phase.isInside = true from inside] at outside; cases outside
    · rw [place_moved_of_ne _ _ here] at inside ⊢
      exact now.asked k inside
  nobody := now.nobody

/-- After a segment of the only task that may be inside, either it is still inside and
    all it asked is current, or its run has joined the history. -/
theorem current_segment {c : Coro σ w α} {v : σ} (only : ∀ k, (joint.place k).isInside = true → k = i)
    (ends : (∃ a, c = .ret a) ∨ ∃ rest, c = .suspend rest) :
    ∃ current, Current (joint.moved i (⟨(settled log c).isInside, v⟩, settled log c)) current ∧
      logs (history ++ ended i (settled log c)) ++ current = logs history ++ log := by
  have elsewhere : ∀ after k, k ≠ i → ((joint.moved i after).place k).isInside = false := by
    intro after k other
    rw [place_moved_of_ne _ _ other]
    exact Bool.eq_false_iff.mpr (fun inside => other (only k inside))
  rcases ends with ⟨a, rfl⟩ | ⟨rest, rfl⟩
  · refine ⟨[], ⟨fun k inside => ?_, fun _ => rfl⟩, (List.append_nil _).trans (logs_snoc history i a)⟩
    by_cases here : k = i
    · subst here; rw [place_moved] at inside; cases inside
    · rw [elsewhere _ k here] at inside; cases inside
  · refine ⟨log, ⟨fun k inside => ?_, fun free => by cases free⟩, by simp [settled, ended]⟩
    by_cases here : k = i
    · subst here; rw [place_moved]; rfl
    · rw [elsewhere _ k here] at inside; cases inside

/-- What a turn asks joins what the task inside has asked, or the history with the run it ends. -/
theorem current_next (aloof : ∀ i r o o', effect o ⟨aside i, r⟩ o' → o' = o)
    (exclusive : Exclusive body start joint history mid) (now : Current joint current)
    (turn : Guarded body aside i move (joint.shared, joint.place i) after)
    (asked : after.2.asked = (joint.place i).asked ++ log) (along : Along effect o log o')
    {before : ω} (earlier : Along effect before (logs history ++ current) o) :
    ∃ current', Current (joint.moved i after) current' ∧
      Along effect before (logs (history ++ ended i after.2) ++ current') o' := by
  generalize shared : joint.shared = guarded at turn
  generalize place : joint.place i = phase at turn asked
  have still : ∀ phase', phase'.isInside = false → ended i phase' = [] → o' = o →
      ∃ current', Current (joint.moved i (joint.shared, phase')) current' ∧
        Along effect before (logs (history ++ ended i phase') ++ current') o' := by
    intro phase' outside unfinished same
    refine ⟨current, current_aside now outside, ?_⟩
    rwa [unfinished, List.append_nil, same]
  have ran : ∀ c v log', (∀ k, (joint.place k).isInside = true → k = i) →
      ((∃ a, c = .ret a) ∨ ∃ rest, c = .suspend rest) → log' = current ++ log →
      ∃ current', Current (joint.moved i (⟨(settled log' c).isInside, v⟩, settled log' c)) current' ∧
        Along effect before (logs (history ++ ended i (settled log' c)) ++ current') o' := by
    intro c v log' only ends same
    have segment : ∃ current', Current (joint.moved i (⟨(settled log' c).isInside, v⟩, settled log' c)) current' ∧
        logs (history ++ ended i (settled log' c)) ++ current' = logs history ++ log' := current_segment only ends
    obtain ⟨current', next, joined⟩ := segment
    refine ⟨current', next, ?_⟩
    rw [joined, same, ← List.append_assoc]
    exact along_append.mpr ⟨o, earlier, along⟩
  cases turn with
  | free _ =>
    subst shared
    obtain rfl : log = [] := asked.symm
    cases along
    exact still _ rfl rfl rfl
  | taken _ =>
    subst shared
    obtain rfl : log = [] := asked.symm
    cases along
    exact still _ rfl rfl rfl
  | skip r =>
    subst shared
    obtain rfl : log = [⟨aside i, r⟩] := asked.symm
    obtain _ | ⟨one, none⟩ := along
    cases none
    exact still _ rfl rfl (aloof i r _ _ one)
  | acquire unlocked segment =>
    subst shared
    rw [asked_settled] at asked
    rw [now.nobody unlocked] at ran
    exact ran _ _ _ (exclusive.nobody unlocked) (segment_ends segment) asked
  | resume segment =>
    subst shared
    have inside : (joint.place i).isInside = true := by rw [place]; rfl
    have so_far := now.asked i inside
    rw [place] at so_far
    rw [asked_settled, so_far] at asked
    exact ran _ _ _ (fun k other => exclusive.alone k i other inside) (segment_ends segment) asked

/-- The world is what the runs made of it one after another, and after them the task inside. -/
theorem world_of_run (aloof : ∀ i r o o', effect o ⟨aside i, r⟩ o' → o' = o) {turns : List (ι × Move)}
    {joint : Joint (Locked σ × ω) ι (Phase σ w α)} {o : ω}
    (run : Run (Behind effect (Guarded body aside)) ⟨(⟨false, start⟩, o), fun _ => .calling⟩ turns joint) :
    ∃ history mid current, Exclusive body start (front joint) history mid ∧ Current (front joint) current ∧
      Along effect o (logs history ++ current) joint.shared.2 := by
  refine run.invariant (P := fun _ joint => ∃ history mid current, Exclusive body start (front joint) history mid ∧
    Current (front joint) current ∧ Along effect o (logs history ++ current) joint.shared.2) ?_ ?_
  · exact ⟨[], start, [], exclusive_called start, ⟨fun i inside => (by cases inside), fun _ => rfl⟩, .nil⟩
  · rintro turns joint i move after ⟨history, mid, current, exclusive, now, earlier⟩ taken
    obtain ⟨⟨shared, o₁⟩, place⟩ := joint
    generalize here : place i = phase at taken
    cases taken with
    | turn guarded asked along =>
      subst here
      obtain ⟨mid', exclusive'⟩ := exclusive_next exclusive guarded
      obtain ⟨current', now', along'⟩ := current_next aloof exclusive now guarded asked along earlier
      exact ⟨_, mid', current', exclusive', now', along'⟩

end

end ScanApi.EventLoop
