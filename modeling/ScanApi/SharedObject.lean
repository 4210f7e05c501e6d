import ScanApi.EventLoop

/-!
Threads around one shared object. A thread asks questions, and goes on with the
answers. Some questions are calls of the object, which holds its lock from
beginning to end, so calls are answered one at a time; the world outside answers
the others. In whatever order the threads take their turns, the object is only
called again and again (`object_serves`), and every thread only does what it would
do with these answers on its own (`thread_does`).
-/
namespace ScanApi.SharedObject
open ScanApi.Interleaving ScanApi.EventLoop

variable {w : Outside} {σ ι α β μ : Type}

inductive Thread (w : Outside) (α : Type)
  | ret (a : α)
  | ask (q : w.Query) (k : w.Reply q → Thread w α)

namespace Thread

protected def bind : Thread w α → (α → Thread w β) → Thread w β
  | .ret a, f => f a
  | .ask q k, f => .ask q (fun r => (k r).bind f)

instance : Monad (Thread w) where
  pure := .ret
  bind := Thread.bind

def query (q : w.Query) : Thread w (w.Reply q) := .ask q .ret

end Thread

/-- What a thread does, given the answers: its exchanges, and where it is then. -/
inductive Does : Thread w α → Log w → Thread w α → Prop
  | nothing {t : Thread w α} : Does t [] t
  | ask {q : w.Query} {k : w.Reply q → Thread w α} {log : Log w} {t : Thread w α} (r : w.Reply q) :
      Does (k r) log t → Does (.ask q k) (⟨q, r⟩ :: log) t

theorem Does.snoc {t : Thread w α} {log : Log w} {q : w.Query} {k : w.Reply q → Thread w α} (r : w.Reply q)
    (does : Does t log (.ask q k)) : Does t (log ++ [⟨q, r⟩]) (k r) := by
  generalize ask : Thread.ask q k = now at does
  induction does with
  | nothing =>
    subst ask
    exact .ask r .nothing
  | ask r' _ ih => exact .ask r' (ih ask)

theorem Does.trans {t t' t'' : Thread w α} {log log' : Log w} (first : Does t log t') (second : Does t' log' t'') :
    Does t (log ++ log') t'' := by
  induction first with
  | nothing => exact second
  | ask r _ ih => exact .ask r (ih second)

/-- With answers to everything a thread comes to its end. -/
theorem Does.ends (answer : ∀ q : w.Query, w.Reply q) (t : Thread w α) : ∃ log a, Does t log (.ret a) := by
  induction t with
  | ret a => exact ⟨[], a, .nothing⟩
  | ask q k ih =>
    obtain ⟨log, a, does⟩ := ih (answer q)
    exact ⟨⟨q, answer q⟩ :: log, a, .ask (answer q) does⟩

/-! ### To the end -/

@[simp] theorem does_pure {a b : α} {log : Log w} : Does (pure a : Thread w α) log (.ret b) ↔ log = [] ∧ a = b := by
  constructor
  · intro does
    cases does
    exact ⟨rfl, rfl⟩
  · rintro ⟨rfl, rfl⟩
    exact .nothing

@[simp] theorem does_query {q : w.Query} {log : Log w} {r : w.Reply q} :
    Does (Thread.query q) log (.ret r) ↔ log = [⟨q, r⟩] := by
  constructor
  · intro does
    cases does with
    | ask _ rest =>
      cases rest
      rfl
  · rintro rfl
    exact .ask r .nothing

/-- A question comes first, and then what its answer leads to. -/
theorem does_query_bind {q : w.Query} {f : w.Reply q → Thread w α} {log : Log w} {a : α} :
    Does (Thread.query q >>= f) log (.ret a) ↔ ∃ r rest, log = ⟨q, r⟩ :: rest ∧ Does (f r) rest (.ret a) := by
  constructor
  · intro does
    cases does with
    | ask r rest => exact ⟨r, _, rfl, rest⟩
  · rintro ⟨r, rest, rfl, does⟩
    exact .ask r does

/-! ### The object -/

/-- What a call at some moment answers, and what it makes of the object; `none` for
    a question that is not a call. -/
abbrev Object (w : Outside) (σ μ : Type) := (q : w.Query) → μ → σ → Option (w.Reply q × σ)

/-- An exchange and its moment. -/
abbrev Event (w : Outside) (μ : Type) := Exchange w × μ

inductive Served (object : Object w σ μ) : Turn σ ι (Thread w α) (Event w μ)
  | call {i : ι} {s s' : σ} {now : μ} {q : w.Query} {k : w.Reply q → Thread w α} {r : w.Reply q} :
      object q now s = some (r, s') → Served object i (⟨q, r⟩, now) (s, .ask q k) (s', k r)
  | outside {i : ι} {s : σ} {now : μ} {q : w.Query} {k : w.Reply q → Thread w α} (r : w.Reply q) :
      object q now s = none → Served object i (⟨q, r⟩, now) (s, .ask q k) (s, k r)

variable [DecidableEq ι] {object : Object w σ μ} {start joint : Joint σ ι (Thread w α)}
  {turns : List (ι × Event w μ)}

/-- The exchanges of one thread. -/
def logOf (i : ι) (turns : List (ι × Event w μ)) : Log w := (turns.filter (fun turn => turn.1 = i)).map (fun turn => turn.2.1)

theorem logOf_snoc (i j : ι) (turns : List (ι × Event w μ)) (e : Event w μ) :
    logOf i (turns ++ [(j, e)]) = if j = i then logOf i turns ++ [e.1] else logOf i turns := by
  by_cases same : j = i <;> simp [logOf, same]

/-- Every thread does what it would do on its own. -/
theorem thread_does (run : Run (Served object) start turns joint) (i : ι) :
    Does (start.place i) (logOf i turns) (joint.place i) := by
  induction run with
  | nil => exact .nothing
  | @snoc turns joint j e after _ taken ih =>
    rw [logOf_snoc]
    by_cases same : j = i
    · subst same
      rw [if_pos rfl, place_moved]
      generalize place : joint.place j = t at taken ih
      cases taken with
      | call _ => exact ih.snoc _
      | outside r _ => exact ih.snoc r
    · rw [if_neg same, place_moved_of_ne _ _ (Ne.symm same)]
      exact ih

/-- What holds of the object and what happened at the start and survives every event holds after every run, and what
    every event is shown to satisfy, given what happened before, holds of all of them. -/
theorem object_serves {P : List (Event w μ) → σ → Prop} {Q : List (Event w μ) → Event w μ → Prop}
    (first : P [] start.shared)
    (call : ∀ past s q now r s', P past s → object q now s = some (r, s') →
      P (past ++ [(⟨q, r⟩, now)]) s' ∧ Q past (⟨q, r⟩, now))
    (outside : ∀ past s q now r, P past s → object q now s = none →
      P (past ++ [(⟨q, r⟩, now)]) s ∧ Q past (⟨q, r⟩, now))
    (run : Run (Served object) start turns joint) :
    P (turns.map Prod.snd) joint.shared ∧
      ∀ before e after, turns.map Prod.snd = before ++ e :: after → Q before e := by
  induction run with
  | nil =>
    refine ⟨first, fun before e after split => ?_⟩
    simp at split
  | @snoc turns joint j e' moved _ taken ih =>
    obtain ⟨state, each⟩ := ih
    have next : P (turns.map Prod.snd ++ [e']) moved.1 ∧ Q (turns.map Prod.snd) e' := by
      generalize joint.place j = t at taken
      cases taken with
      | call served => exact call _ _ _ _ _ _ state served
      | outside r other => exact outside _ _ _ _ r state other
    rw [List.map_append]
    refine ⟨next.1, fun before e after split => ?_⟩
    rcases List.eq_nil_or_concat' after with rfl | ⟨after, last, rfl⟩
    · obtain ⟨rfl, rfl⟩ : turns.map Prod.snd = before ∧ e' = e := by
        simpa using List.append_inj' split rfl
      exact next.2
    · have earlier : turns.map Prod.snd ++ [e'] = (before ++ e :: after) ++ [last] := by simpa using split
      exact each before e after (List.append_inj' earlier rfl).1

/-! ### Schedules -/

/-- The turns that threads take in a given order, where a function answers for the world outside. -/
def schedule (object : Object w σ μ) (answer : ι → ∀ q : w.Query, w.Reply q) :
    List (ι × μ) → Joint σ ι (Thread w α) → Option (List (ι × Event w μ) × Joint σ ι (Thread w α))
  | [], joint => some ([], joint)
  | (i, now) :: rest, joint => match joint.place i with
    | .ret _ => none
    | .ask q k =>
      let (r, s) := (object q now joint.shared).getD (answer i q, joint.shared)
      (schedule object answer rest (joint.moved i (s, k r))).map (fun later => ((i, ⟨q, r⟩, now) :: later.1, later.2))

theorem run_of_schedule {answer : ι → ∀ q : w.Query, w.Reply q} {plan : List (ι × μ)} {mid : Joint σ ι (Thread w α)}
    {earlier : List (ι × Event w μ)} (run : Run (Served object) start earlier mid)
    (scheduled : schedule object answer plan mid = some (turns, joint)) :
    Run (Served object) start (earlier ++ turns) joint := by
  induction plan generalizing mid earlier turns with
  | nil =>
    obtain ⟨rfl, rfl⟩ := Prod.mk.inj (Option.some.inj scheduled)
    rwa [List.append_nil]
  | cons turn rest ih =>
    obtain ⟨i, now⟩ := turn
    rw [schedule] at scheduled
    cases place : mid.place i with
    | ret a =>
      rw [place] at scheduled
      cases scheduled
    | ask q k =>
      simp only [place] at scheduled
      obtain ⟨⟨later, last⟩, taken, same⟩ := Option.map_eq_some_iff.mp scheduled
      obtain ⟨rfl, rfl⟩ := Prod.mk.inj same
      cases served : object q now mid.shared with
      | some answered =>
        rw [served] at taken
        have step : Served object i (⟨q, answered.1⟩, now) (mid.shared, mid.place i) (answered.2, k answered.1) :=
          place ▸ .call served
        simpa using ih (run.snoc step) taken
      | none =>
        rw [served] at taken
        have step : Served object i (⟨q, answer i q⟩, now) (mid.shared, mid.place i) (mid.shared, k (answer i q)) :=
          place ▸ .outside (answer i q) served
        simpa using ih (run.snoc step) taken

/-- A run from a schedule, and what a test says of it. -/
theorem exists_scheduled (answer : ι → ∀ q : w.Query, w.Reply q) (plan : List (ι × μ))
    (test : List (ι × Event w μ) × Joint σ ι (Thread w α) → Bool)
    (checked : (schedule object answer plan start).any test = true) :
    ∃ turns joint, Run (Served object) start turns joint ∧ test (turns, joint) = true := by
  cases scheduled : schedule object answer plan start with
  | none =>
    rw [scheduled] at checked
    cases checked
  | some ends =>
    rw [scheduled] at checked
    exact ⟨ends.1, ends.2, run_of_schedule .nil scheduled, by simpa using checked⟩

end ScanApi.SharedObject
