import ScanApi.RunEffect

/-!
Calls of `run_all` in any number, interleaved at every `await`. Only one of them
runs at a time; the others leave the status and the active proxy, and every run
ends clean.
-/
namespace ScanApi.RunSafety
open ScanApi.Diff ScanApi.EventLoop ScanApi.Interleaving ScanApi.NotifyFormat ScanApi.ParserRunner ScanApi.RunEffect

variable {ι : Type} [DecidableEq ι]

/-- The turns of calls of `run_all` on one runner. -/
abbrev Calls (config : Config) (calls : ι → Call) : Turn (Locked Runner) ι (Phase Runner world Unit) Move :=
  Guarded (fun i => runAll config (calls i)) (fun i => skipped (calls i))

/-- How a run leaves the runner. -/
structure CleanEnd (call : Call) (log : Log world) (r : Runner) : Prop where
  running : r.status.running = false
  active : r.active = none
  /-- A bank that raises does not keep the banks after it from their visit. -/
  visited : (visits log).map Prod.fst = call.banks
  /-- What a bank shows is decided by the answers to its own visit. -/
  own : ∀ b, Shows (lastVisit b (visits log)) (r.status.banks b)
  failed : ∀ b exc, lastVisit b (visits log) = some (.failed exc) → (r.status.banks b).status = .error
  requested : ∀ b ∈ call.banks, (r.status.banks b).status = .done ∨ (r.status.banks b).status = .error
  others : ∀ b, b ∉ call.banks → (r.status.banks b).status = .pending

omit [DecidableEq ι] in
theorem cleanEnd_of_ends {config : Config} {call : Call} {s s' : Runner} {log : Log world}
    (ends : Ends config call s s' log) : CleanEnd call log s' where
  running := ends.running
  active := ends.active
  visited := ends.visited
  own := ends.shown
  failed b exc last := by
    have shows := ends.shown b
    rw [last] at shows
    exact shows.1
  requested b member := by
    have shows := ends.shown b
    have isSome : (lastVisit b (visits log)).isSome := lastVisit_isSome.mpr (by rwa [ends.visited])
    cases last : lastVisit b (visits log) with
    | none => rw [last] at isSome; cases isSome
    | some verdict =>
      rw [last] at shows
      cases verdict with
      | failed exc => exact .inr shows.1
      | imported services methods changes => exact .inl shows.1
  others b absent := by
    have shows := ends.shown b
    cases last : lastVisit b (visits log) with
    | none => rw [last] at shows; rw [show s'.status.banks b = {} from shows]
    | some verdict =>
      have member := lastVisit_isSome.mp (show (lastVisit b (visits log)).isSome by rw [last]; rfl)
      rw [ends.visited] at member
      exact absurd member absent

variable {config : Config} {calls : ι → Call} {start : Runner} {turns : List (ι × Move)}
  {joint : Joint (Locked Runner) ι (Phase Runner world Unit)}

/-- In every state that calls reach, whatever they are answered and in whatever order
    they go on. -/
theorem runs_exclusive_and_clean (run : Run (Calls config calls) (called start) turns joint) :
    (∀ i j, (joint.place i).isInside = true → (joint.place j).isInside = true → i = j) ∧
    (∀ i j move after, (joint.place j).isInside = true → i ≠ j →
      Calls config calls i move (joint.shared, joint.place i) after →
      after.1 = joint.shared ∧ (joint.place i = .calling → after.2 = .skipping)) ∧
    (∀ i move after, joint.place i = .skipping → Calls config calls i move (joint.shared, joint.place i) after →
      after.1 = joint.shared ∧ ∃ said, after.2 = .skipped said) ∧
    (∀ i move shared log, Calls config calls i move (joint.shared, joint.place i) (shared, .finished () log) →
      CleanEnd (calls i) log shared.value) := by
  obtain ⟨history, mid, exclusive⟩ := exclusive_of_run run
  refine ⟨exclusive.alone, ?_, ?_, ?_⟩
  · intro i j move after inside other turn
    refine ⟨shared_of_other exclusive inside other turn, ?_⟩
    intro calling
    have locked := exclusive.locked inside
    rw [calling] at turn
    generalize joint.shared = shared at turn locked
    cases turn with
    | free unlocked => rw [locked] at unlocked; cases unlocked
    | taken _ => rfl
  · intro i move after skipping turn
    rw [skipping] at turn
    generalize joint.shared = shared at turn
    cases turn with
    | skip r => exact ⟨rfl, _, rfl⟩
  · intro i move shared log turn
    have ran := run_of_finished exclusive turn
    exact cleanEnd_of_ends (ends_of_reaches (calls i) ran)

/-- A run by schedule, and a call by hand while it runs. -/
def twoCalls : Bool → Call
  | true => { trigger := "schedule", banks := [.sber, .tochka, .alfabank] }
  | false => { trigger := "manual" }

def withProxies : Config := { notifier := true, proxySource := true }

/-- The turns of the two calls on the bad day. -/
def twoCallTurn :
    Bool → Move → Locked Runner × Phase Runner world Unit → Option (Locked Runner × Phase Runner world Unit) :=
  turnOf (fun i => runAll withProxies (twoCalls i)) (fun i => skipped (twoCalls i)) badDay

/-- Up to the last turn of the run. -/
def twoCallTurns : List (Bool × Move) :=
  [(true, .test), (true, .acquire), (false, .test), (false, .leave)] ++ List.replicate 19 (true, .resume)

def isFinished : Phase Runner world Unit → Bool
  | .finished _ _ => true
  | _ => false

theorem two_calls_end_clean : ∃ (log : Log world) (r : Runner), CleanEnd (twoCalls true) log r := by
  obtain ⟨joint, performed, last⟩ := exists_run twoCallTurn (called {}) twoCallTurns
    (fun joint => (twoCallTurn true .resume (joint.shared, joint.place true)).any (fun after => isFinished after.2))
    (by decide +kernel)
  have run : Run (Calls withProxies twoCalls) (called {}) twoCallTurns joint :=
    performed.mono (fun i move before after taken => guarded_of_turnOf badDay taken)
  obtain ⟨⟨shared, phase⟩, taken, finished⟩ := (Option.any_eq_true _ _).mp last
  obtain ⟨log, rfl⟩ : ∃ log, phase = .finished () log := by
    cases phase with
    | finished _ log => exact ⟨log, rfl⟩
    | _ => cases finished
  have turn : Calls withProxies twoCalls true .resume (joint.shared, joint.place true) (shared, .finished () log) :=
    guarded_of_turnOf (w := world) badDay taken
  exact ⟨log, shared.value, (runs_exclusive_and_clean run).2.2.2 true .resume shared log turn⟩

end ScanApi.RunSafety
