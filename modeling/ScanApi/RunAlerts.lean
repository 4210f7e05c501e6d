import ScanApi.RunEffect

/-!
What one runner tells the admin over all its runs: for each bank a failure when
it begins to fail and a recovery when it passes again, decided by the outcomes of
the bank alone.
-/
namespace ScanApi.RunAlerts
open ScanApi.Diff ScanApi.EventLoop ScanApi.EventLoop.Coro ScanApi.NotifyFormat ScanApi.ParserRunner ScanApi.RunEffect

/-! ### Reading alerts -/

inductive AlertKind
  | failure
  | recovery
deriving DecidableEq, Repr

/-- How a failure alert of a bank begins. -/
def failureStart (bank : Bank) : Chars := "⚠️ <b>".toList ++ escape (bankLabel bank).toList ++ "</b>: ".toList

/-- What a message to the admin tells about a bank. -/
def alertOf (bank : Bank) (text : Chars) : Option AlertKind :=
  if (failureStart bank).isPrefixOf text then some .failure
  else if text = formatRecovery bank then some .recovery
  else none

/-- The alerts about a bank that a run attempted. -/
def alertsFor (bank : Bank) (log : Log world) : List AlertKind := (adminTexts log).filterMap (alertOf bank)

theorem alertOf_formatFailure (bank failed : Bank) (error : String) (rejected : Bool) :
    alertOf bank (formatFailure failed error rejected) = if bank = failed then some .failure else none := by
  cases bank <;> cases failed <;> rfl

theorem alertOf_formatRecovery (bank recovered : Bank) :
    alertOf bank (formatRecovery recovered) = if bank = recovered then some .recovery else none := by
  cases bank <;> cases recovered <;> rfl

/-! ### One run -/

def isFailed : Verdict → Bool
  | .failed _ => true
  | .imported _ _ _ => false

/-- Whether a bank fails in a run; a run that does not include it has no outcome for it. -/
def outcomeIn (bank : Bank) (log : Log world) : Option Bool := (lastVisit bank (visits log)).map isFailed

/-- The failures of a run carry a text. -/
def Worded (log : Log world) : Prop := ∀ b exc, (b, .failed exc) ∈ visits log → publicError exc ≠ ""

/-- The alert for an outcome after an outcome. -/
def due : Bool → Bool → List AlertKind
  | false, true => [.failure]
  | true, false => [.recovery]
  | _, _ => []

theorem lastVisit_mem {bank : Bank} {visited : List (Bank × Verdict)} {verdict : Verdict}
    (last : lastVisit bank visited = some verdict) : (bank, verdict) ∈ visited := by
  obtain ⟨v, found, rfl⟩ := Option.map_eq_some_iff.mp last
  obtain ⟨member, same⟩ := List.mem_filter.mp (List.mem_of_getLast? found)
  obtain rfl : v.1 = bank := by simpa using same
  exact member

theorem failed_outcomeOf {log : Log world} (worded : Worded log) {bank : Bank} {verdict : Verdict}
    (last : lastVisit bank (visits log) = some verdict) : (outcomeOf verdict).failed = isFailed verdict := by
  cases verdict with
  | failed exc =>
    have text := worded bank exc (lastVisit_mem last)
    simpa [outcomeOf, BankOutcome.failed, isFailed] using text
  | imported services methods changes => rfl

/-- The outcome that the runner keeps is the one that the answers tell. -/
theorem failed_in_run {log : Log world} (worded : Worded log) (bank : Bank) :
    ((outcomesOf (visits log)).get? bank).map BankOutcome.failed = outcomeIn bank log := by
  rw [get?_outcomesOf, outcomeIn, Option.map_map]
  cases last : lastVisit bank (visits log) with
  | none => rfl
  | some verdict => simp [failed_outcomeOf worded last]

theorem mem_failedBanks {outcomes : Dict Bank BankOutcome} {bank : Bank} :
    bank ∈ (failedBanks outcomes).toFinset ↔ (outcomes.get? bank).map BankOutcome.failed = some true := by
  simp [failedBanks, Dict.get?_eq_some, and_comm]

theorem mem_passedBanks {outcomes : Dict Bank BankOutcome} {bank : Bank} :
    bank ∈ (passedBanks outcomes).toFinset ↔ (outcomes.get? bank).map BankOutcome.failed = some false := by
  simp [passedBanks, Dict.get?_eq_some, and_comm]

/-- The failing set after a run: the outcome of the bank, where it has one. -/
theorem mem_nextFailing {outcomes : Dict Bank BankOutcome} {failing : Finset Bank} {bank : Bank} :
    decide (bank ∈ nextFailing outcomes failing) =
      ((outcomes.get? bank).map BankOutcome.failed).getD (decide (bank ∈ failing)) := by
  simp only [nextFailing, recoveredBanks, Finset.mem_union, Finset.mem_sdiff, Finset.mem_inter, mem_failedBanks,
    mem_passedBanks]
  rcases (outcomes.get? bank).map BankOutcome.failed with _ | _ | _ <;> simp

/-- Among distinct keys one is found once. -/
theorem filterMap_key {κ α : Type} [DecidableEq κ] (k : κ) (a : α) {keys : List κ} (distinct : keys.Nodup) :
    keys.filterMap (fun k' => if k = k' then some a else none) = if k ∈ keys then [a] else [] := by
  induction keys with
  | nil => rfl
  | cons k' rest ih =>
    obtain ⟨absent, rest_distinct⟩ := List.nodup_cons.mp distinct
    rw [List.filterMap_cons, ih rest_distinct]
    by_cases same : k = k'
    · subst same; simp [absent]
    · simp [same]

/-- The alerts about a bank among texts for the banks of a set. -/
theorem filterMap_alertOf (outcomes : Dict Bank BankOutcome) (among : Finset Bank) (bank : Bank) (kind : AlertKind)
    (text : Bank × BankOutcome → Chars)
    (read : ∀ e, alertOf bank (text e) = if bank = e.1 then some kind else none) :
    ((outcomes.entries.filter (fun e => e.1 ∈ among)).map text).filterMap (alertOf bank) =
      if bank ∈ among ∧ bank ∈ outcomes.keys then [kind] else [] := by
  have keys : (outcomes.entries.filter (fun e => e.1 ∈ among)).map Prod.fst =
      (outcomes.entries.map Prod.fst).filter (· ∈ among) := by
    rw [List.filter_map]; rfl
  have found := filterMap_key bank kind (outcomes.distinct.filter (· ∈ among))
  rw [← keys, List.filterMap_map] at found
  have reads : alertOf bank ∘ text = (fun k => if bank = k then some kind else none) ∘ Prod.fst := funext read
  have members : bank ∈ (outcomes.entries.filter (fun e => e.1 ∈ among)).map Prod.fst ↔
      bank ∈ among ∧ bank ∈ outcomes.keys := by
    rw [keys, List.mem_filter, Dict.keys, List.mem_toFinset, decide_eq_true_iff, and_comm]
  rw [List.filterMap_map, reads, found]
  exact if_congr members rfl rfl

/-- What a run with a notifier owes for a bank. -/
theorem alerts_of_owedTexts {config : Config} (notifier : config.notifier = true) (outcomes : Dict Bank BankOutcome)
    (failing : Finset Bank) (bank : Bank) :
    (owedTexts config outcomes failing).filterMap (alertOf bank) =
      (((outcomes.get? bank).map BankOutcome.failed).map (due (decide (bank ∈ failing)))).getD [] := by
  rw [owedTexts, if_pos notifier, alertTexts, List.filterMap_append,
    filterMap_alertOf outcomes _ bank .failure _ (fun e => alertOf_formatFailure bank e.1 _ _),
    filterMap_alertOf outcomes _ bank .recovery _ (fun e => alertOf_formatRecovery bank e.1)]
  have known : bank ∈ outcomes.keys ↔ ((outcomes.get? bank).map BankOutcome.failed).isSome := by
    simp [Dict.mem_keys, Option.isSome_iff_exists]
  simp only [newlyFailedBanks, recoveredBanks, Finset.mem_sdiff, Finset.mem_inter, mem_failedBanks, mem_passedBanks, known]
  by_cases was : bank ∈ failing <;>
    rcases (outcomes.get? bank).map BankOutcome.failed with _ | _ | _ <;> simp [was, due]

/-- A run takes the bank from whether it was failing to its outcome, and alerts on a change. -/
theorem alertsFor_of_ends {config : Config} (notifier : config.notifier = true) {call : Call} {s s' : Runner}
    {log : Log world} (ends : Ends config call s s' log) (worded : Worded log) (bank : Bank) :
    alertsFor bank log = ((outcomeIn bank log).map (due (decide (bank ∈ s.failing)))).getD [] ∧
    decide (bank ∈ s'.failing) = (outcomeIn bank log).getD (decide (bank ∈ s.failing)) := by
  constructor
  · rw [alertsFor, ends.texts, alerts_of_owedTexts notifier, failed_in_run worded]
  · rw [ends.failing, mem_nextFailing, failed_in_run worded]

/-! ### Runs one after another -/

/-- A finished run: the call, and what it was answered. -/
abbrev Finished (ι : Type) := ι × Unit × Log world

variable {ι : Type}

/-- The outcomes of a bank, in the runs that include it. -/
def outcomes (bank : Bank) (history : List (Finished ι)) : List Bool :=
  history.filterMap (fun run => outcomeIn bank run.2.2)

/-- Whether the last outcome of a bank is a failure. -/
def wasFailing (bank : Bank) (history : List (Finished ι)) : Bool := (outcomes bank history).getLast?.getD false

def alerts (bank : Bank) (history : List (Finished ι)) : List AlertKind :=
  history.flatMap (fun run => alertsFor bank run.2.2)

/-- An alert wherever an outcome differs from the one before. -/
def transitions : Bool → List Bool → List AlertKind
  | _, [] => []
  | was, fails :: rest => due was fails ++ transitions fails rest

def AlertKind.other : AlertKind → AlertKind
  | .failure => .recovery
  | .recovery => .failure

/-- One kind and the other in turn, beginning with `first`. -/
def Alternates (first : AlertKind) : List AlertKind → Prop
  | [] => True
  | kind :: rest => kind = first ∧ Alternates first.other rest

/-- The kind of alert that may come next. -/
def nextKind (was : Bool) : AlertKind := if was then .recovery else .failure

theorem alternates_transitions (was : Bool) (fails : List Bool) : Alternates (nextKind was) (transitions was fails) := by
  induction fails generalizing was with
  | nil => trivial
  | cons now rest ih =>
    have tail := ih now
    cases was <;> cases now
    · exact tail
    · exact ⟨rfl, tail⟩
    · exact ⟨rfl, tail⟩
    · exact tail

theorem transitions_snoc (was : Bool) (fails : List Bool) (now : Bool) :
    transitions was (fails ++ [now]) = transitions was fails ++ due (fails.getLast?.getD was) now := by
  induction fails generalizing was with
  | nil => simp [transitions]
  | cons first rest ih =>
    have last : (first :: rest).getLast?.getD was = rest.getLast?.getD first := by
      cases rest <;> simp [List.getLast?_cons]
    rw [List.cons_append, transitions, ih first, transitions, last, List.append_assoc]

theorem outcomes_snoc (bank : Bank) (history : List (Finished ι)) (run : Finished ι) :
    outcomes bank (history ++ [run]) = outcomes bank history ++ (outcomeIn bank run.2.2).toList := by
  cases here : outcomeIn bank run.2.2 <;> simp [outcomes, here]

theorem wasFailing_snoc (bank : Bank) (history : List (Finished ι)) (run : Finished ι) :
    wasFailing bank (history ++ [run]) = (outcomeIn bank run.2.2).getD (wasFailing bank history) := by
  rw [wasFailing, outcomes_snoc]
  cases here : outcomeIn bank run.2.2 <;> simp [wasFailing]

variable {config : Config} {calls : ι → Call} {history : List (Finished ι)} {final : Runner}

/-- The runs of calls on a new runner. -/
abbrev Runs (config : Config) (calls : ι → Call) (history : List (Finished ι)) (final : Runner) : Prop :=
  Serial (fun i => runAll config (calls i)) {} history final

/-- The failing set tells the last outcome of every bank. -/
theorem failing_of_runs (notifier : config.notifier = true) (runs : Runs config calls history final)
    (worded : ∀ run ∈ history, Worded run.2.2) (bank : Bank) :
    decide (bank ∈ final.failing) = wasFailing bank history := by
  induction runs with
  | nil => simp [wasFailing, outcomes]
  | @snoc history s s' i a log _ reaches ih =>
    have before := ih (fun run member => worded run (List.mem_append_left _ member))
    have ends := ends_of_reaches (calls i) reaches
    rw [wasFailing_snoc, (alertsFor_of_ends notifier ends (worded (i, a, log) (by simp)) bank).2, before]

/-- The alerts about a bank are those for the transitions between its own outcomes. -/
theorem alerts_of_runs (notifier : config.notifier = true) (runs : Runs config calls history final)
    (worded : ∀ run ∈ history, Worded run.2.2) (bank : Bank) :
    alerts bank history = transitions false (outcomes bank history) := by
  induction runs with
  | nil => rfl
  | @snoc history s s' i a log earlier reaches ih =>
    have worded_before : ∀ run ∈ history, Worded run.2.2 := fun run member => worded run (List.mem_append_left _ member)
    have ends := ends_of_reaches (calls i) reaches
    have now := (alertsFor_of_ends notifier ends (worded (i, a, log) (by simp)) bank).1
    have before := failing_of_runs notifier earlier worded_before bank
    have whole : alerts bank (history ++ [(i, a, log)]) = alerts bank history ++ alertsFor bank log := by simp [alerts]
    rw [whole, ih worded_before, now, before, outcomes_snoc]
    cases here : outcomeIn bank log with
    | none => simp
    | some fails =>
      simp only [Option.map_some, Option.getD_some, Option.toList_some]
      rw [transitions_snoc, wasFailing]

theorem mem_due {was now : Bool} : (.failure ∈ due was now ↔ now = true ∧ was = false) ∧
    (.recovery ∈ due was now ↔ now = false ∧ was = true) ∧ (due was now).length ≤ 1 := by
  cases was <;> cases now <;> simp [due]

/-- Alerts follow the transitions of a bank, whatever the digest builder and the
    notifier raise in any run. -/
theorem alerts_follow_transitions (notifier : config.notifier = true) (runs : Runs config calls history final)
    (worded : ∀ run ∈ history, Worded run.2.2) (bank : Bank) :
    Alternates .failure (alerts bank history) ∧
    alerts bank history = transitions false (outcomes bank history) ∧
    ∀ before i log after, history = before ++ (i, (), log) :: after →
      (.failure ∈ alertsFor bank log ↔ outcomeIn bank log = some true ∧ wasFailing bank before = false) ∧
      (.recovery ∈ alertsFor bank log ↔ outcomeIn bank log = some false ∧ wasFailing bank before = true) ∧
      (alertsFor bank log).length ≤ 1 ∧
      ((outcomeIn bank log).isSome ↔ bank ∈ (calls i).banks) := by
  have whole := alerts_of_runs notifier runs worded bank
  refine ⟨?_, whole, ?_⟩
  · rw [whole]
    exact alternates_transitions false _
  · rintro before i log after rfl
    obtain ⟨s, s', earlier, reaches⟩ := runs.at_run
    have ends := ends_of_reaches (calls i) reaches
    have worded_before : ∀ run ∈ before, Worded run.2.2 := fun run member => worded run (List.mem_append_left _ member)
    have now := (alertsFor_of_ends notifier ends (worded (i, (), log) (by simp)) bank).1
    rw [failing_of_runs notifier earlier worded_before bank] at now
    have included : (outcomeIn bank log).isSome ↔ bank ∈ (calls i).banks := by
      rw [outcomeIn, Option.isSome_map, lastVisit_isSome, ends.visited]
    rw [now]
    cases here : outcomeIn bank log with
    | none => rw [here] at included; simpa using included
    | some fails =>
      rw [here] at included
      have alert := @mem_due (wasFailing bank before) fails
      exact ⟨by simpa using alert.1, by simpa using alert.2.1, alert.2.2, included⟩

instance (log : Log world) : Decidable (Worded log) :=
  decidable_of_iff (∀ v ∈ visits log, ∀ exc ∈ (match v.2 with | .failed exc => [exc] | _ => []), publicError exc ≠ "") (by
    constructor
    · intro all b exc member
      exact all (b, .failed exc) member exc (by simp)
    · rintro worded ⟨b, verdict⟩ member exc listed
      cases verdict with
      | failed exc' => obtain rfl : exc = exc' := by simpa using listed
                       exact worded b exc member
      | imported services methods changes => simp at listed)

/-- The runner after a bad day. -/
def afterBadDay : Unit × Runner × Log world := perform badDay (runAll { notifier := true } {}) {} []

def afterGoodDay : Unit × Runner × Log world := perform goodDay (runAll { notifier := true } {}) afterBadDay.2.1 []

theorem alerts_bad_then_good : ∃ history final, Runs { notifier := true } (fun _ : Unit => {}) history final ∧
    alerts .sber history = [.failure, .recovery] ∧ alerts .tbank history = [] := by
  have bad : Runs { notifier := true } (fun _ : Unit => {}) [((), (), afterBadDay.2.2)] afterBadDay.2.1 :=
    .snoc .nil (reaches_perform (w := world) badDay _ ({} : Runner) [])
  have good : Runs { notifier := true } (fun _ : Unit => {}) [((), (), afterBadDay.2.2), ((), (), afterGoodDay.2.2)]
      afterGoodDay.2.1 := .snoc bad (reaches_perform (w := world) goodDay _ afterBadDay.2.1 [])
  have worded : ∀ run ∈ [((), (), afterBadDay.2.2), ((), (), afterGoodDay.2.2)], Worded run.2.2 := by decide +kernel
  refine ⟨_, _, good, ?_, ?_⟩
  · rw [(alerts_follow_transitions rfl good worded .sber).2.1]
    decide +kernel
  · rw [(alerts_follow_transitions rfl good worded .tbank).2.1]
    decide +kernel

end ScanApi.RunAlerts
