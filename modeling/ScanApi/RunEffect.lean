import ScanApi.ParserRunner

/-!
What a parse run comes to, whatever the world answers: how each bank ends is read
off the answers to its own questions.
-/
namespace ScanApi.RunEffect
open ScanApi.Diff ScanApi.EventLog ScanApi.EventLoop ScanApi.EventLoop.Coro ScanApi.NotifyFormat ScanApi.SnapshotImport
open ScanApi.ParserRunner

/-! ### Reading a log -/

/-- How a bank did, from what its parser and its import answered. -/
inductive Verdict
  | failed (exc : Exn)
  | imported (services methods : Nat) (changes : List Change)

/-- The answer that ends the visit of a bank. -/
def visitOf : Exchange world → Option (Bank × Verdict)
  | ⟨.parse bank, .error exc⟩ => some (bank, .failed exc)
  | ⟨.parse bank, .ok none⟩ => some (bank, .failed noData)
  | ⟨.importSnapshot bank _ _ _, .error exc⟩ => some (bank, .failed exc)
  | ⟨.importSnapshot bank snapshot _ _, .ok changes⟩ =>
    some (bank, .imported (visibleCounts snapshot).1 (visibleCounts snapshot).2 changes)
  | _ => none

/-- The admin message that is attempted. -/
def adminText : Exchange world → Option Chars
  | ⟨.sendAdmin text, _⟩ => some text
  | _ => none

def visits (log : Log world) : List (Bank × Verdict) := log.filterMap visitOf

def adminTexts (log : Log world) : List Chars := log.filterMap adminText

/-- The verdict of the last visit of a bank. -/
def lastVisit (bank : Bank) (visits : List (Bank × Verdict)) : Option Verdict :=
  (visits.filter (fun v => v.1 = bank)).getLast?.map Prod.snd

/-- What a run makes of a visit. -/
def outcomeOf : Verdict → BankOutcome
  | .failed exc => { error := some (publicError exc), rejected := exc.kind = .snapshotRejected }
  | .imported _ _ changes => { changes }

def outcomesOf (visits : List (Bank × Verdict)) : Dict Bank BankOutcome :=
  visits.foldl (fun outcomes v => outcomes.set v.1 (outcomeOf v.2)) Dict.empty

/-- The status of a bank shows its last visit, and nothing else. -/
def Shows : Option Verdict → BankStatus → Prop
  | none, st => st = {}
  | some (.failed exc), st => st.status = .error ∧ st.error = some (publicError exc)
  | some (.imported services methods changes), st =>
    st.status = .done ∧ st.services = services ∧ st.methods = methods ∧ st.changes = changes.length

@[simp] theorem visits_snoc (log : Log world) (x : Exchange world) :
    visits (log ++ [x]) = visits log ++ (visitOf x).toList := by
  cases here : visitOf x <;> simp [visits, here]

@[simp] theorem adminTexts_snoc (log : Log world) (x : Exchange world) :
    adminTexts (log ++ [x]) = adminTexts log ++ (adminText x).toList := by
  cases here : adminText x <;> simp [adminTexts, here]

/-- From one log to a longer one, with the visits and the admin messages in between. -/
structure Between (log log' : Log world) (visited : List (Bank × Verdict)) (texts : List Chars) : Prop where
  visits : visits log' = visits log ++ visited
  texts : adminTexts log' = adminTexts log ++ texts

variable {log log₁ log₂ : Log world} {visited visited' : List (Bank × Verdict)} {texts texts' : List Chars}

theorem Between.refl (log : Log world) : Between log log [] [] := ⟨by simp, by simp⟩

theorem Between.snoc (between : Between log log₁ visited texts) (x : Exchange world) :
    Between log (log₁ ++ [x]) (visited ++ (visitOf x).toList) (texts ++ (adminText x).toList) where
  visits := by rw [visits_snoc, between.visits, List.append_assoc]
  texts := by rw [adminTexts_snoc, between.texts, List.append_assoc]

theorem Between.trans (first : Between log log₁ visited texts) (second : Between log₁ log₂ visited' texts') :
    Between log log₂ (visited ++ visited') (texts ++ texts') where
  visits := by rw [second.visits, first.visits, List.append_assoc]
  texts := by rw [second.texts, first.texts, List.append_assoc]

/-- An exchange that is neither a visit nor an admin message. -/
theorem Between.quiet (between : Between log log₁ visited texts) (x : Exchange world) (visit : visitOf x = none)
    (text : adminText x = none) : Between log (log₁ ++ [x]) visited texts := by
  simpa [visit, text] using between.snoc x

/-! ### One bank -/

variable {s : Runner}

theorem wp_asks {q : Query} {Q : Reply q → Runner → Log world → Prop} :
    wp (asks q) Q s log ↔ ∀ r, Q r s (log ++ [⟨q, r⟩]) := Iff.rfl

theorem wp_awaits {q : Query} {Q : Reply q → Runner → Log world → Prop} :
    wp (awaits q) Q s log ↔ ∀ r, Q r s (log ++ [⟨q, r⟩]) := Iff.rfl

theorem wp_record {level : Level} {category : Category} {message : String} {Q : Unit → Runner → Log world → Prop} :
    wp (record level category message) Q s log ↔ Q () s (log ++ [⟨.record ⟨level, category, message⟩, ()⟩]) :=
  ⟨fun all => all (), fun one _ => one⟩

theorem setBank_setBank (bank : Bank) (f g : BankStatus → BankStatus) (s : Runner) :
    setBank bank f (setBank bank g s) = setBank bank (f ∘ g) s := by
  simp [setBank]

/-- Whatever it raises, a bank changes its own status only. -/
theorem wp_runBank {config : Config} {bank : Bank} {Q : Except Exn (List Change) → Runner → Log world → Prop}
    (raises : ∀ exc f log', Between log log' [(bank, .failed exc)] [] → Q (.error exc) (setBank bank f s) log')
    (passes : ∀ services methods changes f log', Between log log' [(bank, .imported services methods changes)] [] →
      (∀ st, Shows (some (.imported services methods changes)) (f st)) → Q (.ok changes) (setBank bank f s) log') :
    wp (runBank config bank) Q s log := by
  rw [runBank, wp_bind, wp_asks]
  intro started
  rw [wp_bind, wp_modify, wp_bind, wp_awaits]
  intro parsed
  have asked := (Between.refl log).quiet ⟨.now, started⟩ rfl rfl
  rcases parsed with exc | _ | snapshot
  · exact raises exc _ _ (asked.snoc ⟨.parse bank, .error exc⟩)
  · exact raises noData _ _ (asked.snoc ⟨.parse bank, .ok none⟩)
  · rw [wp_bind, wp_awaits]
    have parsed := asked.quiet ⟨.parse bank, .ok (some snapshot)⟩ rfl rfl
    rintro (exc | changes)
    · exact raises exc _ _ (parsed.snoc ⟨.importSnapshot bank snapshot _ _, .error exc⟩)
    · rw [wp_bind, wp_asks]
      intro finished
      rw [wp_bind, wp_modify, wp_pure, setBank_setBank]
      have imported := parsed.snoc ⟨.importSnapshot bank snapshot config.minSnapshotRatio config.snapshotsKeep, .ok changes⟩
      exact passes _ _ changes _ _ (imported.quiet ⟨.now, finished⟩ rfl rfl) (fun _ => ⟨rfl, rfl, rfl, rfl⟩)

theorem wp_recordBankError {label : String} {rejected : Bool} {seconds : ℚ} {Q : Unit → Runner → Log world → Prop}
    (recorded : ∀ log', Between log log' [] [] → Q () s log') : wp (recordBankError label rejected seconds) Q s log := by
  unfold recordBankError
  split
  · exact wp_record.mpr (recorded _ ((Between.refl log).quiet _ rfl rfl))
  · exact wp_record.mpr (recorded _ ((Between.refl log).quiet _ rfl rfl))

/-- The visit of a bank decides its status and its outcome. -/
theorem wp_runBankSafe {config : Config} {bank : Bank} {Q : BankOutcome → Runner → Log world → Prop}
    (ends : ∀ verdict f log', Between log log' [(bank, verdict)] [] → (∀ st, Shows (some verdict) (f st)) →
      Q (outcomeOf verdict) (setBank bank f s) log') :
    wp (runBankSafe config bank) Q s log := by
  rw [runBankSafe, wp_bind, wp_asks]
  intro started
  rw [wp_bind, wp_record, wp_bind]
  have begun := ((Between.refl log).quiet ⟨.monotonic, started⟩ rfl rfl).quiet
    ⟨.record ⟨.info, .parser, bankLabel bank ++ ": начинаю сбор документации"⟩, ()⟩ rfl rfl
  refine wp_runBank ?_ ?_
  · intro exc f log' visited
    rw [wp_bind, wp_asks]
    intro finished
    rw [wp_bind, wp_modify, setBank_setBank, wp_bind, wp_asks]
    intro ended
    rw [wp_bind]
    refine wp_recordBankError ?_
    intro log'' recorded
    have quiet := ((begun.trans visited).quiet ⟨.now, finished⟩ rfl rfl).quiet ⟨.monotonic, ended⟩ rfl rfl
    exact ends (.failed exc) _ log'' (quiet.trans recorded) (fun _ => ⟨rfl, rfl⟩)
  · intro services methods changes f log' visited shows
    rw [wp_bind, wp_get, wp_bind, wp_asks]
    intro ended
    rw [wp_bind, wp_record]
    exact ends _ f _ (((begun.trans visited).quiet ⟨.monotonic, ended⟩ rfl rfl).quiet _ rfl rfl) shows

/-! ### All banks -/

theorem lastVisit_snoc (bank : Bank) (visited : List (Bank × Verdict)) (v : Bank × Verdict) :
    lastVisit bank (visited ++ [v]) = if v.1 = bank then some v.2 else lastVisit bank visited := by
  by_cases same : v.1 = bank <;> simp [lastVisit, same]

theorem lastVisit_isSome {b : Bank} {visited : List (Bank × Verdict)} :
    (lastVisit b visited).isSome ↔ b ∈ visited.map Prod.fst := by
  induction visited using List.reverseRecOn with
  | nil => simp [lastVisit]
  | append_singleton visited v ih =>
    rw [lastVisit_snoc]
    by_cases same : v.1 = b
    · simp [same]
    · have other : b ≠ v.1 := Ne.symm same
      simp [same, other, ih]

theorem outcomesOf_snoc (visited : List (Bank × Verdict)) (v : Bank × Verdict) :
    outcomesOf (visited ++ [v]) = (outcomesOf visited).set v.1 (outcomeOf v.2) := by
  simp [outcomesOf]

theorem get?_outcomesOf (bank : Bank) (visited : List (Bank × Verdict)) :
    (outcomesOf visited).get? bank = (lastVisit bank visited).map outcomeOf := by
  induction visited using List.reverseRecOn with
  | nil => rfl
  | append_singleton visited v ih =>
    rw [outcomesOf_snoc, lastVisit_snoc, Dict.get?_set, ih]
    by_cases same : v.1 = bank
    · simp [same]
    · have other : bank ≠ v.1 := Ne.symm same
      simp [same, other]

/-- The loop over the banks: what was visited, and what every bank shows. -/
theorem wp_runBanks {config : Config} {banks : List Bank} {Q : Dict Bank BankOutcome → Runner → Log world → Prop}
    (done : List (Bank × Verdict)) (before : ∀ b, Shows (lastVisit b done) (s.status.banks b))
    (ends : ∀ visited shown log', Between log log' visited [] → visited.map Prod.fst = banks →
      (∀ b, Shows (lastVisit b (done ++ visited)) (shown b)) →
      Q (outcomesOf (done ++ visited)) { s with status := { s.status with banks := shown } } log') :
    wp (runBanks config banks (outcomesOf done)) Q s log := by
  induction banks generalizing done s log with
  | nil =>
    have here := ends [] s.status.banks log (Between.refl log) rfl (by simpa using before)
    rw [List.append_nil] at here
    exact here
  | cons bank rest ih =>
    rw [runBanks, wp_bind]
    refine wp_runBankSafe ?_
    intro verdict f log' between shows
    rw [← outcomesOf_snoc done (bank, verdict)]
    refine ih _ ?_ ?_
    · intro b
      rw [lastVisit_snoc]
      by_cases same : bank = b
      · subst same; simpa [setBank] using shows _
      · have other : b ≠ bank := Ne.symm same
        simpa [setBank, same, other] using before b
    · intro visited shown log'' further requested all
      have whole := ends ((bank, verdict) :: visited) shown log'' (between.trans further) (by simp [requested])
        (by simpa using all)
      simpa [setBank] using whole

theorem wp_loadProxies {config : Config} {Q : Option ProxyRotator → Runner → Log world → Prop}
    (loaded : ∀ rotator log', Between log log' [] [] → Q rotator s log') : wp (loadProxies config) Q s log := by
  unfold loadProxies
  split
  · exact loaded none log (Between.refl log)
  · rw [wp_bind, wp_awaits]
    intro answer
    have asked := (Between.refl log).quiet ⟨.proxySource, answer⟩ rfl rfl
    rcases answer with exc | rotator
    · rw [wp_bind, wp_record]
      exact loaded none _ (asked.quiet _ rfl rfl)
    · simp only [wp_bind, wp_record]
      exact loaded rotator _ (asked.quiet _ rfl rfl)

theorem wp_recordSummary {outcomes : Dict Bank BankOutcome} {seconds : ℚ} {Q : Unit → Runner → Log world → Prop}
    (recorded : ∀ log', Between log log' [] [] → Q () s log') : wp (recordSummary outcomes seconds) Q s log := by
  simp only [recordSummary]
  split
  · rw [wp_record]; exact recorded _ ((Between.refl log).quiet _ rfl rfl)
  · rw [wp_record]; exact recorded _ ((Between.refl log).quiet _ rfl rfl)

/-! ### Notifications -/

/-- What the notifier raises is recorded, and the run goes on. -/
theorem wp_safely {send : Routine (Except Exn Unit)} {what : String} {Q : Unit → Runner → Log world → Prop}
    (sent : wp send (fun _ s log₁ => ∀ log₂, Between log₁ log₂ [] [] → Q () s log₂) s log) :
    wp (safely send what) Q s log := by
  rw [safely, wp_bind]
  refine wp_mono ?_ sent
  rintro (exc | _) s log₁ after
  · exact wp_record.mpr (after _ ((Between.refl log₁).quiet _ rfl rfl))
  · exact after log₁ (Between.refl log₁)

theorem wp_sendDigest {outcomes : Dict Bank BankOutcome} {digest : Option (List Chars)}
    {Q : Unit → Runner → Log world → Prop} (sent : ∀ log', Between log log' [] [] → Q () s log') :
    wp (sendDigest outcomes digest) Q s log := by
  rcases digest with _ | _ | ⟨text, rest⟩
  · exact sent log (Between.refl log)
  · simp only [sendDigest, recordNoDigest]
    split
    · rw [wp_record]; exact sent _ ((Between.refl log).quiet _ rfl rfl)
    · rw [wp_record]; exact sent _ ((Between.refl log).quiet _ rfl rfl)
  · refine wp_safely (wp_awaits.mpr ?_)
    intro answer log₁ recorded
    exact sent log₁ (((Between.refl log).quiet ⟨.broadcast (text :: rest), answer⟩ rfl rfl).trans recorded)

/-- Every alert is attempted, whatever the others raise. -/
theorem wp_sendAlerts {texts : List Chars} {Q : Unit → Runner → Log world → Prop}
    (sent : ∀ log', Between log log' [] texts → Q () s log') : wp (sendAlerts texts) Q s log := by
  induction texts generalizing log with
  | nil => exact sent log (Between.refl log)
  | cons text rest ih =>
    rw [sendAlerts, wp_bind]
    refine wp_safely (wp_awaits.mpr ?_)
    intro answer log₁ recorded
    refine ih ?_
    intro log₂ further
    have attempted := (Between.refl log).snoc ⟨.sendAdmin text, answer⟩
    exact sent log₂ ((attempted.trans recorded).trans further)

theorem wp_tryDigest {config : Config} {outcomes : Dict Bank BankOutcome}
    {Q : Option (List Chars) → Runner → Log world → Prop}
    (built : ∀ digest log', Between log log' [] [] → Q digest s log') :
    wp (tryDigest config outcomes) Q s log := by
  rw [tryDigest, wp_bind, wp_asks]
  intro moment
  rw [wp_bind, wp_asks]
  intro answer
  have asked := ((Between.refl log).quiet ⟨.moment, moment⟩ rfl rfl).quiet
    ⟨.buildDigest (digestChanges outcomes) moment config.dashboardUrl, answer⟩ rfl rfl
  rcases answer with exc | digest
  · rw [wp_bind, wp_record]
    exact built none _ (asked.quiet _ rfl rfl)
  · exact built (some digest) _ asked

/-- The alerts that a run owes for its outcomes. -/
def owedTexts (config : Config) (outcomes : Dict Bank BankOutcome) (failing : Finset Bank) : List Chars :=
  if config.notifier then
    alertTexts outcomes (newlyFailedBanks outcomes failing) (recoveredBanks outcomes failing)
  else []

theorem wp_notify {config : Config} {outcomes : Dict Bank BankOutcome} {Q : Unit → Runner → Log world → Prop}
    (ends : ∀ log', Between log log' [] (owedTexts config outcomes s.failing) →
      Q () { s with failing := nextFailing outcomes s.failing } log') : wp (notify config outcomes) Q s log := by
  rw [notify, wp_bind, wp_get, wp_bind, wp_modify]
  unfold owedTexts at ends
  cases notifier : config.notifier with
  | false =>
    simp only [notifier, Bool.false_eq_true, if_false] at ends
    exact wp_record.mpr (ends _ ((Between.refl log).quiet _ rfl rfl))
  | true =>
    simp only [notifier, if_true] at ends
    show wp (tryDigest config outcomes >>= _) Q _ log
    rw [wp_bind]
    refine wp_tryDigest ?_
    intro digest log₁ built
    rw [wp_bind]
    refine wp_sendDigest ?_
    intro log₂ sent
    refine wp_sendAlerts ?_
    intro log₃ alerts
    exact ends log₃ ((built.trans sent).trans alerts)

/-! ### A run -/

/-- What a run comes to: what it visited, what it shows and what it told the admin. -/
structure Ends (config : Config) (call : Call) (s s' : Runner) (log : Log world) : Prop where
  running : s'.status.running = false
  active : s'.active = none
  visited : (visits log).map Prod.fst = call.banks
  shown : ∀ b, Shows (lastVisit b (visits log)) (s'.status.banks b)
  failing : s'.failing = nextFailing (outcomesOf (visits log)) s.failing
  texts : adminTexts log = owedTexts config (outcomesOf (visits log)) s.failing

theorem wp_runAll (config : Config) (call : Call) (s : Runner) :
    wp (runAll config call) (fun _ s' log => Ends config call s s' log) s [] := by
  rw [runAll, wp_bind, wp_asks]
  intro started
  rw [wp_bind, wp_record, wp_bind, wp_asks]
  intro startedAt
  rw [wp_bind, wp_modify, wp_bind]
  refine wp_loadProxies ?_
  intro rotator log₁ loaded
  rw [wp_bind, wp_modify, wp_bind]
  refine wp_runBanks [] (fun _ => rfl) ?_
  intro visited shown log₂ between requested shows
  rw [wp_bind, wp_modify, wp_bind, wp_asks]
  intro finishedAt
  rw [wp_bind, wp_modify, wp_bind, wp_asks]
  intro ended
  rw [wp_bind]
  refine wp_recordSummary ?_
  intro log₃ recorded
  refine wp_notify ?_
  intro log₄ notified
  have begun := (((Between.refl []).quiet ⟨.monotonic, started⟩ rfl rfl).quiet
    ⟨.record ⟨.info, .parser, "Парсинг запущен " ++ triggers call.trigger ++ ": " ++ labels call.banks⟩, ()⟩ rfl rfl).quiet
    ⟨.now, startedAt⟩ rfl rfl
  have ran := (((begun.trans loaded).trans between).quiet ⟨.now, finishedAt⟩ rfl rfl).quiet ⟨.monotonic, ended⟩ rfl rfl
  have whole := (ran.trans recorded).trans notified
  have seen : visits log₄ = visited := by simpa [visits] using whole.visits
  have told : adminTexts log₄ = owedTexts config (outcomesOf visited) s.failing := by simpa [adminTexts] using whole.texts
  exact {
    running := rfl
    active := rfl
    visited := by rw [seen, requested]
    shown := by rw [seen]; exact shows
    failing := by rw [seen]; rfl
    texts := by rw [seen, told] }

/-- A whole run under the lock, whatever it is answered. -/
theorem ends_of_reaches {config : Config} (call : Call) {s s' : Runner} {log : Log world}
    (reaches : Reaches (runAll config call) s [] (.ret ()) s' log) : Ends config call s s' log :=
  reaches.wp (wp_runAll config call s)

end ScanApi.RunEffect
