import ScanApi.DigestFits
import ScanApi.PublicHistory
import ScanApi.RunAlerts
import ScanApi.RunSafety

/-!
What subscribers are told over all runs, and what the database keeps. Each run
asks for one digest and sends it when it has messages; over any calls, interleaved
at every `await`, the changes that the digests were built of are the public changes
that the imports stored, each once and in order (`digests_tell_history`). An import
that raises has stored nothing.
-/
namespace ScanApi.RunHistory
open ScanApi.Diff ScanApi.Database ScanApi.Repository ScanApi.EventLoop ScanApi.EventLoop.Coro ScanApi.ImportRuns
  ScanApi.ImportStep ScanApi.Interleaving ScanApi.NotifyFormat ScanApi.ParserRunner ScanApi.PublicHistory ScanApi.RunAlerts
  ScanApi.RunEffect ScanApi.SnapshotImport ScanApi.Unicode
open ScanApi.DigestFits (buildDigest_eq_nil)
open ScanApi.ImportEffect (run_ok)
open ScanApi.RunSafety (Calls)

/-! ### What a run asks -/

/-- A digest that was asked for, and messages to the subscribers. -/
inductive Telling
  | built (changes : Bank → List Change) (moment : MskTime) (dashboardUrl : Chars) (digest : Except Exn (List Chars))
  | sent (texts : List Chars)

def tellingOf : Exchange world → Option Telling
  | ⟨.buildDigest changes moment dashboardUrl, digest⟩ => some (.built changes moment dashboardUrl digest)
  | ⟨.broadcast texts, _⟩ => some (.sent texts)
  | _ => none

def told (log : Log world) : List Telling := log.filterMap tellingOf

/-- The questions of a run before it notifies. -/
def Collecting : Query → Prop
  | .buildDigest _ _ _ => False
  | .broadcast _ => False
  | _ => True

/-- The questions that neither ask a bank nor tell the subscribers. -/
def Aside : Query → Prop
  | .parse _ => False
  | .importSnapshot _ _ _ _ => False
  | .buildDigest _ _ _ => False
  | .broadcast _ => False
  | _ => True

theorem told_of_collecting {more : Log world} (asked : ∀ x ∈ more, Collecting x.1) : told more = [] := by
  refine List.filterMap_eq_nil_iff.mpr ?_
  rintro ⟨q, r⟩ member
  have collecting := asked _ member
  cases q <;> first | rfl | exact collecting.elim

theorem visits_of_aside {more : Log world} (asked : ∀ x ∈ more, Aside x.1) : visits more = [] := by
  refine List.filterMap_eq_nil_iff.mpr ?_
  rintro ⟨q, r⟩ member
  have aside := asked _ member
  cases q <;> first | rfl | exact aside.elim

theorem collecting_of_aside {q : Query} (aside : Aside q) : Collecting q := by
  cases q <;> first | exact trivial | exact aside.elim

theorem told_of_aside {more : Log world} (asked : ∀ x ∈ more, Aside x.1) : told more = [] :=
  told_of_collecting (fun x member => collecting_of_aside (asked x member))

/-! ### One run -/

section
variable {allowed : Query → Prop}

theorem only_asks {q : Query} (may : allowed q) : Only allowed (asks q) := ⟨may, fun _ => trivial⟩

theorem only_awaits {q : Query} (may : allowed q) : Only allowed (awaits q) := ⟨may, fun _ => trivial⟩

end

theorem only_runBank (config : Config) (bank : Bank) : Only Collecting (runBank config bank) := by
  refine only_bind (only_asks trivial) (fun started => only_bind (only_modify _) (fun _ => ?_))
  refine only_bind (only_awaits trivial) ?_
  rintro (exc | _ | snapshot)
  · exact trivial
  · exact trivial
  · refine only_bind (only_awaits trivial) ?_
    rintro (exc | changes)
    · exact trivial
    · exact only_bind (only_asks trivial) (fun _ => only_bind (only_modify _) (fun _ => trivial))

theorem only_recordBankError (label : String) (rejected : Bool) (seconds : ℚ) :
    Only Collecting (recordBankError label rejected seconds) := by
  unfold recordBankError
  split <;> exact only_awaits trivial

theorem only_runBankSafe (config : Config) (bank : Bank) : Only Collecting (runBankSafe config bank) := by
  refine only_bind (only_asks trivial) (fun started => only_bind (only_awaits trivial) (fun _ => ?_))
  refine only_bind (only_runBank config bank) ?_
  rintro (exc | changes)
  · refine only_bind (only_asks trivial) (fun _ => only_bind (only_modify _) (fun _ => ?_))
    refine only_bind (only_asks trivial) (fun _ => ?_)
    exact only_bind (only_recordBankError _ _ _) (fun _ => trivial)
  · refine only_bind only_get (fun _ => only_bind (only_asks trivial) (fun _ => ?_))
    exact only_bind (only_awaits trivial) (fun _ => trivial)

theorem only_runBanks (config : Config) (banks : List Bank) (outcomes : Dict Bank BankOutcome) :
    Only Collecting (runBanks config banks outcomes) := by
  induction banks generalizing outcomes with
  | nil => exact trivial
  | cons bank rest ih => exact only_bind (only_runBankSafe config bank) (fun outcome => ih _)

theorem only_loadProxies (config : Config) : Only Aside (loadProxies config) := by
  unfold loadProxies
  split
  · exact trivial
  · refine only_bind (only_awaits trivial) ?_
    rintro (exc | rotator) <;> exact only_bind (only_awaits trivial) (fun _ => trivial)

theorem only_recordSummary (outcomes : Dict Bank BankOutcome) (seconds : ℚ) :
    Only Aside (recordSummary outcomes seconds) := by
  simp only [recordSummary]
  split <;> exact only_awaits trivial

theorem only_recordNoDigest (outcomes : Dict Bank BankOutcome) : Only Aside (recordNoDigest outcomes) := by
  unfold recordNoDigest
  split <;> exact only_awaits trivial

theorem only_sendAlerts (texts : List Chars) : Only Aside (sendAlerts texts) := by
  induction texts with
  | nil => exact trivial
  | cons text rest ih =>
    refine only_bind (only_bind (only_awaits trivial) ?_) (fun _ => ih)
    rintro (exc | _)
    · exact only_awaits trivial
    · exact trivial

/-- What follows the answer of the digest builder. -/
def sends : Except Exn (List Chars) → List Telling
  | .error _ => []
  | .ok [] => []
  | .ok (text :: rest) => [.sent (text :: rest)]

variable {config : Config} {s : Runner} {log : Log world} {outcomes : Dict Bank BankOutcome}

/-- A part of a run that is neither of a bank nor told to the subscribers. -/
theorem wp_aside {α : Type} {c : Routine α} (only : Only Aside c) :
    wp c (fun _ _ log' => visits log' = visits log ∧ told log' = told log) s log := by
  refine wp_mono ?_ (wp_only only s log)
  rintro a s' log' ⟨more, rfl, asked⟩
  have visited := visits_of_aside asked
  have tellings := told_of_aside asked
  simp only [visits, told, List.filterMap_append] at visited tellings ⊢
  simp [visited, tellings]

/-- The digest of outcomes is asked for once, and sent when it has messages. -/
def Tells (config : Config) (outcomes : Dict Bank BankOutcome) (tellings : List Telling) : Prop :=
  ∃ moment digest,
    tellings = .built (digestChanges outcomes) moment config.dashboardUrl digest :: sends digest

theorem wp_sendDigest_tells (digest : Option (List Chars)) :
    wp (sendDigest outcomes digest)
      (fun _ _ log' => visits log' = visits log ∧ told log' = told log ++ (digest.map (fun d => sends (.ok d))).getD [])
      s log := by
  rcases digest with _ | _ | ⟨text, rest⟩
  · exact ⟨rfl, (List.append_nil _).symm⟩
  · refine wp_mono ?_ (wp_aside (only_recordNoDigest outcomes))
    rintro a s' log' ⟨visited, tellings⟩
    exact ⟨visited, by simp [tellings, sends]⟩
  · show wp (awaits (.broadcast (text :: rest)) >>= _) _ s log
    rw [wp_bind, wp_awaits]
    rintro (exc | _)
    · exact wp_record.mpr ⟨by simp [visits, visitOf], by simp [told, tellingOf, sends]⟩
    · exact ⟨by simp [visits, visitOf], by simp [told, tellingOf, sends]⟩

theorem wp_notify_tells (notifier : config.notifier = true) (silent : told log = []) :
    wp (notify config outcomes) (fun _ _ log' => visits log' = visits log ∧ Tells config outcomes (told log')) s log := by
  rw [notify, wp_bind, wp_get, wp_bind, wp_modify, notifier]
  show wp (tryDigest config outcomes >>= _) _ _ log
  rw [wp_bind, tryDigest, wp_bind, wp_asks]
  intro moment
  rw [wp_bind, wp_asks]
  intro answer
  set asked : Log world := log ++ [⟨.moment, moment⟩] ++
    [⟨.buildDigest (digestChanges outcomes) moment config.dashboardUrl, answer⟩] with askedIs
  have visited : visits asked = visits log := by simp [askedIs, visits, visitOf]
  have begun : told asked = [.built (digestChanges outcomes) moment config.dashboardUrl answer] := by
    rw [askedIs, List.append_assoc, told, List.filterMap_append, ← told, silent]
    rfl
  have alerts : ∀ (s' : Runner) (log' : Log world) (texts : List Chars), visits log' = visits log →
      told log' = .built (digestChanges outcomes) moment config.dashboardUrl answer :: sends answer →
      wp (sendAlerts texts) (fun _ _ log'' => visits log'' = visits log ∧ Tells config outcomes (told log'')) s' log' := by
    intro s' log' texts seen tellings
    refine wp_mono ?_ (wp_aside (only_sendAlerts texts))
    rintro a s'' log'' ⟨seen', tellings'⟩
    exact ⟨seen'.trans seen, moment, answer, tellings'.trans tellings⟩
  cases answer with
  | error exc =>
    rw [wp_bind, wp_record]
    refine alerts _ _ _ ?_ ?_
    · rw [visits_snoc, visited]
      exact List.append_nil _
    · rw [told, List.filterMap_append, ← told, begun]
      rfl
  | ok digest =>
    rw [wp_pure, wp_bind]
    refine wp_mono ?_ (wp_sendDigest_tells (some digest))
    rintro a s' log' ⟨seen, tellings⟩
    exact alerts s' log' _ (seen.trans visited) (by simp [tellings, begun])

theorem wp_loadProxies_tells :
    wp (loadProxies config) (fun _ s' log' => s' = s ∧ visits log' = visits log ∧ told log' = told log) s log :=
  wp_and (wp_loadProxies (fun _ _ _ => rfl)) (wp_aside (only_loadProxies config))

/-- The banks of a run: their outcomes are those of the visits, and nothing is told. -/
theorem wp_runBanks_tells (banks : List Bank) (fresh : s.status.banks = fun _ => {}) (unvisited : visits log = [])
    (silent : told log = []) :
    wp (runBanks config banks Dict.empty) (fun outcomes _ log' => outcomes = outcomesOf (visits log') ∧ told log' = [])
      s log := by
  have visited : wp (runBanks config banks Dict.empty) (fun outcomes _ log' => outcomes = outcomesOf (visits log')) s log := by
    refine wp_runBanks [] (fun b => congrFun fresh b) ?_
    intro visited shown log' between requested shows
    rw [between.visits, unvisited]
  have asked := wp_only (only_runBanks config banks Dict.empty) s log
  refine wp_mono ?_ (wp_and visited asked)
  rintro outcomes s' log' ⟨outcomesAre, more, rfl, collected⟩
  refine ⟨outcomesAre, ?_⟩
  rw [told, List.filterMap_append, ← told, ← told, silent, told_of_collecting collected]
  rfl

/-- The visits of a run decide what it tells. -/
theorem wp_runAll_tells (notifier : config.notifier = true) (call : Call) (s : Runner) :
    wp (runAll config call) (fun _ _ log => Tells config (outcomesOf (visits log)) (told log)) s [] := by
  rw [runAll, wp_bind, wp_asks]
  intro started
  rw [wp_bind, wp_record, wp_bind, wp_asks]
  intro startedAt
  rw [wp_bind, wp_modify, wp_bind]
  refine wp_mono ?_ wp_loadProxies_tells
  rintro rotator _ log₁ ⟨rfl, visited₁, silent₁⟩
  rw [wp_bind, wp_modify, wp_bind]
  refine wp_mono ?_ (wp_runBanks_tells call.banks rfl visited₁ silent₁)
  rintro _ s₂ log₂ ⟨rfl, silent₂⟩
  rw [wp_bind, wp_modify, wp_bind, wp_asks]
  intro finishedAt
  rw [wp_bind, wp_modify, wp_bind, wp_asks]
  intro ended
  rw [wp_bind]
  refine wp_mono ?_ (wp_aside (only_recordSummary _ _))
  rintro _ s₃ log₃ ⟨visited₃, silent₃⟩
  have visited : visits log₃ = visits log₂ := visited₃.trans (by simp [visits, visitOf])
  have silent : told log₃ = [] := by
    rw [silent₃, List.append_assoc, told, List.filterMap_append, ← told, silent₂]
    rfl
  refine wp_mono ?_ (wp_notify_tells notifier silent)
  rintro _ s₄ log₄ ⟨visited₄, tells⟩
  rwa [visited₄, visited]

theorem tells_of_reaches (notifier : config.notifier = true) {call : Call} {s' : Runner}
    (reaches : Reaches (runAll config call) s [] (.ret ()) s' log) : Tells config (outcomesOf (visits log)) (told log) :=
  reaches.wp (wp_runAll_tells notifier call s)

/-! ### The database behind the runs -/

/-- `BANK_KEYS`, as the database has them. -/
def bankKey : Bank → String
  | .tbank => "tbank"
  | .tochka => "tochka"
  | .alfabank => "alfabank"
  | .sber => "sber"

def isImport : Query → Bool
  | .importSnapshot _ _ _ _ => true
  | _ => false

/-- What the database makes of an exchange: an import runs on a connection, or finds none. -/
inductive Stores : World → Exchange world → World → Prop
  | stored {w : World} {bank : Bank} (c : ImportCall) {changes : List Change} :
      c.bank = bankKey bank → (c.run w.db).1 = .ok changes →
      Stores w ⟨.importSnapshot bank c.snapshot c.minRatio c.keep, .ok changes⟩ (w.step c)
  | refused {w : World} {bank : Bank} (c : ImportCall) {failure : Failure} {exc : Exn} :
      c.bank = bankKey bank → (c.run w.db).1 = .error failure →
      Stores w ⟨.importSnapshot bank c.snapshot c.minRatio c.keep, .error exc⟩ (w.step c)
  | unconnected {w : World} {bank : Bank} {snapshot : ParseSnapshot} {minRatio : ℚ} {keep : Int} {exc : Exn} :
      Stores w ⟨.importSnapshot bank snapshot minRatio keep, .error exc⟩ w
  | other {w : World} {x : Exchange world} : isImport x.1 = false → Stores w x w

/-- The changes of a bank, in the order of import. -/
def bankChanges (db : Db) (bank : Bank) : List Change :=
  (db.changes.filter (fun r => r.bank = bankKey bank)).map ChangeRow.change

def publicChanges (db : Db) (bank : Bank) : List Change := (bankChanges db bank).filter (fun c => !c.hidden)

/-- The changes that an import of the bank returned. -/
def importedOf (bank : Bank) : Exchange world → List Change
  | ⟨.importSnapshot of _ _ _, .ok changes⟩ => if of = bank then changes else []
  | _ => []

theorem bankKey_inj {a b : Bank} : bankKey a = bankKey b ↔ a = b := by
  cases a <;> cases b <;> decide

/-- Pruning leaves the text of a change. -/
theorem filter_forgotten (bank : String) (rows : List ChangeRow) :
    ((rows.map forgotten).filter (fun r => r.bank = bank)).map ChangeRow.change =
      (rows.filter (fun r => r.bank = bank)).map ChangeRow.change := by
  have kept : (rows.map forgotten).filter (fun r => r.bank = bank) =
      (rows.filter (fun r => r.bank = bank)).map forgotten := by rw [List.filter_map]; rfl
  rw [kept, List.map_map]
  rfl

/-- An accepted import adds its changes to those of its bank. -/
theorem bankChanges_imported {c : ImportCall} {db db' : Db} (imported : Imported c db db') (bank : Bank) :
    bankChanges db' bank = bankChanges db bank ++ if c.bank = bankKey bank then c.changes db else [] := by
  have own : ((addedChanges c db).filter (fun r => r.bank = bankKey bank)).map ChangeRow.change =
      if c.bank = bankKey bank then c.changes db else [] := by
    have banks : ∀ r ∈ addedChanges c db, r.bank = c.bank := fun r member => (mem_changeRows_bank member).1
    split
    · rename_i same
      rw [List.filter_eq_self.mpr (fun r member => decide_eq_true ((banks r member).trans same))]
      exact changeRows_change _ _ _ _ _
    · rename_i other
      rw [List.filter_eq_nil_iff.mpr (fun r member => by simpa [banks r member] using other)]
      rfl
  calc bankChanges db' bank
      = ((db'.changes.map forgotten).filter (fun r => r.bank = bankKey bank)).map ChangeRow.change :=
        (filter_forgotten _ _).symm
    _ = ((db.changes ++ addedChanges c db).filter (fun r => r.bank = bankKey bank)).map ChangeRow.change := by
        rw [imported.history, filter_forgotten]
    _ = bankChanges db bank ++ if c.bank = bankKey bank then c.changes db else [] := by
        rw [List.filter_append, List.map_append, own]
        rfl

/-- An exchange adds to the public changes of a bank what an import of it returned. -/
theorem stores_publicChanges (bank : Bank) {w w' : World} {x : Exchange world} (invariant : Invariant w)
    (stores : Stores w x w') :
    Invariant w' ∧ publicChanges w'.db bank = publicChanges w.db bank ++ importedOf bank x := by
  cases stores with
  | @stored of c changes isBank answered =>
    refine ⟨step_invariant invariant c, ?_⟩
    rcases step_cases w c invariant.consistent with ⟨_, ⟨visible, ran⟩, imported, _⟩ | ⟨⟨failure, raised⟩, _⟩
    · obtain ⟨-, visibleAre, -⟩ := run_ok (show c.run w.db = (.ok visible, (c.run w.db).2) by rw [← ran])
      obtain rfl : visible = changes := Except.ok.inj (ran.symm.trans answered)
      have own : (c.bank = bankKey bank) ↔ of = bank := by rw [isBank, bankKey_inj]
      rw [publicChanges, bankChanges_imported imported, List.filter_append, if_congr own rfl rfl, importedOf, visibleAre]
      by_cases same : of = bank <;> simp [same, publicChanges]
    · rw [raised] at answered; cases answered
  | @refused of c failure exc isBank answered =>
    refine ⟨step_invariant invariant c, ?_⟩
    rcases step_cases w c invariant.consistent with ⟨_, ⟨visible, ran⟩, _⟩ | ⟨_, tables, _⟩
    · rw [ran] at answered; cases answered
    · rw [publicChanges, bankChanges, tables]
      exact (List.append_nil _).symm
  | unconnected => exact ⟨invariant, (List.append_nil _).symm⟩
  | other elsewhere =>
    refine ⟨invariant, ?_⟩
    obtain ⟨q, r⟩ := x
    cases q <;> first | exact (List.append_nil _).symm | cases elsewhere

/-- What the imports of a log add to the public changes of a bank. -/
theorem along_publicChanges (bank : Bank) {w w' : World} (invariant : Invariant w) (along : Along Stores w log w') :
    Invariant w' ∧ publicChanges w'.db bank = publicChanges w.db bank ++ log.flatMap (importedOf bank) :=
  along.added (fun _ _ _ before stores => stores_publicChanges bank before stores) invariant

/-! ### One run against the database -/

/-- The changes that a verdict brings. -/
def Verdict.changes : Verdict → List Change
  | .failed _ => []
  | .imported _ _ changes => changes

def visitChanges (bank : Bank) (v : Bank × Verdict) : List Change := if v.1 = bank then Verdict.changes v.2 else []

theorem importedOf_visitOf (bank : Bank) (x : Exchange world) :
    importedOf bank x = (visitOf x).toList.flatMap (visitChanges bank) := by
  obtain ⟨q, r⟩ := x
  cases q with
  | parse of => rcases r with exc | _ | snapshot <;> simp [importedOf, visitOf, visitChanges, Verdict.changes]
  | importSnapshot of snapshot minRatio keep =>
    rcases r with exc | changes <;> simp [importedOf, visitOf, visitChanges, Verdict.changes]
  | _ => rfl

theorem flatMap_importedOf (bank : Bank) (log : Log world) :
    log.flatMap (importedOf bank) = (visits log).flatMap (visitChanges bank) := by
  induction log with
  | nil => rfl
  | cons x log ih =>
    rw [List.flatMap_cons, ih, importedOf_visitOf]
    cases visit : visitOf x <;> simp [visits, visit]

/-- What the digest takes of an outcome. -/
theorem changes_outcomeOf (verdict : Verdict) :
    (if (outcomeOf verdict).failed then [] else (outcomeOf verdict).changes) = Verdict.changes verdict := by
  cases verdict with
  | failed exc => exact ite_self []
  | imported services methods changes => simp [outcomeOf, Verdict.changes, BankOutcome.failed]

theorem digestChanges_outcomesOf (visited : List (Bank × Verdict)) (bank : Bank) :
    digestChanges (outcomesOf visited) bank = ((lastVisit bank visited).map Verdict.changes).getD [] := by
  rw [digestChanges, get?_outcomesOf]
  cases lastVisit bank visited with
  | none => rfl
  | some verdict => exact changes_outcomeOf verdict

/-- With every bank visited once, the digest has what all visits of a bank brought. -/
theorem digestChanges_visits {visited : List (Bank × Verdict)} (once : (visited.map Prod.fst).Nodup) (bank : Bank) :
    digestChanges (outcomesOf visited) bank = visited.flatMap (visitChanges bank) := by
  rw [digestChanges_outcomesOf]
  induction visited using List.reverseRecOn with
  | nil => rfl
  | append_singleton visited v ih =>
    rw [List.map_append, List.nodup_append] at once
    obtain ⟨distinct, -, apart⟩ := once
    rw [lastVisit_snoc, List.flatMap_append, ← ih distinct]
    by_cases same : v.1 = bank
    · have unvisited : lastVisit bank visited = none := by
        rw [← Option.not_isSome_iff_eq_none, lastVisit_isSome]
        exact fun member => apart bank member v.1 (by simp) same.symm
      simp [same, unvisited, visitChanges]
    · simp [same, visitChanges]

/-! ### All runs -/

/-- The digest builder of a log is `build_digest`. -/
def Formats (unicode : CharTables) (log : Log world) : Prop :=
  ∀ changes moment dashboardUrl digest, ⟨.buildDigest changes moment dashboardUrl, digest⟩ ∈ log →
    digest = .ok (buildDigest unicode changes moment dashboardUrl)

/-- The changes of a bank that the digest of a run is built of. -/
def reported (bank : Bank) (log : Log world) : List Change :=
  (told log).flatMap (fun
    | .built changes _ _ _ => changes bank
    | .sent _ => [])

theorem asked_of_told {changes : Bank → List Change} {moment : MskTime} {dashboardUrl : Chars}
    {digest : Except Exn (List Chars)} (telling : .built changes moment dashboardUrl digest ∈ told log) :
    ⟨.buildDigest changes moment dashboardUrl, digest⟩ ∈ log := by
  obtain ⟨⟨q, r⟩, member, same⟩ := List.mem_filterMap.mp telling
  cases q with
  | buildDigest changes' moment' dashboardUrl' =>
    cases same
    exact member
  | _ => cases same

theorem sends_eq_nil {digest : Except Exn (List Chars)} : sends digest = [] ↔ ∀ texts, digest = .ok texts → texts = [] := by
  rcases digest with exc | _ | ⟨text, rest⟩ <;> simp [sends]

/-- One run against the database that is behind it. -/
structure Told (unicode : CharTables) (config : Config) (w w' : World) (log : Log world) (changes : Bank → List Change) :
    Prop where
  grown : ∀ bank, publicChanges w'.db bank = publicChanges w.db bank ++ changes bank
  once : ∃ moment digest, told log = .built changes moment config.dashboardUrl digest :: sends digest ∧
    (Formats unicode log → digest = .ok (buildDigest unicode changes moment config.dashboardUrl) ∧
      (sends digest = [] ↔ ∀ bank, changes bank = []))

theorem reported_of_told {changes : Bank → List Change} {moment : MskTime} {dashboardUrl : Chars}
    {digest : Except Exn (List Chars)} (tellings : told log = .built changes moment dashboardUrl digest :: sends digest)
    (bank : Bank) : reported bank log = changes bank := by
  rw [reported, tellings]
  rcases digest with exc | _ | ⟨text, rest⟩ <;> simp [sends]

/-- A run reports what its imports returned. -/
theorem imported_reported (notifier : config.notifier = true) {call : Call} (once : call.banks.Nodup) {s' : Runner}
    (reaches : Reaches (runAll config call) s [] (.ret ()) s' log) (bank : Bank) :
    log.flatMap (importedOf bank) = reported bank log := by
  obtain ⟨moment, digest, tellings⟩ := tells_of_reaches notifier reaches
  have visited := (ends_of_reaches call reaches).visited
  rw [flatMap_importedOf, ← digestChanges_visits (by rw [visited]; exact once), reported_of_told tellings]

theorem told_of_run (unicode : CharTables) (notifier : config.notifier = true) {call : Call} (once : call.banks.Nodup)
    {s' : Runner} (reaches : Reaches (runAll config call) s [] (.ret ()) s' log) {w w' : World} (invariant : Invariant w)
    (along : Along Stores w log w') : Told unicode config w w' log (fun bank => reported bank log) := by
  obtain ⟨moment, digest, tellings⟩ := tells_of_reaches notifier reaches
  have changes : (fun bank => reported bank log) = digestChanges (outcomesOf (visits log)) :=
    funext (reported_of_told tellings)
  refine ⟨fun bank => ?_, moment, digest, by rw [changes, tellings], fun formats => ?_⟩
  · rw [(along_publicChanges bank invariant along).2, imported_reported notifier once reaches]
  · have built := formats _ _ _ _ (asked_of_told (by rw [tellings]; exact List.mem_cons_self))
    have empty : buildDigest unicode (fun bank => reported bank log) moment config.dashboardUrl = [] ↔
        ∀ bank, reported bank log = [] := buildDigest_eq_nil
    rw [changes] at empty ⊢
    refine ⟨built, ?_⟩
    rw [sends_eq_nil, built, ← empty]
    simp

variable {ι : Type} {calls : ι → Call} {history : List (Finished ι)} {final : Runner} {current : Log world}
  {earlier : List ImportCall} {w : World}

/-- Over runs one after another, and what a run after them has asked so far. -/
theorem grown_of_runs (notifier : config.notifier = true) (once : ∀ i, (calls i).banks.Nodup)
    (runs : Runs config calls history final) (along : Along Stores (execute earlier) (logs history ++ current) w)
    (bank : Bank) :
    publicChanges w.db bank = publicChanges (execute earlier).db bank ++
      history.flatMap (fun run => reported bank run.2.2) ++ current.flatMap (importedOf bank) := by
  have each : ∀ run ∈ history, run.2.2.flatMap (importedOf bank) = reported bank run.2.2 := by
    rintro ⟨i, _, log⟩ member
    obtain ⟨before, after, rfl⟩ := List.append_of_mem member
    obtain ⟨s, s', -, reaches⟩ := runs.at_run
    exact imported_reported notifier (once i) reaches bank
  rw [(along_publicChanges bank (execute_invariant earlier) along).2, List.flatMap_append, logs, List.flatMap_assoc,
    List.flatMap_congr each, List.append_assoc]

/-- One of the runs, between the databases that it found and left. -/
theorem told_in_runs (unicode : CharTables) (notifier : config.notifier = true) (once : ∀ i, (calls i).banks.Nodup)
    {before after : List (Finished ι)} {i : ι} (runs : Runs config calls (before ++ (i, (), log) :: after) final)
    (along : Along Stores (execute earlier) (logs (before ++ (i, (), log) :: after) ++ current) w) :
    ∃ w₁ w₂, Along Stores (execute earlier) (logs before) w₁ ∧ Along Stores w₁ log w₂ ∧
      Along Stores w₂ (logs after ++ current) w ∧ Told unicode config w₁ w₂ log (fun bank => reported bank log) := by
  obtain ⟨s, s', -, reaches⟩ := runs.at_run
  have split : logs (before ++ (i, (), log) :: after) ++ current = logs before ++ (log ++ (logs after ++ current)) := by
    simp [logs]
  rw [split] at along
  obtain ⟨w₁, first, rest⟩ := along_append.mp along
  obtain ⟨w₂, here, last⟩ := along_append.mp rest
  have reached := (along_publicChanges .sber (execute_invariant earlier) first).1
  exact ⟨w₁, w₂, first, here, last, told_of_run unicode notifier (once i) reaches reached here⟩

/-- A call that is skipped leaves the database. -/
theorem skipped_aloof (i : ι) (r : Reply (skipped (calls i))) (w w' : World) (stores : Stores w ⟨skipped (calls i), r⟩ w') :
    w' = w := by
  generalize asked : (⟨skipped (calls i), r⟩ : Exchange world) = x at stores
  cases stores with
  | other _ => rfl
  | unconnected => rfl
  | stored c _ _ => cases asked
  | refused c _ _ => cases asked

variable [DecidableEq ι]

/-- Calls of `run_all` on one runner, and the database behind them. -/
abbrev StoredCalls (config : Config) (calls : ι → Call) : Turn (Locked Runner × World) ι (Phase Runner world Unit) Move :=
  Behind Stores (Calls config calls)

/-- Calls of the parser, interleaved at every `await`, that visit every bank at most once:
    the digests of the runs that have ended are built of the public changes that their imports
    stored, in order; each of these runs asks for one digest and sends it when it has messages,
    which is when the history of a bank has grown. What else is stored, the run going on has stored. -/
theorem digests_tell_history (unicode : CharTables) (notifier : config.notifier = true)
    (once : ∀ i, (calls i).banks.Nodup) {turns : List (ι × Move)}
    {joint : Joint (Locked Runner × World) ι (Phase Runner world Unit)}
    (run : Run (StoredCalls config calls) ⟨(⟨false, {}⟩, execute earlier), fun _ => .calling⟩ turns joint) :
    ∃ history current,
      (∀ i log, joint.place i = .finished () log ↔ (i, (), log) ∈ history) ∧ (history.map Prod.fst).Nodup ∧
      Current (front joint) current ∧
      (∀ bank, publicChanges joint.shared.2.db bank = publicChanges (execute earlier).db bank ++
        history.flatMap (fun run => reported bank run.2.2) ++ current.flatMap (importedOf bank)) ∧
      ∀ before i log after, history = before ++ (i, (), log) :: after → ∃ w₁ w₂,
        Along Stores (execute earlier) (logs before) w₁ ∧ Along Stores w₁ log w₂ ∧
        Along Stores w₂ (logs after ++ current) joint.shared.2 ∧
        Told unicode config w₁ w₂ log (fun bank => reported bank log) := by
  obtain ⟨history, mid, current, exclusive, now, along⟩ := world_of_run skipped_aloof run
  refine ⟨history, current, fun i log => exclusive.finished i () log, exclusive.once, now, ?_, ?_⟩
  · exact grown_of_runs notifier once exclusive.serial along
  · rintro before i log after rfl
    exact told_in_runs unicode notifier once exclusive.serial along

/-! ### Three calls -/

/-- Follows a log with a database whose connections hold. -/
def follow : World → Log world → Option World
  | w, [] => some w
  | w, ⟨.importSnapshot bank snapshot minRatio keep, reply⟩ :: log =>
    let c : ImportCall := { bank := bankKey bank, snapshot, minRatio, keep }
    match (c.run w.db).1, reply with
    | .ok visible, .ok changes => if visible = changes then follow (w.step c) log else none
    | .error _, .error _ => follow (w.step c) log
    | _, _ => none
  | w, ⟨_, _⟩ :: log => follow w log

theorem along_follow {log : Log world} {w w' : World} (followed : follow w log = some w') : Along Stores w log w' := by
  induction log generalizing w with
  | nil =>
    obtain rfl := Option.some.inj followed
    exact .nil
  | cons x log ih =>
    obtain ⟨q, reply⟩ := x
    cases q with
    | importSnapshot bank snapshot minRatio keep =>
      simp only [follow] at followed
      split at followed
      · rename_i visible changes ran
        split at followed
        · rename_i same
          subst same
          exact .cons (.stored { bank := bankKey bank, snapshot, minRatio, keep } rfl ran) (ih followed)
        · cases followed
      · rename_i failure exc ran
        exact .cons (.refused { bank := bankKey bank, snapshot, minRatio, keep } rfl ran) (ih followed)
      · cases followed
    | _ => exact .cons (.other rfl) (ih followed)

/-- A day on which a database answers the imports, and `build_digest` builds the digest. -/
def dayOn (w : World) (day : ∀ q : Query, Reply q) : ∀ q : Query, Reply q
  | .importSnapshot bank snapshot minRatio keep =>
    match (ImportCall.run { bank := bankKey bank, snapshot, minRatio, keep } w.db).1 with
    | .ok changes => .ok changes
    | .error _ => .error { kind := .snapshotRejected, typeName := "SnapshotRejected", text := "rejected" }
  | .buildDigest changes moment dashboardUrl => .ok (buildDigest latin1 changes moment dashboardUrl)
  | q => day q

def twoBanks : Call := { banks := [.sber, .alfabank] }

/-- A bad day for the first call, and good ones for all others. -/
def dayTurn (i : Fin 3) (move : Move) (before : (Locked Runner × World) × Phase Runner world Unit) :
    Option ((Locked Runner × World) × Phase Runner world Unit) :=
  let ((shared, w), place) := before
  let answer := dayOn w (if i = 0 then badDay else goodDay)
  (turnOf (fun _ => runAll { notifier := true } twoBanks) (fun _ => skipped twoBanks) answer i move (shared, place)).bind
    (fun after => (follow w (after.2.asked.drop place.asked.length)).map (fun w' => ((after.1, w'), after.2)))

theorem storedCalls_of_dayTurn {i : Fin 3} {move : Move} {before after : (Locked Runner × World) × Phase Runner world Unit}
    (taken : dayTurn i move before = some after) : StoredCalls { notifier := true } (fun _ => twoBanks) i move before after := by
  obtain ⟨⟨shared, w⟩, place⟩ := before
  obtain ⟨⟨shared', place'⟩, turned, stored⟩ := Option.bind_eq_some_iff.mp taken
  obtain ⟨w', followed, rfl⟩ := Option.map_eq_some_iff.mp stored
  have turn := guarded_of_turnOf (w := world) (dayOn w (if i = 0 then badDay else goodDay)) turned
  exact .turn turn (List.prefix_iff_eq_append.mp (asked_grows turn)).symm (along_follow followed)

/-- The first two calls find the lock free; the third comes while the first runs. -/
def threeCallTurns : List (Fin 3 × Move) :=
  [(0, .test), (1, .test), (0, .acquire), (0, .resume), (2, .test), (0, .resume), (2, .leave)] ++
    List.replicate 10 (0, .resume) ++ [(1, .acquire)] ++ List.replicate 12 (1, .resume)

/-- Nobody is inside, and the second run has stored public changes. -/
def grownAndFree (joint : Joint (Locked Runner × World) (Fin 3) (Phase Runner world Unit)) : Bool :=
  !joint.shared.1.locked && (publicChanges joint.shared.2.db .alfabank).length = 6

theorem digests_tell_three_calls : ∃ joint, ∃ history : List (Finished (Fin 3)),
    Run (StoredCalls { notifier := true } (fun _ : Fin 3 => twoBanks)) ⟨(⟨false, {}⟩, execute []), fun _ => .calling⟩ threeCallTurns
      joint ∧
    publicChanges joint.shared.2.db .alfabank = history.flatMap (fun run => reported .alfabank run.2.2) ∧
    (publicChanges joint.shared.2.db .alfabank).length = 6 := by
  obtain ⟨joint, performed, last⟩ := exists_run dayTurn ⟨(⟨false, {}⟩, execute []), fun _ => .calling⟩ threeCallTurns
    grownAndFree (by decide +kernel)
  have run : Run (StoredCalls { notifier := true } (fun _ : Fin 3 => twoBanks)) _ threeCallTurns joint :=
    performed.mono (fun i move before after taken => storedCalls_of_dayTurn taken)
  obtain ⟨free, six⟩ := (Bool.and_eq_true _ _).mp last
  obtain ⟨history, current, -, -, now, grown, -⟩ := digests_tell_history latin1 rfl (fun _ => by decide) run
  have unlocked : joint.shared.1.locked = false := by simpa using free
  have nothing : current = [] := now.nobody unlocked
  have empty : publicChanges (execute []).db .alfabank = [] := rfl
  have tells := grown .alfabank
  rw [nothing, empty, List.nil_append, List.flatMap_nil, List.append_nil] at tells
  exact ⟨joint, history, run, tells, of_decide_eq_true six⟩

end ScanApi.RunHistory
