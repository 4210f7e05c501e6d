import ScanApi.EventLog
import ScanApi.EventLoop
import ScanApi.NotifyFormat
import ScanApi.SnapshotImport

/-!
A parse run (`app/parser_runner.py`). Parsers, imports, the proxy list, the digest
builder and the notifier are outside and may raise any exception; the event sink
never raises. The lock and the skipped call are `EventLoop.Guarded`. The global
proxy that a run sets and resets (`bank_api_parser/proxy.py`) is a field of the
shared state.
-/
namespace ScanApi.ParserRunner
open ScanApi.Diff ScanApi.EventLog ScanApi.EventLoop ScanApi.EventLoop.Coro ScanApi.NotifyFormat ScanApi.SnapshotImport

/-! ### Status -/

inductive BankState
  | pending
  | running
  | done
  | error
deriving DecidableEq, Repr

structure BankStatus where
  status : BankState := .pending
  startedAt : Option String := none
  finishedAt : Option String := none
  services : Nat := 0
  methods : Nat := 0
  changes : Nat := 0
  error : Option String := none
deriving DecidableEq, Repr

/-- There is a status for every bank. -/
structure ParseStatus where
  running : Bool := false
  startedAt : Option String := none
  finishedAt : Option String := none
  banks : Bank → BankStatus := fun _ => {}

/-- What the run asks of a rotator: the proxies it was given. -/
structure ProxyRotator where
  urls : List String
deriving DecidableEq, Repr

/-- The fields that runs change, and the proxy that is active. -/
structure Runner where
  status : ParseStatus := {}
  /-- Banks whose last run failed: alerts fire only on transitions. -/
  failing : Finset Bank := ∅
  active : Option ProxyRotator := none

structure Config where
  notifier : Bool := false
  minSnapshotRatio : ℚ := 1 / 2
  snapshotsKeep : Int := 7
  dashboardUrl : Chars := []
  /-- Whether there is a source of proxies. -/
  proxySource : Bool := false

/-! ### Errors -/

/-- The errors whose messages are ours, and all others. -/
inductive Kind
  | parserError
  | snapshotRejected
  | other
deriving DecidableEq, Repr

structure Exn where
  kind : Kind
  typeName : String
  /-- `str(exc)`. -/
  text : String
deriving DecidableEq, Repr

def publicError (exc : Exn) : String :=
  if exc.kind = .other then "internal error (" ++ exc.typeName ++ "), see server logs" else exc.text

def noData : Exn := { kind := .parserError, typeName := "ParserError", text := "parser returned no data" }

structure BankOutcome where
  changes : List Change := []
  /-- `none` is success. -/
  error : Option String := none
  rejected : Bool := false
deriving DecidableEq

/-- `if o.error`. -/
def BankOutcome.failed (o : BankOutcome) : Bool := o.error.any (· ≠ "")

/-! ### The world of a run -/

inductive Query
  | record (event : Event)
  | monotonic
  /-- `_now()`. -/
  | now
  /-- `datetime.now(timezone.utc)`, as the digest shows it. -/
  | moment
  | proxySource
  | parse (bank : Bank)
  /-- Acquires a connection and imports. -/
  | importSnapshot (bank : Bank) (snapshot : ParseSnapshot) (minRatio : ℚ) (keep : Int)
  | buildDigest (changesByBank : Bank → List Change) (moment : MskTime) (dashboardUrl : Chars)
  | broadcast (texts : List Chars)
  | sendAdmin (text : Chars)

abbrev Reply : Query → Type
  | .record _ => Unit
  | .monotonic => ℚ
  | .now => String
  | .moment => MskTime
  | .proxySource => Except Exn (Option ProxyRotator)
  | .parse _ => Except Exn (Option ParseSnapshot)
  | .importSnapshot _ _ _ _ => Except Exn (List Change)
  | .buildDigest _ _ _ => Except Exn (List Chars)
  | .broadcast _ => Except Exn Unit
  | .sendAdmin _ => Except Exn Unit

abbrev world : Outside := ⟨Query, Reply⟩

abbrev Routine := Coro Runner world

def asks (q : Query) : Routine (Reply q) := query (w := world) q

def awaits (q : Query) : Routine (Reply q) := await (w := world) q

def record (level : Level) (category : Category) (message : String) : Routine Unit :=
  awaits (.record ⟨level, category, message⟩)

/-! ### A run -/

/-- How a run was started, as the admin reads it. -/
def triggers (trigger : String) : String :=
  if trigger = "manual" then "вручную из админки"
  else if trigger = "schedule" then "по расписанию"
  else if trigger = "startup" then "при запуске приложения"
  else trigger

def labels (banks : List Bank) : String := String.intercalate ", " (banks.map bankLabel)

/-- Visible services and methods of a freshly parsed snapshot. -/
def visibleCounts (snapshot : ParseSnapshot) : Nat × Nat :=
  ((snapshot.services.values.filter (fun methods => !serviceIsHidden (methods.map ApiMethod.hidden))).length,
   (snapshot.services.values.flatten.filter (fun m => !m.hidden)).length)

def setBank (bank : Bank) (change : BankStatus → BankStatus) (r : Runner) : Runner :=
  { r with status := { r.status with banks := Function.update r.status.banks bank (change (r.status.banks bank)) } }

def runBank (config : Config) (bank : Bank) : Routine (Except Exn (List Change)) := do
  let started ← asks .now
  modify (setBank bank (fun st => { st with status := .running, startedAt := some started }))
  match ← awaits (.parse bank) with
  | .error exc => pure (.error exc)
  | .ok none => pure (.error noData)
  | .ok (some snapshot) => do
    let (services, methods) := visibleCounts snapshot
    match ← awaits (.importSnapshot bank snapshot config.minSnapshotRatio config.snapshotsKeep) with
    | .error exc => pure (.error exc)
    | .ok changes => do
      let finished ← asks .now
      modify (setBank bank (fun st => { st with
        status := .done, finishedAt := some finished, services, methods, changes := changes.length }))
      pure (.ok changes)

def recordBankError (label : String) (rejected : Bool) (seconds : ℚ) : Routine Unit :=
  if rejected then record .error .parser (label ++ ": результат отклонён, старые данные сохранены")
  else record .error .parser (label ++ ": ошибка через " ++ fmtDuration seconds ++ ", данные банка не обновлены")

def runBankSafe (config : Config) (bank : Bank) : Routine BankOutcome := do
  let label := bankLabel bank
  let started ← asks .monotonic
  record .info .parser (label ++ ": начинаю сбор документации")
  match ← runBank config bank with
  | .error exc => do
    let error := publicError exc
    let finished ← asks .now
    modify (setBank bank (fun st => { st with status := .error, error := some error, finishedAt := some finished }))
    let rejected := decide (exc.kind = .snapshotRejected)
    let ended ← asks .monotonic
    recordBankError label rejected (ended - started)
    pure { error := some error, rejected }
  | .ok changes => do
    let st := (← get).status.banks bank
    let ended ← asks .monotonic
    record .success .parser (label ++ ": готово за " ++ fmtDuration (ended - started) ++ " — " ++
      count st.services "сервис" "сервиса" "сервисов" ++ ", " ++ count st.methods "метод" "метода" "методов" ++
      ", изменений: " ++ toString changes.length)
    pure { changes }

/-- The banks of a run, one after another. -/
def runBanks (config : Config) : List Bank → Dict Bank BankOutcome → Routine (Dict Bank BankOutcome)
  | [], outcomes => pure outcomes
  | bank :: rest, outcomes => do
    let outcome ← runBankSafe config bank
    runBanks config rest (outcomes.set bank outcome)

/-- Proxies are an optimisation: they never block the parse. -/
def loadProxies (config : Config) : Routine (Option ProxyRotator) :=
  if !config.proxySource then pure none
  else do
    match ← awaits .proxySource with
    | .error _ => do
      record .warning .proxy "Не удалось загрузить список прокси — банки опрашиваются напрямую"
      pure none
    | .ok rotator => do
      let proxies := (rotator.map (fun r => r.urls.length)).getD 0
      record .info .proxy (
        if proxies ≠ 0 then "Запросы к банкам идут через " ++ toString proxies ++ " прокси"
        else "Запросы к банкам идут напрямую, без прокси")
      pure rotator

/-- The banks of a run that failed. -/
def failedBanks (outcomes : Dict Bank BankOutcome) : List Bank :=
  (outcomes.entries.filter (fun e => e.2.failed)).map Prod.fst

/-- The banks of a run that did not fail. -/
def passedBanks (outcomes : Dict Bank BankOutcome) : List Bank :=
  (outcomes.entries.filter (fun e => !e.2.failed)).map Prod.fst

def recordSummary (outcomes : Dict Bank BankOutcome) (seconds : ℚ) : Routine Unit :=
  let failed := failedBanks outcomes
  let all := outcomes.entries.length
  let ok := all - failed.length
  let message := "Парсинг завершён за " ++ fmtDuration seconds ++ ": успешно " ++ toString ok ++ " из " ++ toString all
  if failed = [] then record .success .parser message
  else record (if ok = 0 then .error else .warning) .parser (message ++ "; с ошибкой: " ++ labels failed)

/-! ### Notifications -/

/-- Sends, and only records what the notifier raises. -/
def safely (send : Routine (Except Exn Unit)) (what : String) : Routine Unit := do
  match ← send with
  | .ok _ => pure ()
  | .error _ => record .error .telegram ("Не удалось отправить " ++ what ++ " в Telegram")

def broadcast (texts : List Chars) : Routine Unit := safely (awaits (.broadcast texts)) "сводку изменений"

def sendAdmin (text : Chars) : Routine Unit := safely (awaits (.sendAdmin text)) "уведомление администратору"

def recordNoDigest (outcomes : Dict Bank BankOutcome) : Routine Unit :=
  if outcomes.entries ≠ [] ∧ (failedBanks outcomes).toFinset = outcomes.keys then
    record .info .telegram "Ни один банк не обработан — сводка в Telegram не отправляется"
  else record .info .telegram "Изменений нет — сводка в Telegram не отправляется"

/-- The changes of the banks that did not fail. -/
def digestChanges (outcomes : Dict Bank BankOutcome) (bank : Bank) : List Change :=
  match outcomes.get? bank with
  | some o => if o.failed then [] else o.changes
  | none => []

/-- The alerts of a run: first the failures, then the recoveries. -/
def alertTexts (outcomes : Dict Bank BankOutcome) (newlyFailed recovered : Finset Bank) : List Chars :=
  (outcomes.entries.filter (fun e => e.1 ∈ newlyFailed)).map
    (fun e => formatFailure e.1 (e.2.error.getD "") e.2.rejected) ++
  (outcomes.entries.filter (fun e => e.1 ∈ recovered)).map (fun e => formatRecovery e.1)

/-- The digest, unless building it raises: that must not swallow the alerts. -/
def tryDigest (config : Config) (outcomes : Dict Bank BankOutcome) : Routine (Option (List Chars)) := do
  let moment ← asks .moment
  match ← asks (.buildDigest (digestChanges outcomes) moment config.dashboardUrl) with
  | .ok digest => pure (some digest)
  | .error _ => do
    record .error .telegram "Не удалось собрать сводку изменений для Telegram"
    pure none

def sendDigest (outcomes : Dict Bank BankOutcome) : Option (List Chars) → Routine Unit
  | none => pure ()
  | some [] => recordNoDigest outcomes
  | some digest => broadcast digest

def sendAlerts : List Chars → Routine Unit
  | [] => pure ()
  | text :: rest => do
    sendAdmin text
    sendAlerts rest

def recoveredBanks (outcomes : Dict Bank BankOutcome) (failing : Finset Bank) : Finset Bank :=
  (passedBanks outcomes).toFinset ∩ failing

def newlyFailedBanks (outcomes : Dict Bank BankOutcome) (failing : Finset Bank) : Finset Bank :=
  (failedBanks outcomes).toFinset \ failing

def nextFailing (outcomes : Dict Bank BankOutcome) (failing : Finset Bank) : Finset Bank :=
  (failing \ recoveredBanks outcomes failing) ∪ (failedBanks outcomes).toFinset

def notify (config : Config) (outcomes : Dict Bank BankOutcome) : Routine Unit := do
  let failing := (← get).failing
  modify (fun r => { r with failing := nextFailing outcomes failing })
  if !config.notifier then
    record .info .telegram "Telegram не настроен — сводки и уведомления не отправляются"
  else do
    let digest ← tryDigest config outcomes
    sendDigest outcomes digest
    sendAlerts (alertTexts outcomes (newlyFailedBanks outcomes failing) (recoveredBanks outcomes failing))

/-- How `run_all` is called. -/
structure Call where
  banks : List Bank := bankKeys
  trigger : String := "manual"
deriving DecidableEq, Repr

/-- What `run_all` does under the lock. -/
def runAll (config : Config) (call : Call) : Routine Unit := do
  let started ← asks .monotonic
  record .info .parser ("Парсинг запущен " ++ triggers call.trigger ++ ": " ++ labels call.banks)
  let startedAt ← asks .now
  modify (fun r => { r with status := { running := true, startedAt := some startedAt } })
  let rotator ← loadProxies config
  modify (fun r => { r with active := rotator })
  let outcomes ← runBanks config call.banks Dict.empty
  modify (fun r => { r with active := none })
  let finishedAt ← asks .now
  modify (fun r => { r with status := { r.status with running := false, finishedAt := some finishedAt } })
  let ended ← asks .monotonic
  recordSummary outcomes (ended - started)
  notify config outcomes

/-- What `run_all` does when the lock is taken. -/
def skipped (call : Call) : Query :=
  .record ⟨.warning, .parser, "Парсинг уже идёт — повторный запуск (" ++ triggers call.trigger ++ ") пропущен"⟩

/-! ### Two days -/

/-- A day on which one bank is down, the snapshot of another is rejected and the
    admin cannot be reached. -/
def badDay : ∀ q : Query, Reply q
  | .record _ => ()
  | .monotonic => 0
  | .now => "2025-01-01 06:00:00 UTC"
  | .moment => ⟨1, 1, ⟨9, 0⟩⟩
  | .proxySource => .ok (some ⟨["socks5://proxy:1080"]⟩)
  | .parse .sber => .error { kind := .parserError, typeName := "ParserError", text := "spec 500" }
  | .parse _ => .ok (some firstDay)
  | .importSnapshot .tochka _ _ _ =>
    .error { kind := .snapshotRejected, typeName := "SnapshotRejected", text := "parser returned 0 methods" }
  | .importSnapshot _ _ _ _ => .ok []
  | .buildDigest _ _ _ => .error { kind := .other, typeName := "ValueError", text := "formatter bug" }
  | .broadcast _ => .ok ()
  | .sendAdmin _ => .error { kind := .other, typeName := "TimedOut", text := "" }

/-- A day on which every bank is imported. -/
def goodDay : ∀ q : Query, Reply q
  | .parse _ => .ok (some secondDay)
  | .importSnapshot _ _ _ _ => .ok []
  | .buildDigest _ _ _ => .ok []
  | .sendAdmin _ => .ok ()
  | q => badDay q

end ScanApi.ParserRunner
