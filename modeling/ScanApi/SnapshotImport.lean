import Mathlib.Algebra.Order.Floor.Ring
import Mathlib.Data.Rat.Floor
import ScanApi.Repository

/-!
Storing a parsed snapshot and its changes in one transaction
(`app/snapshot_import.py`). The ratio of the sanity check is a rational number;
its product with a count is exact.
-/
namespace ScanApi.SnapshotImport
open ScanApi.Diff ScanApi.Yaml ScanApi.Database ScanApi.Repository

/-- What an import reads of a parsed method. -/
structure ApiMethod where
  httpMethod : String
  path : Option String
  summary : String
  description : String := ""
  response200Fields : Option (List String) := none
  urlOnPortal : String
  requestExample : Node := .map []
  responseExample : Node := .map []
  hidden : Bool := false
  hiddenReason : Option String := none

/-- What an import reads of a parsed snapshot: the methods of every service. -/
structure ParseSnapshot where
  services : Dict String (List ApiMethod)

/-- `methods[0].url_on_portal if methods else ""`. -/
def serviceUrl (methods : List ApiMethod) : String := (methods.head?.map ApiMethod.urlOnPortal).getD ""

/-- `set(m.response_200_fields or ())`. -/
def fieldSet (m : ApiMethod) : Finset String := (m.response200Fields.getD []).toFinset

def methodRecord (service : String) (m : ApiMethod) : MethodRecord where
  service
  httpMethod := m.httpMethod
  path := m.path.getD ""
  name := m.summary
  url := m.urlOnPortal
  fields := fieldSet m
  hidden := m.hidden
  hiddenReason := m.hiddenReason

def snapshotToRecords (snapshot : ParseSnapshot) : SnapshotState :=
  (snapshot.services.mapValues (fun _ methods => serviceUrl methods),
   snapshot.services.entries.flatMap (fun e => e.2.map (methodRecord e.1)))

def visibleCount (methods : List MethodRecord) : Nat := (methods.filter (fun m => !m.hidden)).length

/-- The nearest integer, ties to even. -/
def roundHalfEven (q : ℚ) : Int :=
  let low := ⌊q⌋
  if q - low < 1 / 2 then low else if 1 / 2 < q - low then low + 1 else if low % 2 = 0 then low else low + 1

/-- `f"{ratio:.0%}"`. -/
def percent (ratio : ℚ) : String := toString (roundHalfEven (ratio * 100)) ++ "%"

def droppedMessage (prev new : Nat) (minRatio : ℚ) : String :=
  "methods dropped from " ++ toString prev ++ " to " ++ toString new ++ " (< " ++ percent minRatio ++
    " of previous) — snapshot rejected"

/-- Both counts are of visible methods only. The ratio is any rational; that `prev_methods * min_ratio`
    rounds is left to it. -/
def checkSanity (prevMethods : Option Nat) (newMethods : Nat) (minRatio : ℚ) : Tx Unit :=
  if newMethods = 0 then throw (.snapshotRejected "parser returned 0 methods")
  else match prevMethods with
    | none => pure ()
    | some prev =>
      if prev ≠ 0 ∧ 0 < minRatio ∧ (newMethods : ℚ) < prev * minRatio then
        throw (.snapshotRejected (droppedMessage prev newMethods minRatio))
      else pure ()

def writeMethod (serviceId : Nat) (m : ApiMethod) : Tx Unit := do
  let methodId ← createMethod serviceId m.summary m.httpMethod m.urlOnPortal m.description m.path
    m.requestExample m.responseExample m.hidden m.hiddenReason
  createFields methodId (sorted (fieldSet m))

def writeService (snapshotId : Nat) (name : String) (methods : List ApiMethod) : Tx Unit := do
  let serviceId ← createService snapshotId name (serviceUrl methods) (serviceIsHidden (methods.map ApiMethod.hidden))
  methods.forM (writeMethod serviceId)

def writeSnapshot (bank : String) (snapshot : ParseSnapshot) : Tx Nat := do
  let snapshotId ← createSnapshot bank
  snapshot.services.entries.forM (fun e => writeService snapshotId e.1 e.2)
  pure snapshotId

/-- The state to compare with: that of the bank's latest snapshot. -/
def readPrevious (order : StateOrder) (bank : String) : Tx (Option SnapshotState) := do
  match ← getLatestSnapshot bank with
  | none => pure none
  | some prev => some <$> getSnapshotState order prev.id

/-- The body of the transaction of an import. -/
def storeSnapshot (order : StateOrder) (bank : String) (snapshot : ParseSnapshot) (minRatio : ℚ) (keep : Int)
    (services : Dict String String) (methods : List MethodRecord) : Tx (List Change) := do
  let prev ← readPrevious order bank
  checkSanity (prev.map (fun state => visibleCount state.2)) (visibleCount methods) minRatio
  let changes := computeChanges prev services methods
  let snapshotId ← writeSnapshot bank snapshot
  createChanges snapshotId bank changes
  let oldIds ← getSnapshotsForCleanup bank keep
  deleteSnapshots oldIds
  pure changes

/-- Returns the visible changes; all changes are stored. -/
def importSnapshot (order : StateOrder) (bank : String) (snapshot : ParseSnapshot) (minRatio : ℚ) (keep : Int) :
    Tx (List Change) := do
  let (services, methods) := snapshotToRecords snapshot
  let changes ← transaction (storeSnapshot order bank snapshot minRatio keep services methods)
  pure (changes.filter (fun c => !c.hidden))

/-! ### Imports one after another -/

/-- One call of `import_snapshot`, with what the database adds to it: the order
    of rows, the time, and the statement at which the connection is lost. -/
structure ImportCall where
  bank : String
  snapshot : ParseSnapshot
  minRatio : ℚ
  keep : Int
  order : StateOrder := {}
  now : Nat := 0
  fuse : Option Nat := none

/-- What the caller gets and the database the call leaves. -/
def ImportCall.run (c : ImportCall) (db : Db) : Except Failure (List Change) × Db :=
  let (outcome, session) := Prog.exec (importSnapshot c.order c.bank c.snapshot c.minRatio c.keep)
    { db, now := c.now, fuse := c.fuse }
  (outcome, session.db)

/-! ### A portal on two days -/

def firstDay : ParseSnapshot where
  services := Dict.ofEntries [
    ("Accounts", [
      { httpMethod := "GET", path := some "/accounts", summary := "list", urlOnPortal := "/portal/accounts",
        response200Fields := some ["id", "balance", "id"] },
      { httpMethod := "GET", path := some "/cards", summary := "cards", urlOnPortal := "/portal/cards", hidden := true,
        hiddenReason := some "superseded" }]),
    ("Payments", [
      { httpMethod := "POST", path := none, summary := "pay", urlOnPortal := "/portal/pay" }]),
    ("Drafts", [])]

def secondDay : ParseSnapshot where
  services := Dict.ofEntries [
    ("Accounts", [
      { httpMethod := "GET", path := some "/accounts", summary := "list", urlOnPortal := "/portal/accounts",
        response200Fields := some ["id", "currency"] },
      { httpMethod := "GET", path := some "/cards", summary := "cards", urlOnPortal := "/portal/cards" },
      { httpMethod := "DELETE", path := some "/cards", summary := "block", urlOnPortal := "/portal/block" }])]

/-- Imports of two banks: a baseline, a lost connection, an empty parse and
    another day. -/
def twoDays : List ImportCall := [
  { bank := "alfa", snapshot := firstDay, minRatio := 1 / 2, keep := 2 },
  { bank := "alfa", snapshot := secondDay, minRatio := 1 / 2, keep := 2, fuse := some 7 },
  { bank := "sber", snapshot := firstDay, minRatio := 1 / 2, keep := 2, now := 1 },
  { bank := "alfa", snapshot := { services := Dict.empty }, minRatio := 1 / 2, keep := 2, now := 1 },
  { bank := "alfa", snapshot := secondDay, minRatio := 1 / 2, keep := 2, now := 2 },
  { bank := "alfa", snapshot := firstDay, minRatio := 1 / 2, keep := 2, now := 3 }]

end ScanApi.SnapshotImport
