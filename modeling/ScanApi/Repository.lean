import Mathlib.Data.Prod.Lex
import ScanApi.Database
import ScanApi.JsonColumn

/-!
The queries of `app/repository.py` and of `app/benchmark_repo.py`. Joins, groups
and aggregates are written as in the SQL text. Where a query has no ORDER BY, or
rows tie under it, the order of the rows is given by a `RowOrder`.
-/
namespace ScanApi.Repository
open ScanApi.Diff ScanApi.Yaml ScanApi.Database ScanApi.JsonColumn

/-! ### SQL -/

/-- An order in which the database may return rows. -/
structure RowOrder (α : Type) where
  order : List α → List α
  perm : ∀ rows, (order rows).Perm rows

/-- The rows as they are stored. -/
def asStored (α : Type) : RowOrder α := ⟨id, fun rows => .refl rows⟩

section
variable {α β : Type} [LinearOrder β]

/-- `ORDER BY key`. -/
def orderBy (key : α → β) (rows : List α) : List α := rows.insertionSort (fun a b => key a ≤ key b)
/-- `ORDER BY key DESC`. -/
def orderByDesc (key : α → β) (rows : List α) : List α := rows.insertionSort (fun a b => key b ≤ key a)

end

/-- The right side of a LEFT JOIN: a NULL row where nothing matches. -/
def leftJoin {α : Type} (rows : List α) : List (Option α) := if rows.isEmpty then [none] else rows.map some

/-- `COUNT(DISTINCT id)`: NULLs do not count. -/
def countDistinct (ids : List (Option Nat)) : Nat := (ids.filterMap id).dedup.length

/-! ### Snapshots -/

def Db.insertSnapshot (db : Db) (bank : String) (now : Nat) : Db :=
  { db with
    snapshots := db.snapshots ++ [{ id := db.sequences.snapshots, bank, createdAt := now }]
    sequences := { db.sequences with snapshots := db.sequences.snapshots + 1 } }
def createSnapshot (bank : String) : Tx Nat :=
  statement (fun now db =>
    if 50 < bank.length then .error (.constraint "snapshots.bank")
    else .ok (db.sequences.snapshots, Db.insertSnapshot db bank now))

/-- `WHERE bank=$1 ORDER BY id DESC LIMIT 1`. -/
def latestSnapshot (db : Db) (bank : String) : Option SnapshotRow :=
  (orderByDesc SnapshotRow.id (db.snapshots.filter (fun r => r.bank = bank))).head?
def getLatestSnapshot (bank : String) : Tx (Option SnapshotRow) := query (fun db => latestSnapshot db bank)

/-- `WHERE bank=$1 ORDER BY id DESC OFFSET $2`. -/
def snapshotsForCleanup (db : Db) (bank : String) (keep : Int) : List Nat :=
  ((orderByDesc SnapshotRow.id (db.snapshots.filter (fun r => r.bank = bank))).drop keep.toNat).map SnapshotRow.id
def getSnapshotsForCleanup (bank : String) (keep : Int) : Tx (List Nat) :=
  if keep < 1 then pure [] else query (fun db => snapshotsForCleanup db bank keep)

/-- `ON DELETE SET NULL`. -/
def ChangeRow.forget (ids : List Nat) (r : ChangeRow) : ChangeRow :=
  if r.snapshotId.any (· ∈ ids) then { r with snapshotId := none } else r

/-- `DELETE FROM snapshots`: services, methods and fields go with their owner;
    changes stay and lose the reference. -/
def Db.deleteSnapshots (db : Db) (ids : List Nat) : Db :=
  let services := db.services.filter (fun r => r.snapshotId ∈ ids)
  let methods := db.methods.filter (fun r => r.serviceId ∈ services.map ServiceRow.id)
  { db with
    snapshots := db.snapshots.filter (fun r => r.id ∉ ids)
    services := db.services.filter (fun r => r.snapshotId ∉ ids)
    methods := db.methods.filter (fun r => r.serviceId ∉ services.map ServiceRow.id)
    fields := db.fields.filter (fun r => r.methodId ∉ methods.map MethodRow.id)
    changes := db.changes.map (ChangeRow.forget ids) }
def deleteSnapshots (ids : List Nat) : Tx Unit :=
  if ids = [] then pure () else statement (fun _ db => .ok ((), Db.deleteSnapshots db ids))

/-- A row of the method query of `get_snapshot_state`. -/
structure StateRow where
  service : String
  httpMethod : String
  path : String
  name : String
  url : String
  hidden : Bool
  hiddenReason : Option String
  fields : List String
deriving DecidableEq

/-- `methods JOIN services LEFT JOIN fields` for one snapshot. -/
def joinedRows (db : Db) (snapshotId : Nat) : List ((MethodRow × ServiceRow) × Option FieldRow) :=
  (db.methods.flatMap (fun m =>
    (db.services.filter (fun s => s.id = m.serviceId ∧ s.snapshotId = snapshotId)).map (fun s => (m, s)))).flatMap
      (fun p => (leftJoin (db.fields.filter (fun f => f.methodId = p.1.id))).map (fun f => (p, f)))

/-- The columns of one group, with the aggregated field names. -/
def groupRow (rows : List ((MethodRow × ServiceRow) × Option FieldRow)) : Option StateRow :=
  rows.head?.map (fun r =>
    { service := r.1.2.name
      httpMethod := r.1.1.httpMethod
      path := r.1.1.path.getD ""
      name := r.1.1.name
      url := r.1.1.url.getD ""
      hidden := r.1.1.hidden
      hiddenReason := r.1.1.hiddenReason
      fields := rows.filterMap (fun row => row.2.map FieldRow.name) })

/-- `GROUP BY m.id, s.name`. -/
def stateRows (db : Db) (snapshotId : Nat) : List StateRow :=
  (Dict.groupBy (fun r => (r.1.1.id, r.1.2.name)) id (joinedRows db snapshotId)).values.filterMap groupRow

def StateRow.record (r : StateRow) : MethodRecord where
  service := r.service
  httpMethod := r.httpMethod
  path := r.path
  name := r.name
  url := r.url
  fields := r.fields.toFinset
  hidden := r.hidden
  hiddenReason := r.hiddenReason

/-- The orders of the two result sets that `get_snapshot_state` reads. -/
structure StateOrder where
  services : RowOrder ServiceRow := asStored ServiceRow
  methods : RowOrder StateRow := asStored StateRow

def snapshotState (order : StateOrder) (db : Db) (snapshotId : Nat) : SnapshotState :=
  let svcRows := order.services.order (db.services.filter (fun r => r.snapshotId = snapshotId))
  let methodRows := order.methods.order (stateRows db snapshotId)
  (Dict.ofEntries (svcRows.map (fun r => (r.name, r.url.getD ""))), methodRows.map StateRow.record)
def getSnapshotState (order : StateOrder) (snapshotId : Nat) : Tx SnapshotState :=
  query (fun db => snapshotState order db snapshotId)

/-! ### Services -/

def Db.insertService (db : Db) (snapshotId : Nat) (name url : String) (hidden : Bool) : Db :=
  { db with
    services := db.services ++ [{ id := db.sequences.services, snapshotId, name, url := some url, hidden }]
    sequences := { db.sequences with services := db.sequences.services + 1 } }
/-- INSERT or, for a known name, UPDATE; the identifier comes back either way. -/
def Db.upsertService (db : Db) (snapshotId : Nat) (name url : String) (hidden : Bool) : Nat × Db :=
  match db.services.find? (fun r => r.snapshotId = snapshotId ∧ r.name = name) with
  | some old => (old.id,
    { db with services := db.services.map (fun r => if r.id = old.id then { r with url := some url, hidden } else r) })
  | none => (db.sequences.services, Db.insertService db snapshotId name url hidden)
def createService (snapshotId : Nat) (name url : String) (hidden : Bool) : Tx Nat :=
  statement (fun _ db => .ok (Db.upsertService db snapshotId name url hidden))

/-- `SELECT MAX(id) FROM snapshots WHERE bank = $1`. -/
def maxSnapshotId (db : Db) (bank : String) : Option Nat :=
  ((db.snapshots.filter (fun r => r.bank = bank)).map SnapshotRow.id).max?

/-- Services of the latest snapshot of a bank, by name. -/
def getBankServices (db : Db) (bank : String) (includeHidden : Bool) : List ServiceRow :=
  orderBy ServiceRow.name (db.services.filter (fun s =>
    (db.snapshots.any (fun sn => sn.id = s.snapshotId ∧ sn.bank = bank ∧ some sn.id = maxSnapshotId db bank)) &&
      (includeHidden || !s.hidden)))

/-- Hidden services of the latest snapshot of a bank, by name. -/
def getHiddenServices (db : Db) (bank : String) : List ServiceRow :=
  orderBy ServiceRow.name (db.services.filter (fun s =>
    (db.snapshots.any (fun sn => sn.id = s.snapshotId ∧ sn.bank = bank ∧ some sn.id = maxSnapshotId db bank)) && s.hidden))

/-! ### Methods -/

def hiddenReasons : List String := ["private", "superseded", "not_in_menu", "ghost"]

/-- `example or {}`. -/
def orEmpty (value : Node) : Node := if value.truthy then value else .map []

def Db.insertMethod (db : Db) (row : MethodRow) : Db :=
  { db with
    methods := db.methods ++ [row]
    sequences := { db.sequences with methods := db.sequences.methods + 1 } }
def createMethod (serviceId : Nat) (name httpMethod url description : String) (path : Option String)
    (requestExample responseExample : Node) (hidden : Bool) (hiddenReason : Option String) : Tx Nat :=
  match jsonb (orEmpty requestExample), jsonb (orEmpty responseExample) with
  | some request, some response =>
    statement (fun _ db =>
      if 10 < httpMethod.length then .error (.constraint "methods.http_method")
      else if hidden ∧ hiddenReason = none then .error (.constraint "methods_hidden_reason_check")
      else if hiddenReason.any (· ∉ hiddenReasons) then .error (.constraint "methods_hidden_reason_known")
      else .ok (db.sequences.methods, Db.insertMethod db
        { id := db.sequences.methods, serviceId, name, httpMethod, url := some url, description := some description,
          path, requestExample := request, responseExample := response, hidden, hiddenReason }))
  | _, _ => throw .example

/-- A method as `get_service_methods` returns it. -/
structure MethodView where
  id : Nat
  serviceId : Nat
  name : String
  httpMethod : String
  path : String
  url : Option String
  description : Option String
  hidden : Bool
  hiddenReason : Option String
  requestExample : Node
  responseExample : Node

def MethodRow.view (m : MethodRow) : MethodView where
  id := m.id
  serviceId := m.serviceId
  name := m.name
  httpMethod := m.httpMethod
  path := m.path.getD ""
  url := m.url
  description := m.description
  hidden := m.hidden
  hiddenReason := m.hiddenReason
  requestExample := reread m.requestExample
  responseExample := reread m.responseExample

/-- `ORDER BY http_method, COALESCE(path, name)`; rows that tie come in any order. -/
def getServiceMethods (order : RowOrder MethodRow) (db : Db) (serviceId : Nat) (includeHidden : Bool) :
    List MethodView :=
  (orderBy (fun m => toLex (m.httpMethod, m.path.getD m.name)) (order.order (db.methods.filter (fun m =>
    m.serviceId = serviceId ∧ (includeHidden ∨ m.hidden = false))))).map MethodRow.view

/-- Hidden methods of a service. -/
def getHiddenMethods (order : RowOrder MethodRow) (db : Db) (serviceId : Nat) : List MethodView :=
  (orderBy (fun m => toLex (m.httpMethod, m.path.getD m.name)) (order.order (db.methods.filter (fun m =>
    m.serviceId = serviceId ∧ m.hidden = true)))).map MethodRow.view

/-! ### Fields -/

def Db.insertFields (db : Db) (methodId : Nat) (names : List String) : Db :=
  { db with
    fields := db.fields ++ names.zipIdx.map (fun n => { id := db.sequences.fields + n.2, methodId, name := n.1 })
    sequences := { db.sequences with fields := db.sequences.fields + names.length } }
def createFields (methodId : Nat) (names : List String) : Tx Unit :=
  if names = [] then pure () else statement (fun _ db => .ok ((), Db.insertFields db methodId names))

/-! ### Changes -/

/-- The rows of the changes of one import. -/
def changeRows (first snapshotId : Nat) (bank : String) (now : Nat) (changes : List Change) : List ChangeRow :=
  changes.zipIdx.map (fun c =>
    { id := first + c.2, snapshotId := some snapshotId, bank, change := c.1, detectedAt := now })
def Db.insertChanges (db : Db) (snapshotId : Nat) (bank : String) (now : Nat) (changes : List Change) : Db :=
  { db with
    changes := db.changes ++ changeRows db.sequences.changes snapshotId bank now changes
    sequences := { db.sequences with changes := db.sequences.changes + changes.length } }
def createChanges (snapshotId : Nat) (bank : String) (changes : List Change) : Tx Unit :=
  if changes = [] then pure ()
  else statement (fun now db => .ok ((), Db.insertChanges db snapshotId bank now changes))

/-! ### Statistics -/

structure Stats where
  bank : String
  serviceCount : Nat
  methodCount : Nat
deriving DecidableEq, Repr

/-- `SELECT MAX(id) FROM snapshots GROUP BY bank`. -/
def maxSnapshotIds (db : Db) : List Nat :=
  (Dict.groupBy SnapshotRow.bank SnapshotRow.id db.snapshots).values.filterMap List.max?

/-- `snapshots LEFT JOIN services LEFT JOIN methods` for the latest snapshots. -/
def statsRows (db : Db) (includeHidden : Bool) : List (SnapshotRow × Option ServiceRow × Option MethodRow) :=
  (db.snapshots.filter (fun s => s.id ∈ maxSnapshotIds db)).flatMap (fun s =>
    (leftJoin (db.services.filter (fun sv => sv.snapshotId = s.id ∧ (includeHidden ∨ sv.hidden = false)))).flatMap
      (fun sv => (leftJoin (db.methods.filter (fun m =>
        sv.any (fun sv => m.serviceId = sv.id) ∧ (includeHidden ∨ m.hidden = false)))).map (fun m => (s, sv, m))))

def getStats (db : Db) (includeHidden : Bool) : List Stats :=
  orderBy Stats.bank ((Dict.groupBy (fun r => r.1.bank) Prod.snd (statsRows db includeHidden)).entries.map (fun g =>
    { bank := g.1
      serviceCount := countDistinct (g.2.map (fun r => r.1.map ServiceRow.id))
      methodCount := countDistinct (g.2.map (fun r => r.2.map MethodRow.id)) }))

/-! ### Hidden methods and services -/

structure HiddenSummary where
  bank : String
  hiddenServices : Nat
  hiddenMethods : Nat
  byReason : Dict (Option String) Nat

/-- The hidden methods of the latest snapshots, with bank and reason. -/
def reasonRows (db : Db) : List (String × Option String) :=
  (db.snapshots.filter (fun s => s.id ∈ maxSnapshotIds db)).flatMap (fun s =>
    (db.services.filter (fun sv => sv.snapshotId = s.id)).flatMap (fun sv =>
      (db.methods.filter (fun m => m.serviceId = sv.id ∧ m.hidden)).map (fun m => (s.bank, m.hiddenReason))))

/-- `COUNT(*) ... GROUP BY bank, hidden_reason`. -/
def reasonCounts (db : Db) : List ((String × Option String) × Nat) :=
  (Dict.groupBy id id (reasonRows db)).entries.map (fun g => (g.1, g.2.length))

/-- `reasons.setdefault(bank, {})[reason] = cnt`. -/
def addReason (reasons : Dict String (Dict (Option String) Nat)) (row : (String × Option String) × Nat) :
    Dict String (Dict (Option String) Nat) :=
  reasons.set row.1.1 (((reasons.get? row.1.1).getD .empty).set row.1.2 row.2)

def getHiddenSummary (order : RowOrder ((String × Option String) × Nat)) (db : Db) : List HiddenSummary :=
  let reasons := (order.order (reasonCounts db)).foldl addReason .empty
  orderBy HiddenSummary.bank ((Dict.groupBy (fun r => r.1.bank) Prod.snd (statsRows db true)).entries.map (fun g =>
    { bank := g.1
      hiddenServices := countDistinct ((g.2.filter (fun r => r.1.any ServiceRow.hidden)).map (fun r => r.1.map ServiceRow.id))
      hiddenMethods := countDistinct ((g.2.filter (fun r => r.2.any MethodRow.hidden)).map (fun r => r.2.map MethodRow.id))
      byReason := (reasons.get? g.1).getD .empty }))

/-! ### Benchmark -/

/-- A row of `latest_services`; the path is NULL for a service without methods. -/
structure BenchmarkRow where
  bank : String
  createdAt : Nat
  service : String
  path : Option String
deriving DecidableEq, Repr

/-- `SELECT DISTINCT ON (bank) ... ORDER BY bank, id DESC`. -/
def latestOfBanks (db : Db) : List SnapshotRow :=
  (Dict.firstBy SnapshotRow.bank (orderBy (fun r => toLex (r.bank, OrderDual.toDual r.id)) db.snapshots)).values

def latestServices (db : Db) : List BenchmarkRow :=
  let rows := (latestOfBanks db).flatMap (fun l =>
    (db.services.filter (fun s => s.snapshotId = l.id ∧ s.hidden = false)).flatMap (fun s =>
      (leftJoin (db.methods.filter (fun m => m.serviceId = s.id ∧ m.hidden = false))).map (fun m => (l, s, m))))
  (orderBy (fun r => toLex (r.1.bank, toLex (r.2.1.id, r.2.2.elim 0 MethodRow.id))) rows).map (fun r =>
    { bank := r.1.bank, createdAt := r.1.createdAt, service := r.2.1.name, path := r.2.2.bind MethodRow.path })

end ScanApi.Repository
