import ScanApi.Interleaving
import ScanApi.ProxyExpiry
import Mathlib.Order.Basic
import Mathlib.Algebra.Group.Int.Defs

/-!
The table of proxies under concurrent requests (`app/settings_repo.py`, the proxy
routes of `app/admin_api.py` and the reminder of `app/runtime_settings.py`). A
statement of PostgreSQL is one action, on the rows that are committed when it
starts; between the actions of a request any other may act. `add_proxy` is a
transaction of three statements under an advisory lock, which is held until after
its row is visible; every other function is a statement of its own.
-/
namespace ScanApi.ProxyStore
open ScanApi.ProxyExpiry
open ScanApi.NotifyFormat (Chars)

/-! ### Rows -/

/-- What a check of a proxy found. -/
structure CheckResult where
  ok : Bool
  ip : Option Chars := none
  country : Option Chars := none
  latencyMs : Option Nat := none
  error : Option Chars := none
deriving DecidableEq, Repr

/-- A row of the table `proxies`. -/
structure ProxyRow extends Proxy where
  createdAt : Int
  lastCheckedAt : Option Int := none
  lastOk : Option Bool := none
  lastIp : Option Chars := none
  lastCountry : Option Chars := none
  lastLatencyMs : Option Nat := none
  lastError : Option Chars := none
deriving DecidableEq, Repr

/-- The row as `INSERT` makes it. -/
def newRow (id : Int) (url label : Chars) (expiresAt : Option Int) (stamp : Int) : ProxyRow where
  id
  url
  label
  expiresAt
  expiryNotifiedAt := none
  createdAt := stamp

/-- The constraints `CHECK` of the table. -/
def admissible (url label : Chars) : Bool := 1 ≤ url.length && url.length ≤ 500 && label.length ≤ 100

/-- The row after `UPDATE ... SET last_checked_at = NOW(), ...`. -/
def ProxyRow.checked (row : ProxyRow) (result : CheckResult) (stamp : Int) : ProxyRow :=
  { row with
    lastCheckedAt := some stamp
    lastOk := some result.ok
    lastIp := result.ip
    lastCountry := result.country
    lastLatencyMs := result.latencyMs
    lastError := result.error }

def saveCheck (id : Int) (result : CheckResult) (stamp : Int) (row : ProxyRow) : ProxyRow :=
  if row.id = id then row.checked result stamp else row

def markNotified (ids : List Int) (stamp : Int) (row : ProxyRow) : ProxyRow :=
  if row.id ∈ ids then { row with expiryNotifiedAt := some stamp } else row

/-- `SELECT ... FROM proxies ORDER BY id`. -/
def listProxies (rows : List ProxyRow) : List ProxyRow := rows.mergeSort (fun row row' => row.id ≤ row'.id)

def getProxy (rows : List ProxyRow) (id : Int) : Option ProxyRow := rows.find? (fun row => row.id = id)

/-- The proxies to remind of. -/
def dueIds (rows : List ProxyRow) (now : Int) : List Int :=
  (expiring ((listProxies rows).map ProxyRow.toProxy) now).map DueProxy.id

/-! ### Requests -/

/-- What is asked of the table: the routes for proxies, where checking all of them is
    one request for each row that was listed, and the reminder. -/
inductive Request
  | add (url label : Chars) (expiresAt : Option Int)
  | delete (id : Int)
  | check (id : Int)
  | remind (now : Int)
  | list
deriving DecidableEq, Repr

inductive Reply
  | added (row : ProxyRow)
  /-- `add_proxy` returned `None`. -/
  | alreadyThere
  /-- `ProxyLimitError`. -/
  | limitReached
  /-- With the row as it was read before. -/
  | deleted (row : ProxyRow)
  | notFound
  | saved (row : ProxyRow)
  | marked (ids : List Int)
  | listed (rows : List ProxyRow)
deriving DecidableEq, Repr

/-- Where a request is. -/
inductive Stage
  | arrived
  | begun (stamp : Int)
  | locked (stamp : Int)
  | counted (stamp : Int)
  /-- The row is written and not committed: nobody else sees it. -/
  | inserted (row : ProxyRow)
  | found (row : ProxyRow)
  | checked (row : ProxyRow) (result : CheckResult)
  | due (ids : List Int)
  /-- The statement that decides the answer was executed. -/
  | acted (reply : Reply)
  | answered (reply : Reply)
  /-- The request ended without an answer, after what it had done. -/
  | failed (done : Option Reply)
deriving DecidableEq, Repr

/-- The committed rows, the sequence of their ids and the holder of the advisory lock. -/
structure Database (ι : Type) where
  rows : List ProxyRow
  sequence : Int
  lock : Option ι

inductive Action
  /-- `BEGIN`, at the time that `NOW()` gives in the transaction. -/
  | begin (stamp : Int)
  | lock
  | count
  | insert
  | commit
  | read
  /-- The check of the proxy itself, outside the database. -/
  | probe (result : CheckResult)
  | delete
  | save (stamp : Int)
  | mark (stamp : Int)
  /-- The end of the transaction, if there is one, and the answer. -/
  | finish
  /-- The connection is lost, or an exception ends the request. -/
  | fail
deriving DecidableEq, Repr

variable {ι : Type} [DecidableEq ι]

/-- The lock is free if the request held it. -/
def Database.released (db : Database ι) (i : ι) : Database ι :=
  { db with lock := if db.lock = some i then none else db.lock }

/-- `INSERT ... ON CONFLICT (url) DO NOTHING`; an id is taken whether or not there is a row. -/
def insertProxy (i : ι) (url label : Chars) (expiresAt : Option Int) (stamp : Int) (db : Database ι) : Database ι × Stage :=
  let db' := { db with sequence := db.sequence + 1 }
  if !admissible url label then (db'.released i, .failed none)
  else if url ∈ db.rows.map (·.url) then (db', .acted .alreadyThere)
  else (db', .inserted (newRow db.sequence url label expiresAt stamp))

/-- The first statement of a request that has no transaction. -/
def firstRead (request : Request) (db : Database ι) : Option Stage :=
  match request with
  | .add _ _ _ => none
  | .delete id | .check id =>
    match getProxy db.rows id with
    | none => some (.acted .notFound)
    | some row => some (.found row)
  | .remind now =>
    let ids := dueIds db.rows now
    some (if ids = [] then .acted (.marked []) else .due ids)
  | .list => some (.acted (.listed (listProxies db.rows)))

/-- `DELETE ... RETURNING id`. -/
def deleteProxy (id : Int) (row : ProxyRow) (db : Database ι) : Database ι × Stage :=
  match getProxy db.rows id with
  | none => (db, .acted .notFound)
  | some _ => ({ db with rows := db.rows.filter (fun row => row.id ≠ id) }, .acted (.deleted row))

/-- `UPDATE ... WHERE id = $1 RETURNING ...`. -/
def saveResult (id : Int) (result : CheckResult) (stamp : Int) (db : Database ι) : Database ι × Stage :=
  match getProxy db.rows id with
  | none => (db, .acted .notFound)
  | some row => ({ db with rows := db.rows.map (saveCheck id result stamp) }, .acted (.saved (row.checked result stamp)))

/-- What a request did before it failed. -/
def Stage.done : Stage → Option Reply
  | .acted reply => some reply
  | _ => none

/-- One action of a request at its stage. -/
def act (limit : Nat) (request : Request) (i : ι) (action : Action) (before : Database ι × Stage) :
    Option (Database ι × Stage) :=
  let db := before.1
  match action, before.2, request with
  | .begin stamp, .arrived, .add _ _ _ => some (db, .begun stamp)
  | .lock, .begun stamp, _ => if db.lock = none then some ({ db with lock := some i }, .locked stamp) else none
  | .count, .locked stamp, _ => some (db, if limit ≤ db.rows.length then .acted .limitReached else .counted stamp)
  | .insert, .counted stamp, .add url label expiresAt => some (insertProxy i url label expiresAt stamp db)
  | .commit, .inserted row, _ => some ({ db with rows := db.rows ++ [row] }, .acted (.added row))
  | .read, .arrived, request => (firstRead request db).map (fun stage => (db, stage))
  | .probe result, .found row, .check _ => some (db, .checked row result)
  | .delete, .found row, .delete id => some (deleteProxy id row db)
  | .save stamp, .checked row result, _ => some (saveResult row.id result stamp db)
  | .mark stamp, .due ids, _ => some ({ db with rows := db.rows.map (markNotified ids stamp) }, .acted (.marked ids))
  | .finish, .acted reply, _ => some (db.released i, .answered reply)
  | .fail, .answered _, _ => none
  | .fail, .failed _, _ => none
  | .fail, stage, _ => some (db.released i, .failed stage.done)
  | _, _, _ => none

end ScanApi.ProxyStore
