import Mathlib.Data.Nat.Basic
import ScanApi.Diff
import ScanApi.Prog
import ScanApi.Yaml

/-!
The tables that the migrations create, and the statements a connection runs on
them. Rows stand in the order of insertion; identifiers come from sequences,
which a rollback does not take back. Any statement may find the connection lost
(`Session.fuse` counts the statements it still carries). A transaction that
raises leaves the tables as they were.
-/
namespace ScanApi.Database
open ScanApi.Diff ScanApi.Yaml

structure SnapshotRow where
  id : Nat
  bank : String
  createdAt : Nat
deriving DecidableEq, Repr

structure ServiceRow where
  id : Nat
  snapshotId : Nat
  name : String
  url : Option String
  hidden : Bool
deriving DecidableEq, Repr

structure MethodRow where
  id : Nat
  serviceId : Nat
  name : String
  httpMethod : String
  url : Option String
  description : Option String
  path : Option String
  requestExample : Node
  responseExample : Node
  hidden : Bool
  hiddenReason : Option String
deriving Repr

structure FieldRow where
  id : Nat
  methodId : Nat
  name : String
deriving DecidableEq, Repr

/-- The columns from `change_type` to `hidden` hold the change. -/
structure ChangeRow where
  id : Nat
  /-- NULL once the snapshot is deleted. -/
  snapshotId : Option Nat
  bank : String
  change : Change
  detectedAt : Nat
deriving DecidableEq, Repr

structure Tables where
  snapshots : List SnapshotRow := []
  services : List ServiceRow := []
  methods : List MethodRow := []
  fields : List FieldRow := []
  changes : List ChangeRow := []

/-- The next value of every SERIAL column. -/
structure Sequences where
  snapshots : Nat := 1
  services : Nat := 1
  methods : Nat := 1
  fields : Nat := 1
  changes : Nat := 1

structure Db extends Tables where
  sequences : Sequences := {}

/-- Why an import does not return. -/
inductive Failure
  /-- `SnapshotRejected` with its message. -/
  | snapshotRejected (message : String)
  /-- The connection was lost at a statement. -/
  | connection
  /-- A column type or a CHECK refused the row. -/
  | constraint (name : String)
  /-- `json.dumps` or the JSONB column refused an example. -/
  | example
deriving DecidableEq, Repr

/-- A connection: the database, `NOW()` of its transaction, and the number of
    statements it still carries, if it is going to be lost. -/
structure Session where
  db : Db
  now : Nat
  fuse : Option Nat := none

abbrev Tx (α : Type) := Prog Session Failure α

/-- One statement, given `NOW()`. -/
def statement {α : Type} (run : Nat → Db → Except Failure (α × Db)) : Tx α := do
  let session ← get
  if session.fuse = some 0 then throw .connection
  set { session with fuse := session.fuse.map (· - 1) }
  match run session.now session.db with
  | .error failure => throw failure
  | .ok (a, db) => do
    modify (fun s => { s with db })
    pure a

/-- A statement that only reads. -/
def query {α : Type} (read : Db → α) : Tx α := statement (fun _ db => .ok (read db, db))

/-- `async with conn.transaction()`: BEGIN, the body, COMMIT; after a raise the
    tables are as before BEGIN, while sequences keep their values. -/
def transaction {α : Type} (body : Tx α) : Tx α := do
  query (fun _ => ())
  let before ← get
  tryCatch
    (do
      let a ← body
      query (fun _ => ())
      pure a)
    (fun failure => do
      modify (fun s => { s with db := { s.db with toTables := before.db.toTables } })
      throw failure)

/-- The session after a statement that returned. -/
def Session.spend (s : Session) (db : Db) : Session := { s with db, fuse := s.fuse.map (· - 1) }

@[simp] theorem spend_db (s : Session) (db : Db) : (s.spend db).db = db := rfl

section
variable {α : Type}

/-- A statement returns when the connection holds and the database accepts it. -/
theorem statement_ok {run : Nat → Db → Except Failure (α × Db)} {s s' : Session} {a : α} :
    Prog.exec (statement run) s = (.ok a, s') ↔
      s.fuse ≠ some 0 ∧ ∃ db, run s.now s.db = .ok (a, db) ∧ s' = s.spend db := by
  simp only [statement, Prog.exec_bind, Prog.exec_get]
  by_cases lost : s.fuse = some 0
  · simp [lost]
  · simp only [lost, ↓reduceIte, Prog.exec_bind, Prog.exec_set, ne_eq, not_false_eq_true, true_and]
    cases outcome : run s.now s.db with
    | error failure => simp
    | ok result =>
      obtain ⟨b, db⟩ := result
      simp only [Prog.exec_bind, Prog.exec_modify, Prog.exec_pure, Prod.mk.injEq, Except.ok.injEq]
      constructor
      · rintro ⟨rfl, rfl⟩; exact ⟨db, ⟨rfl, rfl⟩, rfl⟩
      · rintro ⟨db', ⟨rfl, rfl⟩, rfl⟩; exact ⟨rfl, rfl⟩

/-- A statement that raises changes no database: the connection is lost, or the
    database refuses the statement. -/
theorem statement_error {run : Nat → Db → Except Failure (α × Db)} {s s' : Session} {failure : Failure}
    (raised : Prog.exec (statement run) s = (.error failure, s')) :
    s'.db = s.db ∧ s'.now = s.now ∧ (failure = .connection ∨ run s.now s.db = .error failure) := by
  simp only [statement, Prog.exec_bind, Prog.exec_get] at raised
  by_cases lost : s.fuse = some 0
  · simp only [lost, ↓reduceIte, Prog.exec_bind, Prog.exec_throw, Prod.mk.injEq, Except.error.injEq] at raised
    obtain ⟨rfl, rfl⟩ := raised
    exact ⟨rfl, rfl, .inl rfl⟩
  · simp only [lost, ↓reduceIte, Prog.exec_bind, Prog.exec_set] at raised
    cases outcome : run s.now s.db with
    | error cause =>
      simp only [outcome, Prog.exec_throw, Prod.mk.injEq, Except.error.injEq] at raised
      obtain ⟨rfl, rfl⟩ := raised
      exact ⟨rfl, rfl, .inr rfl⟩
    | ok result =>
      simp only [outcome, Prog.exec_bind, Prog.exec_modify, Prog.exec_pure, Prod.mk.injEq, reduceCtorEq, false_and] at raised

theorem query_ok {read : Db → α} {s s' : Session} {a : α} :
    Prog.exec (query read) s = (.ok a, s') ↔ s.fuse ≠ some 0 ∧ a = read s.db ∧ s' = s.spend s.db := by
  rw [query, statement_ok]
  simp only [Except.ok.injEq, Prod.mk.injEq]
  constructor
  · rintro ⟨holds, db, ⟨rfl, rfl⟩, rfl⟩; exact ⟨holds, rfl, rfl⟩
  · rintro ⟨holds, rfl, rfl⟩; exact ⟨holds, s.db, ⟨rfl, rfl⟩, rfl⟩

/-- A committed transaction leaves what its body left. -/
theorem transaction_ok {body : Tx α} {s s' : Session} {a : α}
    (committed : Prog.exec (transaction body) s = (.ok a, s')) :
    ∃ s₁ s₂, s₁.db = s.db ∧ s₁.now = s.now ∧ Prog.exec body s₁ = (.ok a, s₂) ∧ s'.db = s₂.db := by
  simp only [transaction] at committed
  obtain ⟨_, s₁, begun, rest⟩ := Prog.exec_bind_ok.mp committed
  obtain ⟨_, _, rfl⟩ := query_ok.mp begun
  simp only [Prog.exec_bind, Prog.exec_get, Prog.exec_tryCatch] at rest
  refine ⟨s.spend s.db, ?_⟩
  rcases bodyRun : Prog.exec body (s.spend s.db) with ⟨failure | b, s₂⟩
  · simp [bodyRun] at rest
  · rw [bodyRun] at rest
    simp only at rest
    rcases commitRun : Prog.exec (query fun _ => ()) s₂ with ⟨failure | u, s₃⟩
    · simp [commitRun] at rest
    · rw [commitRun] at rest
      simp only [Prog.exec_pure, Prod.mk.injEq, Except.ok.injEq] at rest
      obtain ⟨rfl, rfl⟩ := rest
      obtain ⟨_, _, rfl⟩ := query_ok.mp commitRun
      exact ⟨s₂, rfl, rfl, rfl, rfl⟩

/-- A transaction that raises leaves every table as it was. -/
theorem transaction_error {body : Tx α} {s s' : Session} {failure : Failure}
    (raised : Prog.exec (transaction body) s = (.error failure, s')) : s'.db.toTables = s.db.toTables := by
  simp only [transaction] at raised
  rcases Prog.exec_bind_error.mp raised with begin | ⟨_, s₁, begun, rest⟩
  · rw [(statement_error begin).1]
  · obtain ⟨_, _, rfl⟩ := query_ok.mp begun
    simp only [Prog.exec_bind, Prog.exec_get, Prog.exec_tryCatch, Prog.exec_modify, Prog.exec_throw] at rest
    split at rest
    · cases rest
    · simp only [Prod.mk.injEq] at rest
      rw [← rest.2]; rfl

end

end ScanApi.Database
