import ScanApi.Prog

/-!
Programs on a database that are started again and again. A start has a connection
that may lose the reply of one statement, and that statement may have taken effect
or not. A transaction takes effect whole or not at all (`transaction_ends`), so an
invariant that every start keeps holds after any number of them (`restarts_keep`).
-/
namespace ScanApi.Restarts
variable {δ ε α β : Type}

/-- The number of statements before the one whose reply is lost, and whether that one took effect. -/
structure Fault where
  after : Nat
  took : Bool
deriving DecidableEq, Repr

structure Conn (δ : Type) where
  db : δ
  fault : Option Fault

inductive Failure (ε : Type)
  | connection
  /-- The database refuses the statement. -/
  | refused (cause : ε)
deriving DecidableEq, Repr

abbrev Tx (δ ε α : Type) := Prog (Conn δ) (Failure ε) α

/-- One more statement was answered. -/
def Fault.next (fault : Fault) : Fault := { fault with after := fault.after - 1 }

/-- A reply that is lost: `took` is what the database holds if the statement took effect, else `lost`. -/
def lose (lost took : δ) (effect : Bool) : Tx δ ε α := do
  modify (fun conn => { conn with db := if effect then took else lost })
  throw .connection

/-- What a statement did to the database. -/
def outcome (run : δ → Except ε (α × δ)) (db : δ) : δ :=
  match run db with
  | .ok (_, db') => db'
  | .error _ => db

/-- One statement outside of a transaction, or inside, where the connection sees its own changes. -/
def statement (run : δ → Except ε (α × δ)) : Tx δ ε α := do
  let conn ← get
  match conn.fault with
  | some ⟨0, took⟩ => lose conn.db (outcome run conn.db) took
  | fault =>
    match run conn.db with
    | .error cause => throw (.refused cause)
    | .ok (a, db) => do
      set (Conn.mk db (fault.map Fault.next))
      pure a

/-- A statement that changes nothing. -/
def query (read : δ → α) : Tx δ ε α := statement (fun db => .ok (read db, db))

/-- COMMIT, where `before` is what stands if it does not take effect. -/
def commit (before : δ) : Tx δ ε Unit := do
  let conn ← get
  match conn.fault with
  | some ⟨0, took⟩ => lose before conn.db took
  | fault => set { conn with fault := fault.map Fault.next }

/-- BEGIN, the body, COMMIT; a body that raises is rolled back. -/
def transaction (body : Tx δ ε α) : Tx δ ε α := do
  query (fun _ => ())
  let before ← get
  let a ← tryCatch body (fun failure => do
    modify (fun conn => { conn with db := before.db })
    throw failure)
  commit before.db
  pure a

/-! ### What a statement does -/

theorem exec_lose (lost took : δ) (effect : Bool) (conn : Conn δ) :
    Prog.exec (lose lost took effect : Tx δ ε α) conn =
      (.error .connection, ⟨if effect then took else lost, conn.fault⟩) := rfl

/-- A statement leaves the database as it was, or as the statement makes it; it returns only in the second case. -/
theorem statement_ends (run : δ → Except ε (α × δ)) (conn : Conn δ) :
    ((Prog.exec (statement run) conn).2.db = conn.db ∨ (Prog.exec (statement run) conn).2.db = outcome run conn.db) ∧
      ∀ a, (Prog.exec (statement run) conn).1 = .ok a →
        run conn.db = .ok (a, (Prog.exec (statement run) conn).2.db) := by
  obtain ⟨db, fault⟩ := conn
  simp only [statement, Prog.exec_bind, Prog.exec_get]
  split
  · rename_i took
    cases took <;> simp [exec_lose]
  · unfold outcome
    rcases ran : run db with cause | ⟨a, db'⟩ <;> simp [Prog.exec_map]

/-- A statement that finds nothing to change. -/
theorem statement_reads {run : δ → Except ε (α × δ)} {conn : Conn δ} {a : α} (reads : run conn.db = .ok (a, conn.db)) :
    (Prog.exec (statement run) conn).2.db = conn.db ∧ ∀ b, (Prog.exec (statement run) conn).1 = .ok b → b = a := by
  obtain ⟨ends, returns⟩ := statement_ends run conn
  have same : outcome run conn.db = conn.db := by rw [outcome, reads]
  refine ⟨ends.elim id (fun left => left.trans same), fun b ran => ?_⟩
  have found := returns b ran
  rw [reads] at found
  simp only [Except.ok.injEq, Prod.mk.injEq] at found
  exact found.1.symm

/-- COMMIT takes effect or does not; it returns only if it does. -/
theorem commit_ends (before : δ) (conn : Conn δ) :
    (Prog.exec (commit before : Tx δ ε Unit) conn).2.db = conn.db ∨
      (Prog.exec (commit before : Tx δ ε Unit) conn).2.db = before ∧
        (Prog.exec (commit before : Tx δ ε Unit) conn).1 = .error .connection := by
  simp only [commit, Prog.exec_bind, Prog.exec_get]
  split
  · rename_i took _
    cases took <;> simp [exec_lose]
  · exact .inl rfl

/-- A transaction leaves the database as it was, or as its body made it; it returns only in the second case. -/
theorem transaction_ends (body : Tx δ ε α) (conn : Conn δ) :
    (∃ failure, (Prog.exec (transaction body) conn).1 = .error failure) ∧
        (Prog.exec (transaction body) conn).2.db = conn.db ∨
      ∃ begun ended a, begun.db = conn.db ∧ Prog.exec body begun = (.ok a, ended) ∧
        (Prog.exec (transaction body) conn).2.db = ended.db := by
  have same := (@statement_reads _ ε _ (fun db => .ok ((), db)) conn () rfl).1
  rcases began : Prog.exec (query (fun _ => ()) : Tx δ ε Unit) conn with ⟨failure | _, begun⟩ <;>
    (rw [query] at began; rw [began] at same)
  · refine .inl ⟨⟨failure, ?_⟩, ?_⟩ <;> simp only [transaction, query, Prog.exec_bind, began]
    exact same
  · simp only [transaction, query, Prog.exec_bind, began, Prog.exec_get, Prog.exec_tryCatch]
    rcases ran : Prog.exec body begun with ⟨failure | a, ended⟩
    · exact .inl ⟨⟨failure, rfl⟩, same⟩
    · dsimp only
      rcases @commit_ends _ ε begun.db ended with kept | ⟨lost, failed⟩
      · refine .inr ⟨begun, ended, a, same, ran, ?_⟩
        rcases last : Prog.exec (commit begun.db : Tx δ ε Unit) ended with ⟨failure | _, final⟩ <;>
          rw [last] at kept <;> exact kept
      · rcases last : Prog.exec (commit begun.db : Tx δ ε Unit) ended with ⟨failure | _, final⟩ <;>
          rw [last] at lost failed
        · exact .inl ⟨⟨failure, rfl⟩, lost.trans same⟩
        · cases failed

/-! ### Without a fault -/

theorem statement_steady {run : δ → Except ε (α × δ)} {db db' : δ} {a : α} (ran : run db = .ok (a, db')) :
    Prog.exec (statement run) ⟨db, none⟩ = (.ok a, ⟨db', none⟩) := by
  simp [statement, Prog.exec_bind, Prog.exec_map, ran]

theorem query_steady (read : δ → α) (db : δ) :
    Prog.exec (query read : Tx δ ε α) ⟨db, none⟩ = (.ok (read db), ⟨db, none⟩) := statement_steady rfl

theorem transaction_steady {body : Tx δ ε α} {db db' : δ} {a : α}
    (ran : Prog.exec body ⟨db, none⟩ = (.ok a, ⟨db', none⟩)) :
    Prog.exec (transaction body) ⟨db, none⟩ = (.ok a, ⟨db', none⟩) := by
  simp only [transaction, Prog.exec_bind, query_steady, Prog.exec_get, Prog.exec_tryCatch, ran]
  rfl

/-! ### Starts -/

/-- The database after the program was started once for each of these connections. -/
def restarts (start : Tx δ ε α) (db : δ) (faults : List (Option Fault)) : δ :=
  faults.foldl (fun db fault => (Prog.exec start ⟨db, fault⟩).2.db) db

/-- What every start keeps, however it ends, holds after any number of starts. -/
theorem restarts_keep {start : Tx δ ε α} {Holds : δ → Prop}
    (one : ∀ conn, Holds conn.db → Holds (Prog.exec start conn).2.db) {db : δ} (holds : Holds db)
    (faults : List (Option Fault)) : Holds (restarts start db faults) := by
  induction faults generalizing db with
  | nil => exact holds
  | cons fault faults ih => exact ih (one ⟨db, fault⟩ holds)

end ScanApi.Restarts
