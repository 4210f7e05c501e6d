import ScanApi.SnapshotImport

/-!
The effect of one import, as a function of the database. A call that returns
accepted its input and left `ImportCall.applied`; a call that raises left every
table as it was (`run_ok`, `run_error`). On a connection that holds, accepting
the input is also enough (`run_of_accepts`).
-/
namespace ScanApi.ImportEffect
open ScanApi.Diff ScanApi.Yaml ScanApi.Database ScanApi.Repository ScanApi.SnapshotImport

/-! ### What is written -/

/-- What the JSONB column holds of an example. -/
def storedExample (value : Node) : Node := (jsonb (orEmpty value)).getD (.map [])

/-- The database accepts the row of the method. -/
structure Storable (m : ApiMethod) : Prop where
  httpMethod : m.httpMethod.length ≤ 10
  reasoned : m.hidden = true → m.hiddenReason ≠ none
  known : ∀ reason, m.hiddenReason = some reason → reason ∈ hiddenReasons
  request : (jsonb (orEmpty m.requestExample)).isSome
  response : (jsonb (orEmpty m.responseExample)).isSome

instance (m : ApiMethod) : Decidable (Storable m) :=
  decidable_of_iff (m.httpMethod.length ≤ 10 ∧ (m.hidden = true → m.hiddenReason ≠ none) ∧
      (m.hiddenReason.all (· ∈ hiddenReasons)) ∧ (jsonb (orEmpty m.requestExample)).isSome ∧
      (jsonb (orEmpty m.responseExample)).isSome) (by
    rw [Option.all_eq_true]
    simp only [decide_eq_true_eq]
    exact ⟨fun ⟨short, reasoned, known, request, response⟩ => ⟨short, reasoned, known, request, response⟩,
      fun storable => ⟨storable.httpMethod, storable.reasoned, storable.known, storable.request, storable.response⟩⟩)

def methodRow (id serviceId : Nat) (m : ApiMethod) : MethodRow where
  id
  serviceId
  name := m.summary
  httpMethod := m.httpMethod
  url := some m.urlOnPortal
  description := some m.description
  path := m.path
  requestExample := storedExample m.requestExample
  responseExample := storedExample m.responseExample
  hidden := m.hidden
  hiddenReason := m.hiddenReason

def Db.addMethod (serviceId : Nat) (db : Db) (m : ApiMethod) : Db :=
  Db.insertFields (Db.insertMethod db (methodRow db.sequences.methods serviceId m)) db.sequences.methods
    (sorted (fieldSet m))

def Db.addService (snapshotId : Nat) (db : Db) (e : String × List ApiMethod) : Db :=
  let written := Db.upsertService db snapshotId e.1 (serviceUrl e.2) (serviceIsHidden (e.2.map ApiMethod.hidden))
  e.2.foldl (Db.addMethod written.1) written.2

def Db.addSnapshot (db : Db) (bank : String) (now : Nat) (snapshot : ParseSnapshot) : Db :=
  snapshot.services.entries.foldl (Db.addService db.sequences.snapshots) (Db.insertSnapshot db bank now)

/-- `check_sanity` does not raise. -/
structure Sane (prevMethods : Option Nat) (newMethods : Nat) (minRatio : ℚ) : Prop where
  some : newMethods ≠ 0
  kept : ∀ prev ∈ prevMethods, prev ≠ 0 → 0 < minRatio → prev * minRatio ≤ newMethods

/-- Every method of the snapshot is stored without complaint. -/
def StorableSnapshot (snapshot : ParseSnapshot) : Prop := ∀ e ∈ snapshot.services.entries, ∀ m ∈ e.2, Storable m

instance (snapshot : ParseSnapshot) : Decidable (StorableSnapshot snapshot) :=
  inferInstanceAs (Decidable (∀ e ∈ snapshot.services.entries, ∀ m ∈ e.2, Storable m))

end ScanApi.ImportEffect

namespace ScanApi.SnapshotImport
open ScanApi.Diff ScanApi.Database ScanApi.Repository ScanApi.ImportEffect

/-- The stored state that a call compares with. -/
def ImportCall.previous (c : ImportCall) (db : Db) : Option SnapshotState :=
  (latestSnapshot db c.bank).map (fun r => snapshotState c.order db r.id)
/-- The changes that a call records. -/
def ImportCall.changes (c : ImportCall) (db : Db) : List Change :=
  computeChanges (c.previous db) (snapshotToRecords c.snapshot).1 (snapshotToRecords c.snapshot).2
/-- The snapshot and its changes are stored, nothing is pruned yet. -/
def ImportCall.stored (c : ImportCall) (db : Db) : Db :=
  Db.insertChanges (Db.addSnapshot db c.bank c.now c.snapshot) db.sequences.snapshots c.bank c.now (c.changes db)
def ImportCall.oldIds (c : ImportCall) (db : Db) : List Nat :=
  if c.keep < 1 then [] else snapshotsForCleanup db c.bank c.keep
/-- The database after an accepted call. -/
def ImportCall.applied (c : ImportCall) (db : Db) : Db := Db.deleteSnapshots (c.stored db) (c.oldIds (c.stored db))

/-- The checks of a call pass on the database. -/
structure ImportCall.Accepts (c : ImportCall) (db : Db) : Prop where
  bank : c.bank.length ≤ 50
  storable : StorableSnapshot c.snapshot
  sane : Sane ((c.previous db).map (fun state => visibleCount state.2)) (visibleCount (snapshotToRecords c.snapshot).2)
    c.minRatio

end ScanApi.SnapshotImport

namespace ScanApi.ImportEffect
open ScanApi.Diff ScanApi.Yaml ScanApi.Database ScanApi.Repository ScanApi.SnapshotImport

/-! ### Sessions up to the connection -/

def Session.withDb (s : Session) (db : Db) : Session := { s with db }
/-- The session on a connection that holds. -/
def Session.steady (s : Session) : Session := { s with fuse := none }

@[simp] theorem withDb_db (s : Session) (db : Db) : (Session.withDb s db).db = db := rfl
@[simp] theorem withDb_now (s : Session) (db : Db) : (Session.withDb s db).now = s.now := rfl
@[simp] theorem withDb_withDb (s : Session) (db db' : Db) :
    Session.withDb (Session.withDb s db) db' = Session.withDb s db' := rfl
@[simp] theorem steady_spend (s : Session) (db : Db) :
    Session.steady (s.spend db) = Session.withDb (Session.steady s) db := rfl

theorem now_of_steady {s s' : Session} {db : Db}
    (same : Session.steady s' = Session.withDb (Session.steady s) db) : s'.now = s.now := by
  simpa [Session.steady, Session.withDb] using congrArg Session.now same
theorem db_of_steady {s s' : Session} {db : Db}
    (same : Session.steady s' = Session.withDb (Session.steady s) db) : s'.db = db := by
  simpa [Session.steady, Session.withDb] using congrArg Session.db same

theorem foldl_withDb {α : Type} (f : Db → α → Db) (l : List α) (s : Session) :
    l.foldl (fun s a => Session.withDb s (f s.db a)) s = Session.withDb s (l.foldl f s.db) := by
  induction l generalizing s with
  | nil => rfl
  | cons a rest ih => rw [List.foldl_cons, ih]; rfl

section
variable {α : Type}

theorem statement_steady {run : Nat → Db → Except Failure (α × Db)} {s : Session} {a : α} {db : Db}
    (steady : s.fuse = none) (accepted : run s.now s.db = .ok (a, db)) :
    Prog.exec (statement run) s = (.ok a, Session.withDb s db) := by
  rw [statement_ok]
  refine ⟨by simp [steady], db, accepted, ?_⟩
  cases s; cases steady; rfl

theorem query_steady {read : Db → α} {s : Session} (steady : s.fuse = none) :
    Prog.exec (query read) s = (.ok (read s.db), s) := statement_steady steady rfl

theorem transaction_steady {body : Tx α} {s s' : Session} {a : α} (steady : s.fuse = none) (after : s'.fuse = none)
    (returned : Prog.exec body s = (.ok a, s')) : Prog.exec (transaction body) s = (.ok a, s') := by
  simp only [transaction, Prog.exec_bind, query_steady steady, Prog.exec_get, Prog.exec_tryCatch, returned,
    query_steady after, Prog.exec_pure]

/-- A loop that returned folded its steps into the database. -/
theorem forM_ok {f : α → Tx PUnit} {step : Db → α → Db} {Done : α → Prop} {l : List α} {s s' : Session} {u : PUnit}
    (one : ∀ a s s', Prog.exec (f a) s = (.ok ⟨⟩, s') →
      Done a ∧ Session.steady s' = Session.withDb (Session.steady s) (step s.db a))
    (returned : Prog.exec (l.forM f) s = (.ok u, s')) :
    (∀ a ∈ l, Done a) ∧ Session.steady s' = Session.withDb (Session.steady s) (l.foldl step s.db) := by
  obtain ⟨done, folded⟩ := @Prog.exec_forM_ok _ _ _ _ f Session.steady
    (fun s a => Session.withDb s (step s.db a)) Done one l s s' returned
  exact ⟨done, folded.trans (foldl_withDb step l (Session.steady s))⟩

theorem forM_steady {f : α → Tx PUnit} {step : Db → α → Db} {l : List α} {s : Session}
    (one : ∀ a ∈ l, ∀ s, s.fuse = none → Prog.exec (f a) s = (.ok ⟨⟩, Session.withDb s (step s.db a)))
    (steady : s.fuse = none) : Prog.exec (l.forM f) s = (.ok ⟨⟩, Session.withDb s (l.foldl step s.db)) := by
  have rounds := @Prog.exec_forM_of_rounds _ _ _ f (fun s a => Session.withDb s (step s.db a))
    (fun s => s.fuse = none) l (fun a member s holds => ⟨one a member s holds, holds⟩) s steady
  rw [rounds.1, foldl_withDb]

end

/-! ### Every statement grows the sequences -/

instance : Preorder Sequences :=
  Preorder.lift (fun q => (q.snapshots, q.services, q.methods, q.fields, q.changes))

theorem sequences_le {p q : Sequences} : p ≤ q ↔ p.snapshots ≤ q.snapshots ∧ p.services ≤ q.services ∧
    p.methods ≤ q.methods ∧ p.fields ≤ q.fields ∧ p.changes ≤ q.changes := Iff.rfl

/-- The sequences of a session. -/
def sequences (s : Session) : Sequences := s.db.sequences

theorem grows_statement {α : Type} {run : Nat → Db → Except Failure (α × Db)}
    (up : ∀ now db a db', run now db = .ok (a, db') → db.sequences ≤ db'.sequences) :
    Prog.Grows sequences (statement run) := by
  intro s
  rcases outcome : Prog.exec (statement run) s with ⟨failure | a, s'⟩
  · have same := (statement_error outcome).1
    simp [sequences, same]
  · obtain ⟨-, db, accepted, rfl⟩ := statement_ok.mp outcome
    exact up _ _ _ _ accepted

theorem grows_query {α : Type} {read : Db → α} : Prog.Grows sequences (query read) :=
  grows_statement (fun _ _ _ _ same => by cases same; exact le_rfl)

theorem upsertService_sequences (db : Db) (snapshotId : Nat) (name url : String) (hidden : Bool) :
    db.sequences ≤ (Db.upsertService db snapshotId name url hidden).2.sequences := by
  unfold Db.upsertService
  split
  · exact le_rfl
  · simp [Db.insertService, sequences_le]

theorem grows_createService {snapshotId : Nat} {name url : String} {hidden : Bool} :
    Prog.Grows sequences (createService snapshotId name url hidden) :=
  grows_statement (fun _ db _ _ same => by
    have up := upsertService_sequences db snapshotId name url hidden
    rwa [Except.ok.inj same] at up)

theorem grows_createMethod {serviceId : Nat} {name httpMethod url description : String} {path : Option String}
    {requestExample responseExample : Node} {hidden : Bool} {hiddenReason : Option String} :
    Prog.Grows sequences (createMethod serviceId name httpMethod url description path requestExample responseExample
      hidden hiddenReason) := by
  unfold createMethod
  split
  · apply grows_statement
    intro now db a db' accepted
    split_ifs at accepted
    cases accepted
    simp [Db.insertMethod, sequences_le]
  · exact Prog.grows_throw _

theorem grows_createFields {methodId : Nat} {names : List String} :
    Prog.Grows sequences (createFields methodId names) := by
  unfold createFields
  split
  · exact Prog.grows_pure _
  · exact grows_statement (fun _ _ _ _ same => by cases same; simp [Db.insertFields, sequences_le])

theorem grows_createSnapshot {bank : String} : Prog.Grows sequences (createSnapshot bank) := by
  apply grows_statement
  intro now db a db' accepted
  split_ifs at accepted
  cases accepted
  simp [Db.insertSnapshot, sequences_le]

theorem grows_createChanges {snapshotId : Nat} {bank : String} {changes : List Change} :
    Prog.Grows sequences (createChanges snapshotId bank changes) := by
  unfold createChanges
  split
  · exact Prog.grows_pure _
  · exact grows_statement (fun _ _ _ _ same => by cases same; simp [Db.insertChanges, sequences_le])

theorem grows_deleteSnapshots {ids : List Nat} : Prog.Grows sequences (deleteSnapshots ids) := by
  unfold deleteSnapshots
  split
  · exact Prog.grows_pure _
  · exact grows_statement (fun _ _ _ _ same => by cases same; exact le_rfl)

theorem grows_transaction {α : Type} {body : Tx α} (grows : Prog.Grows sequences body) :
    Prog.Grows sequences (transaction body) := by
  unfold transaction
  refine Prog.grows_bind grows_query (fun _ => Prog.grows_bind Prog.grows_get (fun before => ?_))
  refine Prog.grows_tryCatch (Prog.grows_bind grows (fun a => Prog.grows_bind grows_query (fun _ => Prog.grows_pure a)))
    (fun failure => Prog.grows_bind (Prog.grows_modify (fun s => le_rfl)) (fun _ => Prog.grows_throw failure))

theorem grows_importSnapshot {order : StateOrder} {bank : String} {snapshot : ParseSnapshot} {minRatio : ℚ}
    {keep : Int} : Prog.Grows sequences (importSnapshot order bank snapshot minRatio keep) := by
  have readsPrevious : Prog.Grows sequences (readPrevious order bank) := by
    refine Prog.grows_bind grows_query (fun prev => ?_)
    cases prev with
    | none => exact Prog.grows_pure _
    | some prev => exact Prog.grows_map grows_query
  have checks : ∀ prev new, Prog.Grows sequences (checkSanity prev new minRatio) := by
    intro prev new
    unfold checkSanity
    split
    · exact Prog.grows_throw _
    · split
      · exact Prog.grows_pure _
      · split
        · exact Prog.grows_throw _
        · exact Prog.grows_pure _
  have writes : Prog.Grows sequences (writeSnapshot bank snapshot) :=
    Prog.grows_bind grows_createSnapshot (fun _ => Prog.grows_bind
      (Prog.grows_forM (fun _ _ => Prog.grows_bind grows_createService (fun _ =>
        Prog.grows_forM (fun _ _ => Prog.grows_bind grows_createMethod (fun _ => grows_createFields)))))
      (fun _ => Prog.grows_pure _))
  have reads : Prog.Grows sequences (getSnapshotsForCleanup bank keep) := by
    unfold getSnapshotsForCleanup
    split
    · exact Prog.grows_pure _
    · exact grows_query
  unfold importSnapshot storeSnapshot
  exact Prog.grows_bind (grows_transaction (Prog.grows_bind readsPrevious (fun _ => Prog.grows_bind (checks _ _)
    (fun _ => Prog.grows_bind writes (fun _ => Prog.grows_bind grows_createChanges (fun _ => Prog.grows_bind reads
      (fun _ => Prog.grows_bind grows_deleteSnapshots (fun _ => Prog.grows_pure _)))))))) (fun _ => Prog.grows_pure _)

/-! ### Statement by statement -/

section
variable {s s' : Session}

theorem insertFields_nil (db : Db) (methodId : Nat) : Db.insertFields db methodId [] = db := by
  simp [Db.insertFields]
theorem insertChanges_nil (db : Db) (snapshotId : Nat) (bank : String) (now : Nat) :
    Db.insertChanges db snapshotId bank now [] = db := by
  simp [Db.insertChanges, changeRows]
theorem deleteSnapshots_nil (db : Db) : Db.deleteSnapshots db [] = db := by
  have kept : ChangeRow.forget [] = id := by funext r; cases r.snapshotId <;> simp [ChangeRow.forget]
  simp [Db.deleteSnapshots, kept]

theorem createFields_ok {methodId : Nat} {names : List String} {u : Unit}
    (returned : Prog.exec (createFields methodId names) s = (.ok u, s')) :
    Session.steady s' = Session.withDb (Session.steady s) (Db.insertFields s.db methodId names) := by
  unfold createFields at returned
  split at returned
  · rename_i none
    cases returned
    rw [none, insertFields_nil]; rfl
  · obtain ⟨-, db, accepted, rfl⟩ := statement_ok.mp returned
    cases accepted
    rfl

theorem createFields_steady {methodId : Nat} {names : List String} (steady : s.fuse = none) :
    Prog.exec (createFields methodId names) s = (.ok (), Session.withDb s (Db.insertFields s.db methodId names)) := by
  unfold createFields
  split
  · rename_i none
    rw [none, insertFields_nil]; rfl
  · exact statement_steady steady rfl

theorem createChanges_ok {snapshotId : Nat} {bank : String} {changes : List Change} {u : Unit}
    (returned : Prog.exec (createChanges snapshotId bank changes) s = (.ok u, s')) :
    Session.steady s' =
      Session.withDb (Session.steady s) (Db.insertChanges s.db snapshotId bank s.now changes) := by
  unfold createChanges at returned
  split at returned
  · rename_i none
    cases returned
    rw [none, insertChanges_nil]; rfl
  · obtain ⟨-, db, accepted, rfl⟩ := statement_ok.mp returned
    cases accepted
    rfl

theorem createChanges_steady {snapshotId : Nat} {bank : String} {changes : List Change} (steady : s.fuse = none) :
    Prog.exec (createChanges snapshotId bank changes) s =
      (.ok (), Session.withDb s (Db.insertChanges s.db snapshotId bank s.now changes)) := by
  unfold createChanges
  split
  · rename_i none
    rw [none, insertChanges_nil]; rfl
  · exact statement_steady steady rfl

theorem deleteSnapshots_ok {ids : List Nat} {u : Unit}
    (returned : Prog.exec (deleteSnapshots ids) s = (.ok u, s')) : s'.db = Db.deleteSnapshots s.db ids := by
  unfold deleteSnapshots at returned
  split at returned
  · rename_i none
    cases returned
    rw [none, deleteSnapshots_nil]
  · obtain ⟨-, db, accepted, rfl⟩ := statement_ok.mp returned
    cases accepted
    rfl

theorem deleteSnapshots_steady {ids : List Nat} (steady : s.fuse = none) :
    Prog.exec (deleteSnapshots ids) s = (.ok (), Session.withDb s (Db.deleteSnapshots s.db ids)) := by
  unfold deleteSnapshots
  split
  · rename_i none
    rw [none, deleteSnapshots_nil]; rfl
  · exact statement_steady steady rfl

/-- Creating a method returns when the row is storable, and inserts it. -/
theorem createMethod_eq (serviceId : Nat) (m : ApiMethod) :
    (Storable m → createMethod serviceId m.summary m.httpMethod m.urlOnPortal m.description m.path m.requestExample
      m.responseExample m.hidden m.hiddenReason = statement (fun _ db => .ok (db.sequences.methods,
        Db.insertMethod db (methodRow db.sequences.methods serviceId m)))) ∧
    (¬ Storable m → ∀ s s' id, Prog.exec (createMethod serviceId m.summary m.httpMethod m.urlOnPortal m.description
      m.path m.requestExample m.responseExample m.hidden m.hiddenReason) s ≠ (.ok id, s')) := by
  constructor
  · rintro ⟨short, reasoned, known, hasRequest, hasResponse⟩
    obtain ⟨request, requestIs⟩ := Option.isSome_iff_exists.mp hasRequest
    obtain ⟨response, responseIs⟩ := Option.isSome_iff_exists.mp hasResponse
    have named : ¬ (m.hidden = true ∧ m.hiddenReason = none) := fun ⟨isHidden, missing⟩ => reasoned isHidden missing
    have listed : ¬ (m.hiddenReason.any (· ∉ hiddenReasons)) = true := by
      cases reason : m.hiddenReason with
      | none => simp
      | some r => simpa using known r reason
    simp only [createMethod, requestIs, responseIs, Nat.not_lt.mpr short, named, listed, if_false, methodRow,
      storedExample, Option.getD_some]
    rfl
  · intro refused s s' id returned
    apply refused
    unfold createMethod at returned
    split at returned
    · rename_i request response requestIs responseIs
      obtain ⟨-, db, accepted, -⟩ := statement_ok.mp returned
      split_ifs at accepted with long unnamed unlisted
      refine ⟨Nat.not_lt.mp long, fun isHidden missing => unnamed ⟨isHidden, missing⟩, fun reason found => ?_,
        by simp [requestIs], by simp [responseIs]⟩
      by_contra unknown
      exact unlisted (by simpa [found] using unknown)
    · cases returned

theorem writeMethod_ok {serviceId : Nat} {m : ApiMethod} {u : Unit}
    (returned : Prog.exec (writeMethod serviceId m) s = (.ok u, s')) :
    Storable m ∧ Session.steady s' = Session.withDb (Session.steady s) (Db.addMethod serviceId s.db m) := by
  obtain ⟨id, s₁, created, filled⟩ := Prog.exec_bind_ok.mp returned
  have storable : Storable m := by
    by_contra refused
    exact (createMethod_eq serviceId m).2 refused _ _ _ created
  rw [(createMethod_eq serviceId m).1 storable] at created
  obtain ⟨-, db, accepted, rfl⟩ := statement_ok.mp created
  cases accepted
  exact ⟨storable, createFields_ok filled⟩

theorem writeMethod_steady {serviceId : Nat} {m : ApiMethod} (steady : s.fuse = none) (storable : Storable m) :
    Prog.exec (writeMethod serviceId m) s = (.ok (), Session.withDb s (Db.addMethod serviceId s.db m)) := by
  rw [writeMethod, (createMethod_eq serviceId m).1 storable, Prog.exec_bind, statement_steady steady rfl]
  exact createFields_steady steady

theorem writeService_ok {snapshotId : Nat} {e : String × List ApiMethod} {u : Unit}
    (returned : Prog.exec (writeService snapshotId e.1 e.2) s = (.ok u, s')) :
    (∀ m ∈ e.2, Storable m) ∧
      Session.steady s' = Session.withDb (Session.steady s) (Db.addService snapshotId s.db e) := by
  obtain ⟨id, s₁, created, filled⟩ := Prog.exec_bind_ok.mp returned
  obtain ⟨-, db, accepted, rfl⟩ := statement_ok.mp created
  obtain ⟨storable, folded⟩ := forM_ok (fun m s s' => writeMethod_ok) filled
  refine ⟨storable, folded.trans ?_⟩
  simp [Db.addService, Except.ok.inj accepted]

theorem writeService_steady {snapshotId : Nat} {e : String × List ApiMethod} (steady : s.fuse = none)
    (storable : ∀ m ∈ e.2, Storable m) : Prog.exec (writeService snapshotId e.1 e.2) s =
      (.ok (), Session.withDb s (Db.addService snapshotId s.db e)) := by
  rw [writeService, createService, Prog.exec_bind, statement_steady steady rfl]
  exact forM_steady (fun m member s holds => writeMethod_steady holds (storable m member)) steady

theorem writeSnapshot_ok {bank : String} {snapshot : ParseSnapshot} {id : Nat}
    (returned : Prog.exec (writeSnapshot bank snapshot) s = (.ok id, s')) :
    bank.length ≤ 50 ∧ StorableSnapshot snapshot ∧ id = s.db.sequences.snapshots ∧
      Session.steady s' = Session.withDb (Session.steady s) (Db.addSnapshot s.db bank s.now snapshot) := by
  obtain ⟨id', s₁, created, rest⟩ := Prog.exec_bind_ok.mp returned
  obtain ⟨u, s₂, filled, last⟩ := Prog.exec_bind_ok.mp rest
  cases last
  obtain ⟨-, db, accepted, rfl⟩ := statement_ok.mp created
  split_ifs at accepted with long
  cases accepted
  obtain ⟨storable, folded⟩ := forM_ok (fun e s s' => writeService_ok) filled
  exact ⟨Nat.not_lt.mp long, storable, rfl, folded⟩

theorem writeSnapshot_steady {bank : String} {snapshot : ParseSnapshot} (steady : s.fuse = none)
    (short : bank.length ≤ 50) (storable : StorableSnapshot snapshot) : Prog.exec (writeSnapshot bank snapshot) s =
      (.ok s.db.sequences.snapshots, Session.withDb s (Db.addSnapshot s.db bank s.now snapshot)) := by
  have created : Prog.exec (createSnapshot bank) s =
      (.ok s.db.sequences.snapshots, Session.withDb s (Db.insertSnapshot s.db bank s.now)) :=
    statement_steady steady (by rw [if_neg (Nat.not_lt.mpr short)])
  have filled : Prog.exec (snapshot.services.entries.forM (fun e => writeService s.db.sequences.snapshots e.1 e.2))
      (Session.withDb s (Db.insertSnapshot s.db bank s.now)) =
        (.ok ⟨⟩, Session.withDb s (Db.addSnapshot s.db bank s.now snapshot)) :=
    forM_steady (fun e member s holds => writeService_steady holds (storable e member)) steady
  rw [writeSnapshot, Prog.exec_bind, created]
  simp only [Prog.exec_bind, filled, Prog.exec_pure]

theorem readPrevious_ok {order : StateOrder} {bank : String} {prev : Option SnapshotState}
    (returned : Prog.exec (readPrevious order bank) s = (.ok prev, s')) :
    prev = (latestSnapshot s.db bank).map (fun r => snapshotState order s.db r.id) ∧
      Session.steady s' = Session.withDb (Session.steady s) s.db := by
  obtain ⟨latest, s₁, found, rest⟩ := Prog.exec_bind_ok.mp returned
  obtain ⟨-, rfl, rfl⟩ := query_ok.mp found
  cases latest : latestSnapshot s.db bank with
  | none =>
    rw [latest] at rest
    cases rest
    exact ⟨rfl, rfl⟩
  | some r =>
    rw [latest] at rest
    simp only [Prog.exec_map] at rest
    rcases state : Prog.exec (getSnapshotState order r.id) (s.spend s.db) with ⟨failure | read, s₂⟩
    · rw [state] at rest; cases rest
    · rw [state] at rest
      cases rest
      obtain ⟨-, rfl, rfl⟩ := query_ok.mp state
      exact ⟨rfl, rfl⟩

theorem readPrevious_steady {order : StateOrder} {bank : String} (steady : s.fuse = none) :
    Prog.exec (readPrevious order bank) s =
      (.ok ((latestSnapshot s.db bank).map (fun r => snapshotState order s.db r.id)), s) := by
  rw [readPrevious, getLatestSnapshot, Prog.exec_bind, query_steady steady]
  cases latest : latestSnapshot s.db bank with
  | none => rfl
  | some r =>
    simp only [Prog.exec_map, getSnapshotState, query_steady steady, Option.map_some]

theorem checkSanity_ok {prev : Option Nat} {new : Nat} {minRatio : ℚ} {u : Unit} :
    Prog.exec (checkSanity prev new minRatio) s = (.ok u, s') ↔ Sane prev new minRatio ∧ s' = s := by
  unfold checkSanity
  by_cases none : new = 0
  · rw [if_pos none]
    constructor
    · intro impossible; cases impossible
    · rintro ⟨sane, -⟩; exact absurd none sane.some
  · rw [if_neg none]
    cases prev with
    | none =>
      constructor
      · intro returned; cases returned; exact ⟨⟨none, by simp⟩, rfl⟩
      · rintro ⟨-, rfl⟩; rfl
    | some prev =>
      by_cases dropped : prev ≠ 0 ∧ 0 < minRatio ∧ (new : ℚ) < prev * minRatio
      · simp only [if_pos dropped]
        constructor
        · intro impossible; cases impossible
        · rintro ⟨sane, -⟩
          exact absurd dropped.2.2 (not_lt.mpr (sane.kept prev rfl dropped.1 dropped.2.1))
      · simp only [if_neg dropped]
        constructor
        · intro returned
          cases returned
          refine ⟨⟨none, ?_⟩, rfl⟩
          rintro p ⟨⟩ some positive
          exact not_lt.mp (fun less => dropped ⟨some, positive, less⟩)
        · rintro ⟨-, rfl⟩; rfl

theorem getSnapshotsForCleanup_ok {bank : String} {keep : Int} {ids : List Nat}
    (returned : Prog.exec (getSnapshotsForCleanup bank keep) s = (.ok ids, s')) :
    ids = (if keep < 1 then [] else snapshotsForCleanup s.db bank keep) ∧ s'.db = s.db := by
  unfold getSnapshotsForCleanup at returned
  split_ifs at returned with none
  · cases returned; rw [if_pos none]; exact ⟨rfl, rfl⟩
  · obtain ⟨-, rfl, rfl⟩ := query_ok.mp returned
    rw [if_neg none]; exact ⟨rfl, rfl⟩

theorem getSnapshotsForCleanup_steady {bank : String} {keep : Int} (steady : s.fuse = none) :
    Prog.exec (getSnapshotsForCleanup bank keep) s =
      (.ok (if keep < 1 then [] else snapshotsForCleanup s.db bank keep), s) := by
  unfold getSnapshotsForCleanup
  split_ifs
  · rfl
  · exact query_steady steady

end

/-! ### The whole call -/

/-- A call that returns accepted its input, recorded its changes and returned the
    visible ones. -/
theorem run_ok {c : ImportCall} {db db' : Db} {visible : List Change} (returned : c.run db = (.ok visible, db')) :
    c.Accepts db ∧ visible = (c.changes db).filter (fun change => !change.hidden) ∧ db' = c.applied db := by
  rcases ran : Prog.exec (importSnapshot c.order c.bank c.snapshot c.minRatio c.keep)
    { db, now := c.now, fuse := c.fuse } with ⟨failure | result, session⟩
  · simp [ImportCall.run, ran] at returned
  simp only [ImportCall.run, ran, Prod.mk.injEq, Except.ok.injEq] at returned
  obtain ⟨rfl, rfl⟩ := returned
  simp only [importSnapshot] at ran
  obtain ⟨changes, s₁, committed, last⟩ := Prog.exec_bind_ok.mp ran
  cases last
  obtain ⟨t, t', tDb, tNow, body, final⟩ := transaction_ok committed
  simp only at tDb tNow
  obtain ⟨prev, t₁, readRun, checked⟩ := Prog.exec_bind_ok.mp body
  obtain ⟨prevIs, moved₁⟩ := readPrevious_ok readRun
  obtain ⟨_, t₂, checkRun, written⟩ := Prog.exec_bind_ok.mp checked
  obtain ⟨sane, same₂⟩ := checkSanity_ok.mp checkRun
  obtain ⟨id, t₃, writeRun, recorded⟩ := Prog.exec_bind_ok.mp written
  obtain ⟨short, storable, idIs, moved₃⟩ := writeSnapshot_ok writeRun
  obtain ⟨_, t₄, changeRun, cleaned⟩ := Prog.exec_bind_ok.mp recorded
  have moved₄ := createChanges_ok changeRun
  obtain ⟨ids, t₅, cleanupRun, deleted⟩ := Prog.exec_bind_ok.mp cleaned
  obtain ⟨idsAre, same₅⟩ := getSnapshotsForCleanup_ok cleanupRun
  obtain ⟨_, t₆, deleteRun, ended⟩ := Prog.exec_bind_ok.mp deleted
  have moved₆ := deleteSnapshots_ok deleteRun
  cases ended
  have db₂ : t₂.db = db := by rw [same₂, db_of_steady moved₁, tDb]
  have now₂ : t₂.now = c.now := by rw [same₂, now_of_steady moved₁, tNow]
  have db₃ : t₃.db = Db.addSnapshot db c.bank c.now c.snapshot := by rw [db_of_steady moved₃, db₂, now₂]
  have now₃ : t₃.now = c.now := (now_of_steady moved₃).trans now₂
  have prevSame : prev = c.previous db := by rw [prevIs, tDb]; rfl
  have db₄ : t₄.db = c.stored db := by rw [db_of_steady moved₄, idIs, db₃, now₃, db₂, prevSame]; rfl
  refine ⟨⟨short, storable, by rw [← prevSame]; exact sane⟩, by rw [prevSame]; rfl, ?_⟩
  rw [final, moved₆, idsAre, same₅, db₄]
  rfl

theorem storeSnapshot_steady {c : ImportCall} {s : Session} (steady : s.fuse = none) (sameNow : s.now = c.now)
    (accepts : c.Accepts s.db) : Prog.exec (storeSnapshot c.order c.bank c.snapshot c.minRatio c.keep
      (snapshotToRecords c.snapshot).1 (snapshotToRecords c.snapshot).2) s =
        (.ok (c.changes s.db), Session.withDb s (c.applied s.db)) := by
  have read : Prog.exec (readPrevious c.order c.bank) s = (.ok (c.previous s.db), s) := readPrevious_steady steady
  have check : Prog.exec (checkSanity ((c.previous s.db).map (fun state => visibleCount state.2))
      (visibleCount (snapshotToRecords c.snapshot).2) c.minRatio) s = (.ok (), s) :=
    checkSanity_ok.mpr ⟨accepts.sane, rfl⟩
  have write := writeSnapshot_steady steady accepts.bank accepts.storable
  set written := Session.withDb s (Db.addSnapshot s.db c.bank s.now c.snapshot) with writtenIs
  have record : Prog.exec (createChanges s.db.sequences.snapshots c.bank (c.changes s.db)) written =
      (.ok (), Session.withDb s (c.stored s.db)) := by
    have holds : written.fuse = none := steady
    rw [createChanges_steady holds, writtenIs]
    simp [ImportCall.stored, sameNow]
  have clean : Prog.exec (getSnapshotsForCleanup c.bank c.keep) (Session.withDb s (c.stored s.db)) =
      (.ok (c.oldIds (c.stored s.db)), Session.withDb s (c.stored s.db)) := getSnapshotsForCleanup_steady steady
  have delete : Prog.exec (deleteSnapshots (c.oldIds (c.stored s.db))) (Session.withDb s (c.stored s.db)) =
      (.ok (), Session.withDb s (c.applied s.db)) := deleteSnapshots_steady steady
  simp only [storeSnapshot, Prog.exec_bind, read, check, write]
  simp only [ImportCall.changes] at record ⊢
  simp only [record, clean, delete, Prog.exec_pure]

/-- On a connection that holds, a call whose checks pass returns. -/
theorem run_of_accepts {c : ImportCall} {db : Db} (steady : c.fuse = none) (accepts : c.Accepts db) :
    c.run db = (.ok ((c.changes db).filter (fun change => !change.hidden)), c.applied db) := by
  set s : Session := { db, now := c.now, fuse := c.fuse } with sIs
  have holds : s.fuse = none := steady
  have body : Prog.exec (storeSnapshot c.order c.bank c.snapshot c.minRatio c.keep (snapshotToRecords c.snapshot).1
      (snapshotToRecords c.snapshot).2) s = (.ok (c.changes db), Session.withDb s (c.applied db)) :=
    storeSnapshot_steady holds rfl accepts
  have after : (Session.withDb s (c.applied db)).fuse = none := steady
  have committed := transaction_steady holds after body
  simp only [ImportCall.run, importSnapshot, ← sIs, Prog.exec_bind, committed, Prog.exec_pure, withDb_db]

/-- A call that raises leaves every table as it was; sequences may have moved on. -/
theorem run_error {c : ImportCall} {db db' : Db} {failure : Failure} (raised : c.run db = (.error failure, db')) :
    db'.toTables = db.toTables ∧ db.sequences ≤ db'.sequences := by
  have grown : Prog.Grows sequences (importSnapshot c.order c.bank c.snapshot c.minRatio c.keep) :=
    grows_importSnapshot
  have up := grown { db, now := c.now, fuse := c.fuse }
  rcases ran : Prog.exec (importSnapshot c.order c.bank c.snapshot c.minRatio c.keep)
    { db, now := c.now, fuse := c.fuse } with ⟨cause | result, session⟩
  · rw [ran] at up
    simp only [ImportCall.run, ran, Prod.mk.injEq] at raised
    obtain ⟨-, rfl⟩ := raised
    refine ⟨?_, up⟩
    simp only [importSnapshot] at ran
    rcases Prog.exec_bind_error.mp ran with inside | ⟨_, _, _, after⟩
    · exact transaction_error inside
    · cases after
  · simp [ImportCall.run, ran] at raised

end ScanApi.ImportEffect
