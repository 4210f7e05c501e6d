import ScanApi.ImportEffect

/-!
What the tables say: every snapshot as one value, without row ids
(`servicesOf`, `storedOf`). `Consistent` is what primary keys, sequences and
references guarantee. On a consistent database, writing a snapshot adds its
content under a new identifier and touches nothing else (`addSnapshot_adds`).
-/
namespace ScanApi.Stored
open ScanApi.Diff ScanApi.Yaml ScanApi.Database ScanApi.Repository ScanApi.SnapshotImport ScanApi.ImportEffect

/-! ### The stored values -/

structure StoredMethod where
  name : String
  httpMethod : String
  url : Option String
  description : Option String
  path : Option String
  requestExample : Node
  responseExample : Node
  hidden : Bool
  hiddenReason : Option String
  fields : List String

structure StoredService where
  name : String
  url : Option String
  hidden : Bool
  methods : List StoredMethod

structure StoredSnapshot where
  id : Nat
  createdAt : Nat
  services : List StoredService

def fieldsOf (db : Db) (methodId : Nat) : List String :=
  (db.fields.filter (fun f => f.methodId = methodId)).map FieldRow.name

def storedMethod (m : MethodRow) (fields : List String) : StoredMethod where
  name := m.name
  httpMethod := m.httpMethod
  url := m.url
  description := m.description
  path := m.path
  requestExample := m.requestExample
  responseExample := m.responseExample
  hidden := m.hidden
  hiddenReason := m.hiddenReason
  fields

def methodsOf (db : Db) (serviceId : Nat) : List StoredMethod :=
  (db.methods.filter (fun m => m.serviceId = serviceId)).map (fun m => storedMethod m (fieldsOf db m.id))

def storedService (db : Db) (s : ServiceRow) : StoredService where
  name := s.name
  url := s.url
  hidden := s.hidden
  methods := methodsOf db s.id

def servicesOf (db : Db) (snapshotId : Nat) : List StoredService :=
  (db.services.filter (fun s => s.snapshotId = snapshotId)).map (storedService db)

def storedSnapshot (db : Db) (r : SnapshotRow) : StoredSnapshot where
  id := r.id
  createdAt := r.createdAt
  services := servicesOf db r.id

/-- The snapshots of a bank, oldest first. -/
def storedOf (db : Db) (bank : String) : List StoredSnapshot :=
  (db.snapshots.filter (fun r => r.bank = bank)).map (storedSnapshot db)

/-! ### What a parsed snapshot is stored as -/

def methodContent (m : ApiMethod) : StoredMethod where
  name := m.summary
  httpMethod := m.httpMethod
  url := some m.urlOnPortal
  description := some m.description
  path := m.path
  requestExample := storedExample m.requestExample
  responseExample := storedExample m.responseExample
  hidden := m.hidden
  hiddenReason := m.hiddenReason
  fields := sorted (fieldSet m)

def serviceContent (e : String × List ApiMethod) : StoredService where
  name := e.1
  url := some (serviceUrl e.2)
  hidden := serviceIsHidden (e.2.map ApiMethod.hidden)
  methods := e.2.map methodContent

def content (snapshot : ParseSnapshot) : List StoredService := snapshot.services.entries.map serviceContent

/-! ### Consistent databases -/

/-- Identifiers ascend and stay below their sequence, and so do references;
    a change of a stored snapshot has its bank. -/
structure Consistent (db : Db) : Prop where
  snapshotIds : (db.snapshots.map SnapshotRow.id).Pairwise (· < ·)
  snapshotBound : ∀ r ∈ db.snapshots, r.id < db.sequences.snapshots
  serviceIds : (db.services.map ServiceRow.id).Pairwise (· < ·)
  serviceBound : ∀ r ∈ db.services, r.id < db.sequences.services
  serviceOwner : ∀ r ∈ db.services, r.snapshotId < db.sequences.snapshots
  methodIds : (db.methods.map MethodRow.id).Pairwise (· < ·)
  methodBound : ∀ r ∈ db.methods, r.id < db.sequences.methods
  methodOwner : ∀ r ∈ db.methods, r.serviceId < db.sequences.services
  fieldOwner : ∀ r ∈ db.fields, r.methodId < db.sequences.methods
  changeOwner : ∀ r ∈ db.changes, ∀ id, r.snapshotId = some id → ∃ s ∈ db.snapshots, s.id = id ∧ s.bank = r.bank

theorem consistent_empty : Consistent {} := by constructor <;> simp

/-- An ascending list stays ascending when the next number is appended. -/
theorem ascending_snoc {α : Type} {key : α → Nat} {l : List α} {a : α} (ascending : (l.map key).Pairwise (· < ·))
    (bound : ∀ b ∈ l, key b < key a) : ((l ++ [a]).map key).Pairwise (· < ·) := by
  rw [List.map_append, List.pairwise_append]
  exact ⟨ascending, by simp, by simpa using bound⟩

theorem ascending_filter {α : Type} {key : α → Nat} {l : List α} (p : α → Bool)
    (ascending : (l.map key).Pairwise (· < ·)) : ((l.filter p).map key).Pairwise (· < ·) :=
  ascending.sublist (List.filter_sublist.map key)

/-- Rows with the same identifier are the same row. -/
theorem row_unique {α : Type} {key : α → Nat} {l : List α} (ascending : (l.map key).Pairwise (· < ·)) {a b : α}
    (here : a ∈ l) (there : b ∈ l) (same : key a = key b) : a = b :=
  List.inj_on_of_nodup_map (ascending.imp Nat.ne_of_lt) here there same

/-- The tables stay consistent when only the sequences move on. -/
theorem consistent_grow {db db' : Db} (consistent : Consistent db) (tables : db'.toTables = db.toTables)
    (grown : db.sequences ≤ db'.sequences) : Consistent db' := by
  obtain ⟨snapshots, services, methods, _, _⟩ := sequences_le.mp grown
  rcases db' with ⟨tables', sequences'⟩
  subst tables
  exact ⟨consistent.snapshotIds, fun r member => (consistent.snapshotBound r member).trans_le snapshots,
    consistent.serviceIds, fun r member => (consistent.serviceBound r member).trans_le services,
    fun r member => (consistent.serviceOwner r member).trans_le snapshots,
    consistent.methodIds, fun r member => (consistent.methodBound r member).trans_le methods,
    fun r member => (consistent.methodOwner r member).trans_le services,
    fun r member => (consistent.fieldOwner r member).trans_le methods, consistent.changeOwner⟩

theorem storedOf_tables {db db' : Db} (tables : db'.toTables = db.toTables) (bank : String) :
    storedOf db' bank = storedOf db bank := by
  rcases db' with ⟨tables', sequences'⟩
  subst tables
  rfl

/-! ### Writing methods -/

theorem fieldsOf_fresh {db : Db} (consistent : Consistent db) {methodId : Nat}
    (fresh : db.sequences.methods ≤ methodId) : fieldsOf db methodId = [] := by
  rw [fieldsOf, List.map_eq_nil_iff, List.filter_eq_nil_iff]
  intro r member
  have below := consistent.fieldOwner r member
  simp only [decide_eq_true_eq]
  omega

theorem methodsOf_fresh {db : Db} (consistent : Consistent db) {serviceId : Nat}
    (fresh : db.sequences.services ≤ serviceId) : methodsOf db serviceId = [] := by
  rw [methodsOf, List.map_eq_nil_iff, List.filter_eq_nil_iff]
  intro r member
  have below := consistent.methodOwner r member
  simp only [decide_eq_true_eq]
  omega

theorem servicesOf_fresh {db : Db} (consistent : Consistent db) {snapshotId : Nat}
    (fresh : db.sequences.snapshots ≤ snapshotId) : servicesOf db snapshotId = [] := by
  rw [servicesOf, List.map_eq_nil_iff, List.filter_eq_nil_iff]
  intro r member
  have below := consistent.serviceOwner r member
  simp only [decide_eq_true_eq]
  omega

/-- Methods were added to one service, and nothing else changed. -/
structure AddsMethods (serviceId : Nat) (contents : List StoredMethod) (db db' : Db) : Prop where
  snapshots : db'.snapshots = db.snapshots
  services : db'.services = db.services
  changes : db'.changes = db.changes
  snapshotSequence : db'.sequences.snapshots = db.sequences.snapshots
  serviceSequence : db'.sequences.services = db.sequences.services
  changeSequence : db'.sequences.changes = db.sequences.changes
  consistent : Consistent db'
  methods : ∀ id, methodsOf db' id = if id = serviceId then methodsOf db id ++ contents else methodsOf db id

theorem addMethod_adds {db : Db} (consistent : Consistent db) {serviceId : Nat}
    (known : serviceId < db.sequences.services) (m : ApiMethod) :
    AddsMethods serviceId [methodContent m] db (Db.addMethod serviceId db m) := by
  have oldFields : ∀ id, fieldsOf (Db.addMethod serviceId db m) id =
      if id = db.sequences.methods then sorted (fieldSet m) else fieldsOf db id := by
    intro id
    by_cases new : id = db.sequences.methods
    · subst new
      have none := fieldsOf_fresh consistent le_rfl
      simp only [fieldsOf, List.map_eq_nil_iff] at none
      simp [fieldsOf, Db.addMethod, Db.insertFields, Db.insertMethod, none, List.filter_map, Function.comp_def]
    · have other : db.sequences.methods ≠ id := fun same => new same.symm
      simp [fieldsOf, Db.addMethod, Db.insertFields, Db.insertMethod, new, other, List.filter_map, Function.comp_def]
  refine ⟨rfl, rfl, rfl, rfl, rfl, rfl, ?_, ?_⟩
  · refine ⟨consistent.snapshotIds, consistent.snapshotBound, consistent.serviceIds, consistent.serviceBound,
      consistent.serviceOwner, ascending_snoc consistent.methodIds consistent.methodBound, ?_, ?_, ?_,
      consistent.changeOwner⟩
    · intro r member
      rcases List.mem_append.mp member with old | new
      · exact Nat.lt_succ_of_lt (consistent.methodBound r old)
      · rw [List.mem_singleton.mp new]; exact Nat.lt_succ_self _
    · intro r member
      rcases List.mem_append.mp member with old | new
      · exact consistent.methodOwner r old
      · rw [List.mem_singleton.mp new]; exact known
    · intro r member
      rcases List.mem_append.mp member with old | new
      · exact Nat.lt_succ_of_lt (consistent.fieldOwner r old)
      · obtain ⟨n, -, rfl⟩ := List.mem_map.mp new
        exact Nat.lt_succ_self _
  · intro id
    have kept : ∀ r ∈ db.methods.filter (fun r => r.serviceId = id),
        storedMethod r (fieldsOf (Db.addMethod serviceId db m) r.id) = storedMethod r (fieldsOf db r.id) := by
      intro r member
      have old : r.id ≠ db.sequences.methods := Nat.ne_of_lt (consistent.methodBound r (List.mem_filter.mp member).1)
      rw [oldFields, if_neg old]
    have rows : (Db.addMethod serviceId db m).methods = db.methods ++ [methodRow db.sequences.methods serviceId m] := rfl
    rw [methodsOf, rows, List.filter_append, List.map_append, List.map_congr_left kept]
    by_cases same : id = serviceId
    · subst same
      simp [methodsOf, methodRow, storedMethod, methodContent, oldFields]
    · have other : serviceId ≠ id := fun equal => same equal.symm
      simp [methodsOf, methodRow, same, other]

theorem addMethods_adds {serviceId : Nat} (ms : List ApiMethod) :
    ∀ {db : Db}, Consistent db → serviceId < db.sequences.services →
      AddsMethods serviceId (ms.map methodContent) db (ms.foldl (Db.addMethod serviceId) db) := by
  induction ms with
  | nil =>
    intro db consistent _
    exact ⟨rfl, rfl, rfl, rfl, rfl, rfl, consistent, fun id => by simp⟩
  | cons m rest ih =>
    intro db consistent known
    have first := addMethod_adds consistent known m
    have tail := ih first.consistent (first.serviceSequence.symm ▸ known)
    rw [List.foldl_cons]
    refine ⟨tail.snapshots.trans first.snapshots, tail.services.trans first.services, tail.changes.trans first.changes,
      tail.snapshotSequence.trans first.snapshotSequence, tail.serviceSequence.trans first.serviceSequence,
      tail.changeSequence.trans first.changeSequence, tail.consistent, fun id => ?_⟩
    rw [tail.methods, first.methods]
    by_cases same : id = serviceId
    · simp [same]
    · simp [same]

/-! ### Writing services -/

/-- Services were added to one snapshot, and nothing else changed. -/
structure AddsServices (snapshotId : Nat) (contents : List StoredService) (db db' : Db) : Prop where
  snapshots : db'.snapshots = db.snapshots
  changes : db'.changes = db.changes
  snapshotSequence : db'.sequences.snapshots = db.sequences.snapshots
  changeSequence : db'.sequences.changes = db.sequences.changes
  consistent : Consistent db'
  services : ∀ id, servicesOf db' id = if id = snapshotId then servicesOf db id ++ contents else servicesOf db id

theorem consistent_insertService {db : Db} (consistent : Consistent db) {snapshotId : Nat}
    (known : snapshotId < db.sequences.snapshots) (name url : String) (hidden : Bool) :
    Consistent (Db.insertService db snapshotId name url hidden) := by
  refine ⟨consistent.snapshotIds, consistent.snapshotBound,
    ascending_snoc consistent.serviceIds consistent.serviceBound, ?_, ?_, consistent.methodIds, consistent.methodBound,
    fun r member => Nat.lt_succ_of_lt (consistent.methodOwner r member), consistent.fieldOwner, consistent.changeOwner⟩
  · intro r member
    rcases List.mem_append.mp member with old | new
    · exact Nat.lt_succ_of_lt (consistent.serviceBound r old)
    · rw [List.mem_singleton.mp new]; exact Nat.lt_succ_self _
  · intro r member
    rcases List.mem_append.mp member with old | new
    · exact consistent.serviceOwner r old
    · rw [List.mem_singleton.mp new]; exact known

/-- Under a new name the upsert inserts. -/
theorem upsertService_new {db : Db} {snapshotId : Nat} {name url : String} {hidden : Bool}
    (new : name ∉ (servicesOf db snapshotId).map StoredService.name) :
    Db.upsertService db snapshotId name url hidden =
      (db.sequences.services, Db.insertService db snapshotId name url hidden) := by
  have absent : db.services.find? (fun r => r.snapshotId = snapshotId ∧ r.name = name) = none := by
    rw [List.find?_eq_none]
    intro r member found
    simp only [decide_eq_true_eq] at found
    apply new
    simp only [servicesOf, List.map_map, List.mem_map, List.mem_filter, decide_eq_true_eq]
    exact ⟨r, ⟨member, found.1⟩, found.2⟩
  rw [Db.upsertService, absent]

theorem addService_adds {db : Db} (consistent : Consistent db) {snapshotId : Nat}
    (known : snapshotId < db.sequences.snapshots) {e : String × List ApiMethod}
    (new : e.1 ∉ (servicesOf db snapshotId).map StoredService.name) :
    AddsServices snapshotId [serviceContent e] db (Db.addService snapshotId db e) := by
  set inserted := Db.insertService db snapshotId e.1 (serviceUrl e.2) (serviceIsHidden (e.2.map ApiMethod.hidden))
    with insertedIs
  have written : Db.addService snapshotId db e = e.2.foldl (Db.addMethod db.sequences.services) inserted := by
    rw [Db.addService, upsertService_new new]
  have sound : Consistent inserted := consistent_insertService consistent known _ _ _
  have filled := addMethods_adds e.2 sound (Nat.lt_succ_self db.sequences.services)
  rw [← written] at filled
  refine ⟨filled.snapshots, filled.changes, filled.snapshotSequence, filled.changeSequence, filled.consistent,
    fun id => ?_⟩
  have sameMethods : ∀ serviceId, methodsOf inserted serviceId = methodsOf db serviceId := fun _ => rfl
  have kept : ∀ r ∈ db.services.filter (fun r => r.snapshotId = id),
      methodsOf (Db.addService snapshotId db e) r.id = methodsOf db r.id := by
    intro r member
    have old : r.id ≠ db.sequences.services := Nat.ne_of_lt (consistent.serviceBound r (List.mem_filter.mp member).1)
    rw [filled.methods, if_neg old, sameMethods]
  have own : methodsOf (Db.addService snapshotId db e) db.sequences.services = e.2.map methodContent := by
    rw [filled.methods, if_pos rfl, sameMethods, methodsOf_fresh consistent le_rfl, List.nil_append]
  rw [servicesOf, filled.services, insertedIs, Db.insertService, List.filter_append, List.map_append]
  have others : (db.services.filter (fun r => r.snapshotId = id)).map (storedService (Db.addService snapshotId db e)) =
      servicesOf db id := List.map_congr_left (fun r member => by rw [storedService, kept r member]; rfl)
  rw [others]
  by_cases same : id = snapshotId
  · subst same
    simp [storedService, own, serviceContent]
  · have other : snapshotId ≠ id := fun equal => same equal.symm
    simp [same, other]

theorem addServices_adds {snapshotId : Nat} (entries : List (String × List ApiMethod)) :
    ∀ {db : Db}, Consistent db → snapshotId < db.sequences.snapshots →
      ((servicesOf db snapshotId).map StoredService.name ++ entries.map Prod.fst).Nodup →
        AddsServices snapshotId (entries.map serviceContent) db (entries.foldl (Db.addService snapshotId) db) := by
  induction entries with
  | nil =>
    intro db consistent _ _
    exact ⟨rfl, rfl, rfl, rfl, consistent, fun id => by simp⟩
  | cons e rest ih =>
    intro db consistent known distinct
    have new : e.1 ∉ (servicesOf db snapshotId).map StoredService.name := by
      intro member
      exact (List.nodup_append.mp distinct).2.2 _ member e.1 (by simp) rfl
    have first := addService_adds consistent known new
    have names : (servicesOf (Db.addService snapshotId db e) snapshotId).map StoredService.name =
        (servicesOf db snapshotId).map StoredService.name ++ [e.1] := by
      rw [first.services, if_pos rfl, List.map_append]; rfl
    have tail := ih first.consistent (first.snapshotSequence.symm ▸ known) (by
      rw [names, List.append_assoc]; simpa using distinct)
    rw [List.foldl_cons]
    refine ⟨tail.snapshots.trans first.snapshots, tail.changes.trans first.changes,
      tail.snapshotSequence.trans first.snapshotSequence, tail.changeSequence.trans first.changeSequence,
      tail.consistent, fun id => ?_⟩
    rw [tail.services, first.services]
    by_cases same : id = snapshotId
    · simp [same]
    · simp [same]

/-! ### Writing a snapshot -/

/-- A snapshot with the given content was added, and nothing else changed. -/
structure AddsSnapshot (bank : String) (now : Nat) (contents : List StoredService) (db db' : Db) : Prop where
  snapshots : db'.snapshots = db.snapshots ++ [{ id := db.sequences.snapshots, bank, createdAt := now }]
  changes : db'.changes = db.changes
  snapshotSequence : db'.sequences.snapshots = db.sequences.snapshots + 1
  changeSequence : db'.sequences.changes = db.sequences.changes
  consistent : Consistent db'
  services : ∀ id, servicesOf db' id = if id = db.sequences.snapshots then contents else servicesOf db id

theorem consistent_insertSnapshot {db : Db} (consistent : Consistent db) (bank : String) (now : Nat) :
    Consistent (Db.insertSnapshot db bank now) := by
  refine ⟨ascending_snoc consistent.snapshotIds consistent.snapshotBound, ?_, consistent.serviceIds,
    consistent.serviceBound, fun r member => Nat.lt_succ_of_lt (consistent.serviceOwner r member), consistent.methodIds,
    consistent.methodBound, consistent.methodOwner, consistent.fieldOwner, ?_⟩
  · intro r member
    rcases List.mem_append.mp member with old | new
    · exact Nat.lt_succ_of_lt (consistent.snapshotBound r old)
    · rw [List.mem_singleton.mp new]; exact Nat.lt_succ_self _
  · intro r member id owner
    obtain ⟨s, stored, sameId, sameBank⟩ := consistent.changeOwner r member id owner
    exact ⟨s, List.mem_append_left _ stored, sameId, sameBank⟩

theorem addSnapshot_adds {db : Db} (consistent : Consistent db) (bank : String) (now : Nat)
    (snapshot : ParseSnapshot) :
    AddsSnapshot bank now (content snapshot) db (Db.addSnapshot db bank now snapshot) := by
  have sound := consistent_insertSnapshot consistent bank now
  have none : servicesOf db db.sequences.snapshots = [] := servicesOf_fresh consistent le_rfl
  have same : ∀ id, servicesOf (Db.insertSnapshot db bank now) id = servicesOf db id := fun _ => rfl
  have added := addServices_adds snapshot.services.entries sound (Nat.lt_succ_self db.sequences.snapshots) (by
    rw [same, none]; exact snapshot.services.distinct)
  refine ⟨added.snapshots, added.changes, added.snapshotSequence, added.changeSequence, added.consistent,
    fun id => ?_⟩
  rw [Db.addSnapshot, added.services, same]
  by_cases new : id = db.sequences.snapshots
  · simp [new, none, content]
  · simp [new]

end ScanApi.Stored
