import ScanApi.Stored

/-!
Reading a snapshot back. The join of methods, services and fields, grouped by
method, is what the stored values say (`snapshotState_methods`), so what
`writeSnapshot` stored decodes to what was parsed
(`getSnapshotState_writeSnapshot`), in whatever order the rows come.
-/
namespace ScanApi.ReadBack
open ScanApi.Diff ScanApi.Database ScanApi.Repository ScanApi.SnapshotImport ScanApi.ImportEffect ScanApi.Stored

/-! ### Joins -/

section
variable {α β γ : Type}

theorem flatMap_ite (p : α → Prop) [DecidablePred p] (f : α → List β) (l : List α) :
    l.flatMap (fun a => if p a then f a else []) = (l.filter p).flatMap f := by
  induction l with
  | nil => rfl
  | cons a rest ih =>
    by_cases holds : p a
    · simp [holds, ih]
    · simp [holds, ih]

/-- A join has the same rows whichever table is read first. -/
theorem join_comm (on : α → β → Prop) [DecidableRel on] (l : List α) (l' : List β) :
    (l.flatMap (fun a => (l'.filter (on a)).map (fun b => (a, b)))).Perm
      (l'.flatMap (fun b => (l.filter (fun a => on a b)).map (fun a => (a, b)))) := by
  induction l with
  | nil => simp
  | cons a rest ih =>
    have step : l'.flatMap (fun b => ((a :: rest).filter (fun a => on a b)).map (fun a => (a, b))) =
        l'.flatMap (fun b => (if on a b then [(a, b)] else []) ++
          (rest.filter (fun a => on a b)).map (fun a => (a, b))) := by
      congr 1
      funext b
      by_cases holds : on a b <;> simp [holds]
    have first : (l'.filter (on a)).map (fun b => (a, b)) = l'.flatMap (fun b => if on a b then [(a, b)] else []) := by
      rw [flatMap_ite, ← List.map_eq_flatMap]
    rw [step, List.flatMap_cons, first]
    exact (List.Perm.append_left _ ih).trans (List.flatMap_append_perm l' _ _)

theorem leftJoin_ne_nil (rows : List α) : leftJoin rows ≠ [] := by
  cases rows <;> simp [leftJoin]

/-- The values of the right side, NULL aside. -/
theorem leftJoin_values (f : α → β) (rows : List α) : (leftJoin rows).filterMap (fun r => r.map f) = rows.map f := by
  cases rows with
  | nil => rfl
  | cons a rest => simp [leftJoin, List.filterMap_map]

end

/-! ### The state of a snapshot -/

/-- The methods of a snapshot with their services, as the query joins them. -/
def methodPairs (db : Db) (snapshotId : Nat) : List (MethodRow × ServiceRow) :=
  db.methods.flatMap (fun m =>
    (db.services.filter (fun s => s.id = m.serviceId ∧ s.snapshotId = snapshotId)).map (fun s => (m, s)))

def pairRow (db : Db) (p : MethodRow × ServiceRow) : StateRow where
  service := p.2.name
  httpMethod := p.1.httpMethod
  path := p.1.path.getD ""
  name := p.1.name
  url := p.1.url.getD ""
  hidden := p.1.hidden
  hiddenReason := p.1.hiddenReason
  fields := fieldsOf db p.1.id

theorem methodPairs_nodup {db : Db} (consistent : Consistent db) (snapshotId : Nat) :
    ((methodPairs db snapshotId).map (fun p => (p.1.id, p.2.name))).Nodup := by
  rw [methodPairs, List.map_flatMap, List.nodup_flatMap]
  constructor
  · intro m _
    rw [List.map_map]
    -- At most one service has the identifier.
    refine List.Nodup.map_on ?_ ?_
    · intro s inside s' inside' _
      obtain ⟨stored, on⟩ := List.mem_filter.mp inside
      obtain ⟨stored', on'⟩ := List.mem_filter.mp inside'
      have same : s.id = s'.id := (of_decide_eq_true on).1.trans (of_decide_eq_true on').1.symm
      exact row_unique consistent.serviceIds stored stored' same
    · exact (List.Nodup.of_map _ (consistent.serviceIds.imp Nat.ne_of_lt)).filter _
  · refine (List.pairwise_map.mp consistent.methodIds).imp ?_
    intro m m' less
    simp only [Function.onFun, List.disjoint_left, List.map_map, List.mem_map, Function.comp_apply]
    rintro _ ⟨s, _, rfl⟩ ⟨s', _, same⟩
    exact Nat.ne_of_lt less (congrArg Prod.fst same).symm

theorem groupRow_pair (db : Db) (p : MethodRow × ServiceRow) :
    groupRow ((leftJoin (db.fields.filter (fun f => f.methodId = p.1.id))).map (fun f => (p, f))) =
      some (pairRow db p) := by
  set joined := leftJoin (db.fields.filter (fun f => f.methodId = p.1.id)) with joinedIs
  have names : joined.filterMap (fun f => f.map FieldRow.name) = fieldsOf db p.1.id :=
    leftJoin_values FieldRow.name _
  obtain ⟨f, rest, rows⟩ := List.exists_cons_of_ne_nil (leftJoin_ne_nil (db.fields.filter (fun f => f.methodId = p.1.id)))
  have head : (joined.map (fun f => (p, f))).head? = some (p, f) := by rw [joinedIs, rows]; rfl
  rw [groupRow, head, List.filterMap_map]
  exact congrArg some (by rw [pairRow, ← names]; rfl)

/-- Grouping gives every method once, with all its fields. -/
theorem stateRows_eq {db : Db} (consistent : Consistent db) (snapshotId : Nat) :
    stateRows db snapshotId = (methodPairs db snapshotId).map (pairRow db) := by
  have groups := @Dict.groupBy_flatMap (Nat × String) ((MethodRow × ServiceRow) × Option FieldRow) _ _ _
    (fun r => (r.1.1.id, r.1.2.name)) id (fun p => (p.1.id, p.2.name))
    (fun p => (leftJoin (db.fields.filter (fun f => f.methodId = p.1.id))).map (fun f => (p, f)))
    (methodPairs db snapshotId)
    (by rintro p _ r member; obtain ⟨f, _, rfl⟩ := List.mem_map.mp member; rfl)
    (by intro p _; simpa using leftJoin_ne_nil _) (methodPairs_nodup consistent snapshotId)
  have rows : joinedRows db snapshotId = (methodPairs db snapshotId).flatMap (fun p =>
      (leftJoin (db.fields.filter (fun f => f.methodId = p.1.id))).map (fun f => (p, f))) := rfl
  rw [stateRows, Dict.values, rows, groups, List.map_map, List.filterMap_map,
    ← @List.filterMap_eq_map _ _ (pairRow db)]
  apply List.filterMap_congr
  intro p _
  simp only [Function.comp_apply, List.map_id]
  exact groupRow_pair db p

/-- The stored method as the diff sees it. -/
def StoredMethod.record (service : String) (m : StoredMethod) : MethodRecord where
  service
  httpMethod := m.httpMethod
  path := m.path.getD ""
  name := m.name
  url := m.url.getD ""
  fields := m.fields.toFinset
  hidden := m.hidden
  hiddenReason := m.hiddenReason

/-- The methods of stored services as the diff sees them. -/
def records (services : List StoredService) : List MethodRecord :=
  services.flatMap (fun s => s.methods.map (StoredMethod.record s.name))

/-- The methods read back are the stored ones, in some order. -/
theorem snapshotState_methods {db : Db} (consistent : Consistent db) (order : StateOrder) (snapshotId : Nat) :
    (snapshotState order db snapshotId).2.Perm (records (servicesOf db snapshotId)) := by
  have swapped : (methodPairs db snapshotId).Perm ((db.services.filter (fun s => s.snapshotId = snapshotId)).flatMap
      (fun s => (db.methods.filter (fun m => m.serviceId = s.id)).map (fun m => (m, s)))) := by
    refine (join_comm (fun (m : MethodRow) (s : ServiceRow) => s.id = m.serviceId ∧ s.snapshotId = snapshotId)
      db.methods db.services).trans (List.Perm.of_eq ?_)
    rw [← flatMap_ite]
    congr 1
    funext s
    by_cases inside : s.snapshotId = snapshotId
    · simp only [inside, and_true, if_true]
      congr 1
      exact List.filter_congr (fun m _ => by simp only [eq_comm])
    · simp [inside]
  have rows := (order.methods.perm (stateRows db snapshotId)).map StateRow.record
  refine rows.trans ?_
  rw [stateRows_eq consistent, List.map_map]
  refine (swapped.map _).trans (List.Perm.of_eq ?_)
  simp only [records, servicesOf, List.map_flatMap, List.flatMap_map, List.map_map]
  congr 1
  funext s
  simp only [storedService, methodsOf, List.map_map]
  rfl

/-- The links read back are those of the stored services. -/
theorem snapshotState_services {db : Db} (order : StateOrder) {snapshotId : Nat}
    (distinct : ((servicesOf db snapshotId).map StoredService.name).Nodup) (name url : String) :
    (snapshotState order db snapshotId).1.get? name = some url ↔
      (name, url) ∈ (servicesOf db snapshotId).map (fun s => (s.name, s.url.getD "")) := by
  have perm := (order.services.perm (db.services.filter (fun r => r.snapshotId = snapshotId))).map
    (fun r => (r.name, r.url.getD ""))
  have stored : (servicesOf db snapshotId).map (fun s => (s.name, s.url.getD "")) =
      (db.services.filter (fun r => r.snapshotId = snapshotId)).map (fun r => (r.name, r.url.getD "")) := by
    rw [servicesOf, List.map_map]; rfl
  have names : ((order.services.order (db.services.filter (fun r => r.snapshotId = snapshotId))).map
      (fun r => (r.name, r.url.getD ""))).map Prod.fst |>.Nodup := by
    rw [(perm.map Prod.fst).nodup_iff, ← stored, List.map_map]
    exact distinct
  rw [snapshotState, stored, ← perm.mem_iff]
  exact Dict.get?_ofEntries names name url

/-! ### What was parsed -/

theorem records_content (snapshot : ParseSnapshot) : records (content snapshot) = (snapshotToRecords snapshot).2 := by
  simp only [records, content, snapshotToRecords, List.flatMap_map]
  congr 1
  funext e
  simp only [serviceContent, List.map_map]
  apply List.map_congr_left
  intro m _
  have fields : (sorted (fieldSet m)).toFinset = fieldSet m := by ext name; simp
  simp [StoredMethod.record, methodContent, methodRecord, fields]

theorem content_names (snapshot : ParseSnapshot) :
    (content snapshot).map StoredService.name = snapshot.services.entries.map Prod.fst := by
  rw [content, List.map_map]; rfl

theorem content_services (snapshot : ParseSnapshot) (name url : String) :
    (snapshotToRecords snapshot).1.get? name = some url ↔
      (name, url) ∈ (content snapshot).map (fun s => (s.name, s.url.getD "")) := by
  rw [Dict.get?_eq_some, content, List.map_map]
  rfl

/-- A stored state reads back as a parsed snapshot: the same links, and the same
    methods in some order. -/
def ReadsAs (state : SnapshotState) (snapshot : ParseSnapshot) : Prop :=
  (∀ name, state.1.get? name = (snapshotToRecords snapshot).1.get? name) ∧
    state.2.Perm (snapshotToRecords snapshot).2

theorem readsAs_of_servicesOf {db : Db} (consistent : Consistent db) {id : Nat} {snapshot : ParseSnapshot}
    (stored : servicesOf db id = content snapshot) (order : StateOrder) :
    ReadsAs (snapshotState order db id) snapshot := by
  constructor
  · intro name
    have distinct : ((servicesOf db id).map StoredService.name).Nodup := by
      rw [stored, content_names]; exact snapshot.services.distinct
    apply Option.ext
    intro url
    rw [snapshotState_services order distinct, content_services, stored]
  · rw [← records_content, ← stored]
    exact snapshotState_methods consistent order id

/-- What `writeSnapshot` stored, `getSnapshotState` reads back as what was
    parsed, in whatever order the rows come. -/
theorem getSnapshotState_writeSnapshot {s s' : Session} (consistent : Consistent s.db) (bank : String)
    (snapshot : ParseSnapshot) (order : StateOrder) {state : SnapshotState}
    (returned : Prog.exec (do let id ← writeSnapshot bank snapshot; getSnapshotState order id) s = (.ok state, s')) :
    ReadsAs state snapshot := by
  obtain ⟨id, s₁, wrote, read⟩ := Prog.exec_bind_ok.mp returned
  obtain ⟨-, -, rfl, moved⟩ := writeSnapshot_ok wrote
  obtain ⟨-, rfl, -⟩ := query_ok.mp read
  have added := addSnapshot_adds consistent bank s.now snapshot
  rw [db_of_steady moved]
  refine readsAs_of_servicesOf added.consistent ?_ order
  rw [added.services, if_pos rfl]

theorem getSnapshotState_writeSnapshot_firstDay : ∃ state s',
    Prog.exec (do let id ← writeSnapshot "alfa" firstDay; getSnapshotState {} id) { db := {}, now := 0 } =
      (.ok state, s') ∧ ReadsAs state firstDay := by
  have storable : StorableSnapshot firstDay := by decide +kernel
  have short : "alfa".length ≤ 50 := by decide
  have wrote := @writeSnapshot_steady { db := {}, now := 0 } "alfa" firstDay rfl short storable
  have returned : Prog.exec (do let id ← writeSnapshot "alfa" firstDay; getSnapshotState {} id)
      { db := {}, now := 0 } = (.ok (snapshotState {} (Db.addSnapshot {} "alfa" 0 firstDay) 1),
        { db := Db.addSnapshot {} "alfa" 0 firstDay, now := 0 }) := by
    rw [Prog.exec_bind, wrote]
    exact query_steady rfl
  exact ⟨_, _, returned, getSnapshotState_writeSnapshot consistent_empty "alfa" firstDay {} returned⟩

end ScanApi.ReadBack
