import ScanApi.ImportRuns

/-!
What the dashboard and the benchmark read. Each public query is a function of the
snapshot rows and of the visible part of the stored services (`visiblePart`), so
two databases that agree on these give equal results up to row ids
(`sameQueries_of_visible`).
-/
namespace ScanApi.PublicQueries
open ScanApi.Diff ScanApi.Yaml ScanApi.JsonColumn ScanApi.Database ScanApi.Repository ScanApi.Stored ScanApi.ImportStep ScanApi.ReadBack
  ScanApi.ImportRuns

/-! ### Results up to row ids -/

def serviceNoIds (s : ServiceRow) : ServiceRow := { s with id := 0, snapshotId := 0 }
def methodNoIds (m : MethodView) : MethodView := { m with id := 0, serviceId := 0 }

/-- The same methods come back for the two services, up to row ids: whatever
    order rows that tie have in one database, they may have in the other. -/
def SameMethods (db : Db) (serviceId : Nat) (db' : Db) (serviceId' : Nat) : Prop :=
  ∀ order, ∃ order', (getServiceMethods order db serviceId false).map methodNoIds =
    (getServiceMethods order' db' serviceId' false).map methodNoIds

/-- The public queries give equal results up to row ids. -/
structure SameQueries (db db' : Db) : Prop where
  services : ∀ bank, (getBankServices db bank false).map serviceNoIds = (getBankServices db' bank false).map serviceNoIds
  methods : ∀ bank, List.Forall₂ (fun s s' => SameMethods db s.id db' s'.id ∧ SameMethods db' s'.id db s.id)
    (getBankServices db bank false) (getBankServices db' bank false)
  stats : getStats db false = getStats db' false
  benchmark : latestServices db = latestServices db'

/-! ### The visible part of a snapshot -/

def visibleMethods (methods : List StoredMethod) : List StoredMethod := methods.filter (fun m => !m.hidden)

/-- A service with its visible methods. -/
def visibleService (s : StoredService) : StoredService := { s with methods := visibleMethods s.methods }

def visiblePart (services : List StoredService) : List StoredService :=
  (services.filter (fun s => !s.hidden)).map visibleService

/-- Two databases with the same snapshot rows and the same visible parts. -/
structure SameVisible (db db' : Db) : Prop where
  snapshots : db.snapshots = db'.snapshots
  services : ∀ r ∈ db.snapshots, visiblePart (servicesOf db r.id) = visiblePart (servicesOf db' r.id)

theorem visiblePart_servicesOf (db : Db) (id : Nat) : visiblePart (servicesOf db id) =
    ((db.services.filter (fun s => s.snapshotId = id)).filter (fun s => !s.hidden)).map
      (fun s => visibleService (storedService db s)) := by
  rw [visiblePart, servicesOf, List.filter_map, List.map_map]
  rfl

/-! ### Services and their methods -/

/-- Sorting by a key of the images and mapping can be exchanged. -/
theorem map_orderBy {α β γ : Type} [LinearOrder β] (f : α → γ) (key : γ → β) (rows : List α) :
    (orderBy (fun a => key (f a)) rows).map f = orderBy key (rows.map f) :=
  List.map_insertionSort (fun a b => key (f a) ≤ key (f b)) (fun c d => key c ≤ key d) f rows (fun _ _ _ _ => Iff.rfl)

/-- A service is of the current snapshot of the bank. -/
theorem any_current {db : Db} (consistent : Consistent db) (bank : String) (s : ServiceRow) :
    db.snapshots.any (fun sn => sn.id = s.snapshotId ∧ sn.bank = bank ∧ some sn.id = maxSnapshotId db bank) =
      decide ((latestSnapshot db bank).map SnapshotRow.id = some s.snapshotId) := by
  rw [maxSnapshotId_eq consistent, Bool.eq_iff_iff, List.any_eq_true, decide_eq_true_eq]
  constructor
  · rintro ⟨sn, _, both⟩
    obtain ⟨sameId, _, top⟩ := of_decide_eq_true both
    rw [← sameId, top]
  · intro top
    obtain ⟨r, latest, sameId⟩ := Option.map_eq_some_iff.mp top
    obtain ⟨stored, isBank, -⟩ := (latestSnapshot_iff consistent).mp latest
    exact ⟨r, stored, decide_eq_true ⟨sameId, isBank, by rw [latest]; rfl⟩⟩

/-- The services of the current snapshot, by name. -/
theorem getBankServices_rows {db : Db} (consistent : Consistent db) (bank : String) (includeHidden : Bool) :
    getBankServices db bank includeHidden = match latestSnapshot db bank with
      | none => []
      | some r => orderBy ServiceRow.name
          ((db.services.filter (fun s => s.snapshotId = r.id)).filter (fun s => includeHidden || !s.hidden)) := by
  have current := any_current consistent bank
  simp only [getBankServices, current]
  cases latest : latestSnapshot db bank with
  | none => simp [orderBy]
  | some r =>
    simp only [Option.map_some, Option.some.injEq, List.filter_filter]
    congr 1
    apply List.filter_congr
    intro s _
    by_cases own : r.id = s.snapshotId
    · simp [own]
    · have other : s.snapshotId ≠ r.id := fun same => own same.symm
      simp [own, other]

/-- The visible services of the current snapshot, by name. -/
theorem getBankServices_eq {db : Db} (consistent : Consistent db) (bank : String) :
    getBankServices db bank false = match latestSnapshot db bank with
      | none => []
      | some r => orderBy ServiceRow.name
          ((db.services.filter (fun s => s.snapshotId = r.id)).filter (fun s => !s.hidden)) :=
  getBankServices_rows consistent bank false

/-- Sorting by name and looking at the visible part can be exchanged. -/
theorem map_visibleService_orderBy (db : Db) (rows : List ServiceRow) :
    (orderBy ServiceRow.name rows).map (fun s => visibleService (storedService db s)) =
      orderBy StoredService.name (rows.map (fun s => visibleService (storedService db s))) :=
  map_orderBy (fun s => visibleService (storedService db s)) StoredService.name rows

theorem getBankServices_visible {db db' : Db} (consistent : Consistent db) (consistent' : Consistent db')
    (same : SameVisible db db') (bank : String) :
    (getBankServices db bank false).map (fun s => visibleService (storedService db s)) =
      (getBankServices db' bank false).map (fun s => visibleService (storedService db' s)) := by
  have latestSame : latestSnapshot db bank = latestSnapshot db' bank := by
    rw [latestSnapshot, latestSnapshot, same.snapshots]
  rw [getBankServices_eq consistent, getBankServices_eq consistent', ← latestSame]
  cases latest : latestSnapshot db bank with
  | none => rfl
  | some r =>
    have stored := ((latestSnapshot_iff consistent).mp latest).1
    simp only [map_visibleService_orderBy, ← visiblePart_servicesOf, same.services r stored]

section
variable {α β : Type}

/-- A permutation of the images is the image of a permutation. -/
theorem exists_perm_map {f : α → β} : ∀ {l : List α} {images : List β}, images.Perm (l.map f) →
    ∃ l' : List α, l'.Perm l ∧ l'.map f = images := by
  intro l images
  induction images generalizing l with
  | nil =>
    intro perm
    have none := List.map_eq_nil_iff.mp (List.nil_perm.mp perm)
    exact ⟨[], by rw [none], rfl⟩
  | cons b rest ih =>
    intro perm
    obtain ⟨a, member, image⟩ := List.mem_map.mp (perm.mem_iff.mp List.mem_cons_self)
    obtain ⟨before, after, split⟩ := List.append_of_mem member
    have moved : l.Perm (a :: (before ++ after)) := split ▸ List.perm_middle
    have tail : rest.Perm ((before ++ after).map f) := by
      have whole := perm.trans (moved.map f)
      rw [List.map_cons, image] at whole
      exact List.Perm.cons_inv whole
    obtain ⟨l', perm', images'⟩ := ih tail
    exact ⟨a :: l', (perm'.cons a).trans moved.symm, by rw [List.map_cons, image, images']⟩

open Classical in
/-- Rows that look the same may come in the same order. -/
theorem exists_rowOrder {f g : α → β} {rows rows' : List α} (same : rows.map f = rows'.map g) (order : RowOrder α) :
    ∃ order' : RowOrder α, (order.order rows).map f = (order'.order rows').map g := by
  obtain ⟨l', perm, images⟩ := exists_perm_map (f := g) (((order.perm rows).map f).trans (List.Perm.of_eq same))
  refine ⟨⟨fun l => if l = rows' then l' else l, fun l => ?_⟩, by simp [images]⟩
  by_cases here : l = rows'
  · simp only [here, if_true]; exact perm
  · simp only [here, if_false]; exact .refl l

end

/-- A stored method as `getServiceMethods` returns it, up to row ids. -/
def methodView (m : StoredMethod) : MethodView where
  id := 0
  serviceId := 0
  name := m.name
  httpMethod := m.httpMethod
  path := m.path.getD ""
  url := m.url
  description := m.description
  hidden := m.hidden
  hiddenReason := m.hiddenReason
  requestExample := reread m.requestExample
  responseExample := reread m.responseExample

theorem sameMethods_of_visible {db db' : Db} {serviceId serviceId' : Nat}
    (same : visibleMethods (methodsOf db serviceId) = visibleMethods (methodsOf db' serviceId')) :
    SameMethods db serviceId db' serviceId' := by
  have rowsOf : ∀ (db : Db) id, (db.methods.filter (fun m => m.serviceId = id ∧ (false = true ∨ m.hidden = false))).map
      (fun m => storedMethod m (fieldsOf db m.id)) = visibleMethods (methodsOf db id) := by
    intro db id
    rw [visibleMethods, methodsOf, List.filter_map, List.filter_filter]
    congr 1
    apply List.filter_congr
    intro m _
    cases shown : m.hidden <;> simp [storedMethod, shown]
  intro order
  obtain ⟨order', images⟩ := exists_rowOrder ((rowsOf db serviceId).trans (same.trans (rowsOf db' serviceId').symm)) order
  refine ⟨order', ?_⟩
  have viewed : ∀ (db : Db) (rows : List MethodRow),
      ((orderBy (fun m : MethodRow => toLex (m.httpMethod, m.path.getD m.name)) rows).map MethodRow.view).map methodNoIds =
        (orderBy (fun m : StoredMethod => toLex (m.httpMethod, m.path.getD m.name))
          (rows.map (fun m => storedMethod m (fieldsOf db m.id)))).map methodView := by
    intro db rows
    rw [← map_orderBy (fun m => storedMethod m (fieldsOf db m.id)), List.map_map, List.map_map]
    rfl
  rw [getServiceMethods, getServiceMethods, viewed db, viewed db', images]

/-! ### Statistics -/

/-- The identifiers counted are those of the list. -/
theorem countDistinct_eq {ids : List (Option Nat)} {l : List Nat} (distinct : l.Nodup)
    (same : ∀ id, some id ∈ ids ↔ id ∈ l) : countDistinct ids = l.length := by
  have perm : (ids.filterMap id).dedup.Perm l := by
    refine (List.perm_ext_iff_of_nodup (List.nodup_dedup _) distinct).mpr (fun a => ?_)
    rw [List.mem_dedup, ← same]
    simp
  exact perm.length_eq

/-- A column that holds the values of a list, by their keys. -/
theorem countDistinct_column {α β : Type} {value : α → Option β} {key : β → Nat} {rows : List α} {l : List β}
    (distinct : (l.map key).Nodup) (column : ∀ b, some b ∈ rows.map value ↔ b ∈ l) (keep : β → Bool) :
    countDistinct ((rows.filter (fun r => (value r).any keep)).map (fun r => (value r).map key)) = (l.filter keep).length := by
  have counted : ∀ id, some id ∈ (rows.filter (fun r => (value r).any keep)).map (fun r => (value r).map key) ↔
      id ∈ (l.filter keep).map key := by
    intro id
    simp only [List.mem_map, List.mem_filter]
    constructor
    · rintro ⟨r, ⟨inside, kept⟩, same⟩
      obtain ⟨b, found, rfl⟩ := Option.map_eq_some_iff.mp same
      rw [found] at kept
      exact ⟨b, ⟨(column b).mp (found ▸ List.mem_map_of_mem inside), kept⟩, rfl⟩
    · rintro ⟨b, ⟨member, kept⟩, rfl⟩
      obtain ⟨r, inside, found⟩ := List.mem_map.mp ((column b).mpr member)
      exact ⟨r, ⟨inside, by rw [found]; exact kept⟩, by rw [found]; rfl⟩
  rw [countDistinct_eq (distinct.sublist (List.filter_sublist.map _)) counted, List.length_map]

/-- Rows without the value do not count. -/
theorem countDistinct_any {α β : Type} (value : α → Option β) (key : β → Nat) (rows : List α) :
    countDistinct ((rows.filter (fun r => (value r).any (fun _ => true))).map (fun r => (value r).map key)) =
      countDistinct (rows.map (fun r => (value r).map key)) := by
  have same : ((rows.filter (fun r => (value r).any (fun _ => true))).map (fun r => (value r).map key)).filterMap id =
      (rows.map (fun r => (value r).map key)).filterMap id := by
    induction rows with
    | nil => rfl
    | cons r rest ih =>
      cases here : value r with
      | none => simpa [here] using ih
      | some b => simpa [here] using ih
  rw [countDistinct, same]
  rfl

/-- The rows of one snapshot: services, and the methods of each. -/
def joinBlock (s : SnapshotRow) (services : List ServiceRow) (methods : ServiceRow → List MethodRow) :
    List (SnapshotRow × Option ServiceRow × Option MethodRow) :=
  (leftJoin services).flatMap (fun sv => (leftJoin (sv.elim [] methods)).map (fun m => (s, sv, m)))

theorem mem_leftJoin {α : Type} {rows : List α} {a : α} : some a ∈ leftJoin rows ↔ a ∈ rows := by
  cases rows <;> simp [leftJoin]

theorem joinBlock_bank {s : SnapshotRow} {services : List ServiceRow} {methods : ServiceRow → List MethodRow} :
    joinBlock s services methods ≠ [] ∧ ∀ r ∈ joinBlock s services methods, r.1 = s := by
  constructor
  · obtain ⟨sv, rest, first⟩ := List.exists_cons_of_ne_nil (leftJoin_ne_nil services)
    simp [joinBlock, first, leftJoin_ne_nil]
  · intro r member
    obtain ⟨sv, _, inside⟩ := List.mem_flatMap.mp member
    obtain ⟨m, _, rfl⟩ := List.mem_map.mp inside
    rfl

section
variable (s : SnapshotRow) {services : List ServiceRow} (methods : ServiceRow → List MethodRow)

theorem mem_joinBlock_services (sv : ServiceRow) :
    some sv ∈ (joinBlock s services methods).map (fun r => r.2.1) ↔ sv ∈ services := by
  simp only [joinBlock, List.mem_map, List.mem_flatMap]
  constructor
  · rintro ⟨_, ⟨_, inside, m, _, rfl⟩, rfl⟩
    exact mem_leftJoin.mp inside
  · intro inside
    obtain ⟨m, rest, first⟩ := List.exists_cons_of_ne_nil (leftJoin_ne_nil (methods sv))
    exact ⟨(s, some sv, m), ⟨some sv, mem_leftJoin.mpr inside, m, by simp [first], rfl⟩, rfl⟩

theorem mem_joinBlock_methods (m : MethodRow) :
    some m ∈ (joinBlock s services methods).map (fun r => r.2.2) ↔ m ∈ services.flatMap methods := by
  simp only [joinBlock, List.mem_map, List.mem_flatMap]
  constructor
  · rintro ⟨_, ⟨sv, inside, _, member, rfl⟩, rfl⟩
    cases sv with
    | none => simp [leftJoin] at member
    | some sv => exact ⟨sv, mem_leftJoin.mp inside, mem_leftJoin.mp member⟩
  · rintro ⟨sv, inside, member⟩
    exact ⟨(s, some sv, some m), ⟨some sv, mem_leftJoin.mpr inside, some m, mem_leftJoin.mpr member, rfl⟩, rfl⟩

theorem joinBlock_services (distinct : (services.map ServiceRow.id).Nodup) (keep : ServiceRow → Bool) :
    countDistinct (((joinBlock s services methods).filter (fun r => r.2.1.any keep)).map (fun r => r.2.1.map ServiceRow.id)) =
      (services.filter keep).length :=
  countDistinct_column distinct (mem_joinBlock_services s methods) keep

theorem joinBlock_methods (distinct : ((services.flatMap methods).map MethodRow.id).Nodup) (keep : MethodRow → Bool) :
    countDistinct (((joinBlock s services methods).filter (fun r => r.2.2.any keep)).map (fun r => r.2.2.map MethodRow.id)) =
      ((services.flatMap methods).filter keep).length :=
  countDistinct_column distinct (mem_joinBlock_methods s methods) keep

end

/-- A method has one service, so no method is joined twice. -/
theorem methodRows_distinct {db : Db} (consistent : Consistent db) {services : List ServiceRow}
    (ascending : (services.map ServiceRow.id).Pairwise (· < ·)) (keep : MethodRow → Bool) :
    ((services.flatMap (fun sv => (db.methods.filter (fun m => m.serviceId = sv.id)).filter keep)).map MethodRow.id).Nodup := by
  rw [List.map_flatMap, List.nodup_flatMap]
  refine ⟨fun sv _ => (ascending_filter _ (ascending_filter _ consistent.methodIds)).imp Nat.ne_of_lt, ?_⟩
  refine (List.pairwise_map.mp ascending).imp ?_
  intro sv sv' less
  simp only [Function.onFun, List.disjoint_left, List.mem_map]
  rintro _ ⟨m, inside, rfl⟩ ⟨m', inside', same⟩
  obtain ⟨stored, owner⟩ := List.mem_filter.mp (List.mem_of_mem_filter inside)
  obtain ⟨stored', owner'⟩ := List.mem_filter.mp (List.mem_of_mem_filter inside')
  have equal := row_unique consistent.methodIds stored' stored same
  subst equal
  have sameOwner : sv.id = sv'.id := (of_decide_eq_true owner).symm.trans (of_decide_eq_true owner')
  omega

/-- The visible services of a snapshot. -/
def visibleServiceRows (db : Db) (snapshotId : Nat) : List ServiceRow :=
  (db.services.filter (fun s => s.snapshotId = snapshotId)).filter (fun s => !s.hidden)
/-- The visible methods of a service. -/
def visibleMethodRows (db : Db) (serviceId : Nat) : List MethodRow :=
  (db.methods.filter (fun m => m.serviceId = serviceId)).filter (fun m => !m.hidden)

theorem visibleServiceRows_ascending {db : Db} (consistent : Consistent db) (snapshotId : Nat) :
    ((visibleServiceRows db snapshotId).map ServiceRow.id).Pairwise (· < ·) :=
  ascending_filter _ (ascending_filter _ consistent.serviceIds)

theorem visibleMethodRows_ascending {db : Db} (consistent : Consistent db) (serviceId : Nat) :
    ((visibleMethodRows db serviceId).map MethodRow.id).Pairwise (· < ·) :=
  ascending_filter _ (ascending_filter _ consistent.methodIds)

theorem visibleMethods_rows (db : Db) (serviceId : Nat) : visibleMethods (methodsOf db serviceId) =
    (visibleMethodRows db serviceId).map (fun m => storedMethod m (fieldsOf db m.id)) := by
  rw [visibleMethods, methodsOf, List.filter_map]
  rfl

theorem visiblePart_rows (db : Db) (snapshotId : Nat) : visiblePart (servicesOf db snapshotId) =
    (visibleServiceRows db snapshotId).map (fun s => visibleService (storedService db s)) :=
  visiblePart_servicesOf db snapshotId

/-- The rows that the statistics count for one snapshot. -/
def statsBlock (db : Db) (s : SnapshotRow) : List (SnapshotRow × Option ServiceRow × Option MethodRow) :=
  (leftJoin (visibleServiceRows db s.id)).flatMap (fun sv =>
    (leftJoin (sv.elim [] (fun sv => visibleMethodRows db sv.id))).map (fun m => (s, sv, m)))

theorem statsRows_eq (db : Db) : statsRows db false =
    (db.snapshots.filter (fun s => s.id ∈ maxSnapshotIds db)).flatMap (statsBlock db) := by
  have serviceRows : ∀ s : SnapshotRow,
      db.services.filter (fun sv => sv.snapshotId = s.id ∧ (false = true ∨ sv.hidden = false)) =
        visibleServiceRows db s.id := by
    intro s
    rw [visibleServiceRows, List.filter_filter]
    apply List.filter_congr
    intro sv _
    cases sv.hidden <;> simp
  have methodRows : ∀ sv : Option ServiceRow, db.methods.filter (fun m =>
      (sv.any (fun sv => m.serviceId = sv.id)) = true ∧ (false = true ∨ m.hidden = false)) =
        sv.elim [] (fun sv => visibleMethodRows db sv.id) := by
    intro sv
    cases sv with
    | none => simp
    | some sv =>
      rw [Option.elim_some, visibleMethodRows, List.filter_filter]
      apply List.filter_congr
      intro m _
      cases m.hidden <;> simp
  simp only [statsRows, serviceRows, methodRows]
  rfl

/-- What the statistics say about one snapshot. -/
def statsOf (db : Db) (s : SnapshotRow) : Stats where
  bank := s.bank
  serviceCount := (visiblePart (servicesOf db s.id)).length
  methodCount := ((visiblePart (servicesOf db s.id)).map (fun s => s.methods.length)).sum

theorem statsBlock_services {db : Db} (consistent : Consistent db) (s : SnapshotRow) :
    countDistinct ((statsBlock db s).map (fun r => r.2.1.map ServiceRow.id)) = (statsOf db s).serviceCount := by
  have distinct := (visibleServiceRows_ascending consistent s.id).imp Nat.ne_of_lt
  have counted := joinBlock_services s (fun sv => visibleMethodRows db sv.id) distinct (fun _ => true)
  rw [countDistinct_any, List.filter_eq_self.mpr (fun _ _ => rfl)] at counted
  rw [statsOf, visiblePart_rows, List.length_map]
  exact counted

theorem statsBlock_methods {db : Db} (consistent : Consistent db) (s : SnapshotRow) :
    countDistinct ((statsBlock db s).map (fun r => r.2.2.map MethodRow.id)) = (statsOf db s).methodCount := by
  have distinct := methodRows_distinct consistent (visibleServiceRows_ascending consistent s.id) (fun m => !m.hidden)
  have counted := joinBlock_methods s (fun sv => visibleMethodRows db sv.id) distinct (fun _ => true)
  rw [countDistinct_any, List.filter_eq_self.mpr (fun _ _ => rfl), List.length_flatMap] at counted
  have block : statsBlock db s = joinBlock s (visibleServiceRows db s.id) (fun sv => visibleMethodRows db sv.id) := rfl
  rw [block, counted, statsOf, visiblePart_rows, List.map_map]
  congr 1
  apply List.map_congr_left
  intro sv _
  simp [visibleService, storedService, visibleMethods_rows]

/-- A bank has one latest snapshot. -/
theorem latestBanks_distinct {db : Db} (consistent : Consistent db) :
    ((db.snapshots.filter (fun s => s.id ∈ maxSnapshotIds db)).map SnapshotRow.bank).Nodup := by
  have rows : db.snapshots.Nodup := List.Nodup.of_map _ (consistent.snapshotIds.imp Nat.ne_of_lt)
  refine List.Nodup.map_on ?_ (rows.filter _)
  intro r inside r' inside' sameBank
  obtain ⟨stored, top⟩ := List.mem_filter.mp inside
  obtain ⟨stored', top'⟩ := List.mem_filter.mp inside'
  have current := ((sameCurrent consistent r.bank).stats r stored rfl).mp (of_decide_eq_true top)
  have current' := ((sameCurrent consistent r.bank).stats r' stored' sameBank.symm).mp (of_decide_eq_true top')
  rw [current, Option.some.injEq] at current'
  exact row_unique consistent.snapshotIds stored stored' current'

theorem getStats_eq {db : Db} (consistent : Consistent db) : getStats db false =
    orderBy Stats.bank ((db.snapshots.filter (fun s => s.id ∈ maxSnapshotIds db)).map (statsOf db)) := by
  have groups := @Dict.groupBy_flatMap String _ (SnapshotRow × Option ServiceRow × Option MethodRow) _ _
    (fun r => r.1.bank) Prod.snd SnapshotRow.bank (statsBlock db) (db.snapshots.filter (fun s => s.id ∈ maxSnapshotIds db))
    (fun s _ r member => congrArg SnapshotRow.bank (joinBlock_bank.2 r member)) (fun s _ => joinBlock_bank.1)
    (latestBanks_distinct consistent)
  rw [getStats, statsRows_eq, groups, List.map_map]
  congr 1
  apply List.map_congr_left
  intro s _
  have services := statsBlock_services consistent s
  have methods := statsBlock_methods consistent s
  simp only [Function.comp_apply, List.map_map] at services methods ⊢
  exact congrArg₂ (Stats.mk s.bank) services methods

/-! ### Benchmark -/

theorem leftJoin_map {α β : Type} (f : α → β) (rows : List α) :
    leftJoin (rows.map f) = (leftJoin rows).map (Option.map f) := by
  cases rows <;> simp [leftJoin]

/-- What the benchmark says about one snapshot. -/
def benchmarkOf (db : Db) (l : SnapshotRow) : List BenchmarkRow :=
  (visiblePart (servicesOf db l.id)).flatMap (fun s => (leftJoin s.methods).map (fun m =>
    { bank := l.bank, createdAt := l.createdAt, service := s.name, path := m.bind StoredMethod.path }))

theorem latestOfBanks_ascending {db : Db} (consistent : Consistent db) :
    (latestOfBanks db).Pairwise (fun a b => a.bank < b.bank) := by
  set rows := orderBy (fun r : SnapshotRow => toLex (r.bank, OrderDual.toDual r.id)) db.snapshots with rowsAre
  have sub : (latestOfBanks db).Sublist rows := Dict.values_firstBy_sublist SnapshotRow.bank rows
  have inOrder : rows.Pairwise (fun a b => toLex (a.bank, OrderDual.toDual a.id) ≤ toLex (b.bank, OrderDual.toDual b.id)) :=
    List.pairwise_insertionSort (fun a b : SnapshotRow =>
      toLex (a.bank, OrderDual.toDual a.id) ≤ toLex (b.bank, OrderDual.toDual b.id)) db.snapshots
  have distinct : ((latestOfBanks db).map SnapshotRow.bank).Nodup := by
    have perm : rows.Perm db.snapshots := List.perm_insertionSort _ db.snapshots
    have stored : db.snapshots.Nodup := List.Nodup.of_map _ (consistent.snapshotIds.imp Nat.ne_of_lt)
    refine List.Nodup.map_on ?_ (sub.nodup (perm.nodup_iff.mpr stored))
    intro r inside r' inside' sameBank
    have latest := (mem_latestOfBanks consistent).mp inside
    have latest' := (mem_latestOfBanks consistent).mp inside'
    rw [sameBank, latest', Option.some.injEq] at latest
    exact latest.symm
  have banks := inOrder.sublist sub
  have apart := List.pairwise_map.mp distinct
  refine (banks.and apart).imp ?_
  rintro a b ⟨le, ne⟩
  rcases Prod.Lex.toLex_le_toLex.mp le with less | ⟨same, _⟩
  · exact less
  · exact absurd same ne

/-- The key of ORDER BY in `latestServices`. -/
def benchmarkKey (r : SnapshotRow × ServiceRow × Option MethodRow) : String ×ₗ (Nat ×ₗ Nat) :=
  toLex (r.1.bank, toLex (r.2.1.id, r.2.2.elim 0 MethodRow.id))

/-- The rows of the benchmark for one snapshot, before they are sorted. -/
def benchmarkBlock (db : Db) (l : SnapshotRow) : List (SnapshotRow × ServiceRow × Option MethodRow) :=
  (visibleServiceRows db l.id).flatMap (fun s => (leftJoin (visibleMethodRows db s.id)).map (fun m => (l, s, m)))

theorem benchmarkBlock_sorted {db : Db} (consistent : Consistent db) (l : SnapshotRow) :
    (benchmarkBlock db l).Pairwise (fun a b => benchmarkKey a ≤ benchmarkKey b) := by
  rw [benchmarkBlock, List.pairwise_flatMap]
  constructor
  · intro s _
    rw [List.pairwise_map]
    have ascending := List.pairwise_map.mp (visibleMethodRows_ascending consistent s.id)
    cases rows : visibleMethodRows db s.id with
    | nil => exact List.pairwise_singleton _ _
    | cons m rest =>
      rw [rows] at ascending
      have joined : leftJoin (m :: rest) = (m :: rest).map some := rfl
      rw [joined, List.pairwise_map]
      refine ascending.imp ?_
      intro a b less
      simp only [benchmarkKey, Option.elim_some, Prod.Lex.toLex_le_toLex]
      exact .inr ⟨trivial, .inr ⟨trivial, Nat.le_of_lt less⟩⟩
  · refine (List.pairwise_map.mp (visibleServiceRows_ascending consistent l.id)).imp ?_
    intro s s' less a inside b inside'
    obtain ⟨m, _, rfl⟩ := List.mem_map.mp inside
    obtain ⟨m', _, rfl⟩ := List.mem_map.mp inside'
    simp only [benchmarkKey, Prod.Lex.toLex_le_toLex]
    exact .inr ⟨trivial, .inl less⟩

theorem latestServices_eq {db : Db} (consistent : Consistent db) :
    latestServices db = (latestOfBanks db).flatMap (benchmarkOf db) := by
  have rows : (latestOfBanks db).flatMap (fun l =>
      (db.services.filter (fun s => s.snapshotId = l.id ∧ s.hidden = false)).flatMap (fun s =>
        (leftJoin (db.methods.filter (fun m => m.serviceId = s.id ∧ m.hidden = false))).map (fun m => (l, s, m)))) =
      (latestOfBanks db).flatMap (benchmarkBlock db) := by
    have serviceRows : ∀ id, db.services.filter (fun s => s.snapshotId = id ∧ s.hidden = false) =
        visibleServiceRows db id := by
      intro id
      rw [visibleServiceRows, List.filter_filter]
      apply List.filter_congr
      intro s _
      cases s.hidden <;> simp
    have methodRows : ∀ id, db.methods.filter (fun m => m.serviceId = id ∧ m.hidden = false) =
        visibleMethodRows db id := by
      intro id
      rw [visibleMethodRows, List.filter_filter]
      apply List.filter_congr
      intro m _
      cases m.hidden <;> simp
    simp only [serviceRows, methodRows]
    rfl
  have sorted : ((latestOfBanks db).flatMap (benchmarkBlock db)).Pairwise
      (fun a b => benchmarkKey a ≤ benchmarkKey b) := by
    rw [List.pairwise_flatMap]
    refine ⟨fun l _ => benchmarkBlock_sorted consistent l, (latestOfBanks_ascending consistent).imp ?_⟩
    intro l l' less a inside b inside'
    obtain ⟨s, _, insideRow⟩ := List.mem_flatMap.mp inside
    obtain ⟨m, _, rfl⟩ := List.mem_map.mp insideRow
    obtain ⟨s', _, insideRow'⟩ := List.mem_flatMap.mp inside'
    obtain ⟨m', _, rfl⟩ := List.mem_map.mp insideRow'
    simp only [benchmarkKey, Prod.Lex.toLex_le_toLex]
    exact .inl less
  have kept : orderBy benchmarkKey ((latestOfBanks db).flatMap (benchmarkBlock db)) =
      (latestOfBanks db).flatMap (benchmarkBlock db) := List.Pairwise.insertionSort_eq sorted
  have unfolded : latestServices db = (orderBy benchmarkKey ((latestOfBanks db).flatMap (benchmarkBlock db))).map (fun r =>
      { bank := r.1.bank, createdAt := r.1.createdAt, service := r.2.1.name, path := r.2.2.bind MethodRow.path }) := by
    rw [← rows]; rfl
  rw [unfolded, kept, List.map_flatMap]
  congr 1
  funext l
  simp only [benchmarkBlock, benchmarkOf, visiblePart_rows, List.map_flatMap, List.flatMap_map, List.map_map]
  congr 1
  funext s
  simp only [visibleService, storedService, visibleMethods_rows, leftJoin_map, List.map_map]
  apply List.map_congr_left
  intro m _
  cases m <;> rfl

/-! ### Equal visible parts -/

/-- Databases with the same visible parts answer the public queries alike. -/
theorem sameQueries_of_visible {db db' : Db} (consistent : Consistent db) (consistent' : Consistent db')
    (same : SameVisible db db') : SameQueries db db' := by
  have views := getBankServices_visible consistent consistent' same
  have latest : latestOfBanks db = latestOfBanks db' := by rw [latestOfBanks, latestOfBanks, same.snapshots]
  refine ⟨fun bank => ?_, fun bank => ?_, ?_, ?_⟩
  · have rows := congrArg (List.map (fun v : StoredService =>
      ({ id := 0, snapshotId := 0, name := v.name, url := v.url, hidden := v.hidden } : ServiceRow))) (views bank)
    rw [List.map_map, List.map_map] at rows
    exact rows
  · have pairs := views bank
    rw [← List.forall₂_eq_eq_eq, List.forall₂_map_left_iff, List.forall₂_map_right_iff] at pairs
    refine pairs.imp (fun s s' equal => ?_)
    have methods : visibleMethods (methodsOf db s.id) = visibleMethods (methodsOf db' s'.id) :=
      congrArg StoredService.methods equal
    exact ⟨sameMethods_of_visible methods, sameMethods_of_visible methods.symm⟩
  · rw [getStats_eq consistent, getStats_eq consistent', maxSnapshotIds, maxSnapshotIds, ← same.snapshots]
    congr 1
    apply List.map_congr_left
    intro s inside
    rw [statsOf, statsOf, same.services s (List.mem_of_mem_filter inside)]
  · rw [latestServices_eq consistent, latestServices_eq consistent', ← latest]
    apply List.flatMap_congr
    intro l inside
    have stored := ((latestSnapshot_iff consistent).mp ((mem_latestOfBanks consistent).mp inside)).1
    rw [benchmarkOf, benchmarkOf, same.services l stored]

end ScanApi.PublicQueries
