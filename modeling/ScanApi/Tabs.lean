import ScanApi.VisibleCounts

/-!
The services of a bank as the dashboard lists them (`app/main.py`, `app/hidden_api.py`
and the pages over them). Of the last accepted import, the public page shows the
services that are not hidden, each with its visible methods, and the hidden tab
the hidden services with all of theirs (`pages_show`). The summary of the hidden tab
also counts the hidden methods of the services that are not hidden; no page lists
these. A row that is opened after further imports shows what it would have shown while
its snapshot is stored, and nothing when that is pruned (`opened_later`).
-/
namespace ScanApi.Tabs
open ScanApi.Diff ScanApi.Yaml ScanApi.JsonColumn ScanApi.Database ScanApi.Repository ScanApi.SnapshotImport
  ScanApi.ImportEffect ScanApi.Stored ScanApi.ImportStep ScanApi.ImportRuns ScanApi.PublicQueries ScanApi.VisibleCounts

/-! ### Answers -/

/-- `BANK_LABELS.get(bank, bank)`. -/
def bankLabel (bank : String) : String :=
  if bank = "tbank" then "Т-Банк"
  else if bank = "tochka" then "Точка"
  else if bank = "alfabank" then "Альфа-Банк"
  else if bank = "sber" then "Сбер"
  else bank

structure ServiceItem where
  id : Nat
  name : String
  url : Option String

structure MethodItem where
  id : Nat
  name : String
  httpMethod : String
  path : String
  url : Option String
  requestExample : Node
  responseExample : Node

structure HiddenMethodItem extends MethodItem where
  hiddenReason : Option String

structure HiddenBank where
  name : String
  label : String
  hiddenServices : Nat
  hiddenMethods : Nat
  byReason : Dict (Option String) Nat

def serviceItem (s : ServiceRow) : ServiceItem where
  id := s.id
  name := s.name
  url := s.url

def methodItem (m : MethodView) : MethodItem where
  id := m.id
  name := m.name
  httpMethod := m.httpMethod
  path := m.path
  url := m.url
  requestExample := m.requestExample
  responseExample := m.responseExample

def hiddenMethodItem (m : MethodView) : HiddenMethodItem := { methodItem m with hiddenReason := m.hiddenReason }

def apiServices (db : Db) (bank : String) : List ServiceItem := (getBankServices db bank false).map serviceItem

def apiMethods (order : RowOrder MethodRow) (db : Db) (serviceId : Nat) : List MethodItem :=
  (getServiceMethods order db serviceId false).map methodItem

def hiddenSummary (order : RowOrder ((String × Option String) × Nat)) (db : Db) : List HiddenBank :=
  (getHiddenSummary order db).map (fun r =>
    { name := r.bank
      label := bankLabel r.bank
      hiddenServices := r.hiddenServices
      hiddenMethods := r.hiddenMethods
      byReason := r.byReason })

def hiddenServices (db : Db) (bank : String) : List ServiceItem := (getHiddenServices db bank).map serviceItem

def hiddenMethods (order : RowOrder MethodRow) (db : Db) (serviceId : Nat) : List HiddenMethodItem :=
  (getHiddenMethods order db serviceId).map hiddenMethodItem

/-! ### Pages -/

/-- The services of a bank with every row opened (`BankView`, `ServiceRow`). -/
def bankPage (order : RowOrder MethodRow) (db : Db) (bank : String) : List (ServiceItem × List MethodItem) :=
  (apiServices db bank).map (fun s => (s, apiMethods order db s.id))

/-- The hidden tab of a bank with every row opened (`HiddenBankView`, `HiddenServiceRow`). -/
def hiddenPage (order : RowOrder MethodRow) (db : Db) (bank : String) : List (ServiceItem × List HiddenMethodItem) :=
  (hiddenServices db bank).map (fun s => (s, hiddenMethods order db s.id))

/-- The methods that a page lists. -/
def listed {α : Type} (page : List (ServiceItem × List α)) : Nat := (page.map (fun p => p.2.length)).sum

/-- A parsed method as the pages list it, but for its identifier. -/
def parsedItem (id : Nat) (m : ApiMethod) : MethodItem where
  id
  name := m.summary
  httpMethod := m.httpMethod
  path := m.path.getD ""
  url := some m.urlOnPortal
  requestExample := reread (storedExample m.requestExample)
  responseExample := reread (storedExample m.responseExample)

def parsedHiddenItem (id : Nat) (m : ApiMethod) : HiddenMethodItem :=
  { parsedItem id m with hiddenReason := m.hiddenReason }

/-- No service has both visible and hidden methods. -/
def Unmixed (snapshot : ParseSnapshot) : Prop :=
  ∀ e ∈ snapshot.services.entries, (∃ m ∈ e.2, m.hidden = true) → ∀ m ∈ e.2, m.hidden = true

def isHiddenService (e : String × List ApiMethod) : Bool := serviceIsHidden (e.2.map ApiMethod.hidden)

/-- The hidden methods of a snapshot with a reason. -/
def hiddenWith (snapshot : ParseSnapshot) (reason : Option String) : Nat :=
  ((snapshot.services.entries.flatMap Prod.snd).filter (fun m => m.hidden && m.hiddenReason = reason)).length

/-- The summary of a bank counts what its tab lists, and the hidden methods of services that are not hidden. -/
structure Summarized (order : RowOrder MethodRow) (db : Db) (bank : String) (snapshot : ParseSnapshot) (b : HiddenBank) :
    Prop where
  label : b.label = bankLabel bank
  services : b.hiddenServices = (hiddenPage order db bank).length
  methods : b.hiddenMethods = listed (hiddenPage order db bank) +
    ((apiServices db bank).map (fun s => (hiddenMethods order db s.id).length)).sum
  unmixed : b.hiddenMethods = listed (hiddenPage order db bank) ↔ Unmixed snapshot
  reasons : ∀ reason n, b.byReason.get? reason = some n ↔ 0 < n ∧ n = hiddenWith snapshot reason

/-- The pages of a bank show the snapshot. -/
structure PagesShow (order : RowOrder MethodRow) (reasons : RowOrder ((String × Option String) × Nat)) (db : Db)
    (bank : String) (snapshot : ParseSnapshot) : Prop where
  names : (bankPage order db bank).map (fun p => p.1.name) =
    orderBy id ((snapshot.services.entries.filter (fun e => !isHiddenService e)).map Prod.fst)
  methods : ∀ p ∈ bankPage order db bank, ∃ ms, snapshot.services.get? p.1.name = some ms ∧
    p.1.url = some (serviceUrl ms) ∧
    (p.2.map (fun m => { m with id := 0 })).Perm ((ms.filter (fun m => !m.hidden)).map (parsedItem 0))
  hiddenNames : (hiddenPage order db bank).map (fun p => p.1.name) =
    orderBy id ((snapshot.services.entries.filter isHiddenService).map Prod.fst)
  hidden : ∀ p ∈ hiddenPage order db bank, ∃ ms, snapshot.services.get? p.1.name = some ms ∧
    p.1.url = some (serviceUrl ms) ∧
    (p.2.map (fun m => { m with toMethodItem := { m.toMethodItem with id := 0 } })).Perm (ms.map (parsedHiddenItem 0))
  listed : ∃ b ∈ hiddenSummary reasons db, b.name = bank
  counted : ∀ b ∈ hiddenSummary reasons db, b.name = bank → Summarized order db bank snapshot b

/-! ### The current rows -/

theorem getHiddenServices_eq {db : Db} (consistent : Consistent db) (bank : String) :
    getHiddenServices db bank = match latestSnapshot db bank with
      | none => []
      | some r => orderBy ServiceRow.name ((serviceRows db r).filter ServiceRow.hidden) := by
  simp only [getHiddenServices, any_current consistent bank]
  cases latest : latestSnapshot db bank with
  | none => simp [orderBy]
  | some r =>
    simp only [serviceRows, Option.map_some, Option.some.injEq, List.filter_filter]
    congr 1
    apply List.filter_congr
    intro s _
    by_cases own : r.id = s.snapshotId
    · simp [own]
    · have other : s.snapshotId ≠ r.id := fun same => own same.symm
      simp [own, other]

variable {order : RowOrder MethodRow} {db : Db} {bank : String} {r : SnapshotRow} {snapshot : ParseSnapshot}

/-- The current rows of a bank, and the snapshot that they store. -/
structure Current (db : Db) (bank : String) (r : SnapshotRow) (snapshot : ParseSnapshot) : Prop where
  consistent : Consistent db
  latest : latestSnapshot db bank = some r
  stored : (serviceRows db r).map (storedService db) = snapshot.services.entries.map serviceContent

theorem current_of_last {w : World} (invariant : Invariant w) {a : Accepted}
    (last : (w.acceptedOf bank).getLast? = some a) : ∃ r, Current w.db bank r a.call.snapshot := by
  have found := latestSnapshot_stored invariant.consistent bank
  rw [invariant.last, last] at found
  obtain ⟨r, latest, image⟩ := Option.map_eq_some_iff.mp found
  exact ⟨r, invariant.consistent, latest, congrArg StoredSnapshot.services image⟩

/-- A row stores a service of the snapshot. -/
theorem Current.entry (current : Current db bank r snapshot) {s : ServiceRow} (inside : s ∈ serviceRows db r) :
    ∃ ms, snapshot.services.get? s.name = some ms ∧ s.url = some (serviceUrl ms) ∧
      s.hidden = isHiddenService (s.name, ms) ∧ methodsOf db s.id = ms.map methodContent := by
  have image : storedService db s ∈ snapshot.services.entries.map serviceContent :=
    current.stored ▸ List.mem_map_of_mem inside
  obtain ⟨⟨name, ms⟩, entry, same⟩ := List.mem_map.mp image
  obtain rfl : name = s.name := congrArg StoredService.name same
  exact ⟨ms, Dict.get?_eq_some.mpr entry, (congrArg StoredService.url same).symm,
    (congrArg StoredService.hidden same).symm, (congrArg StoredService.methods same).symm⟩

/-- The names of the services that pass a test of their flag. -/
theorem Current.names (current : Current db bank r snapshot) (p : Bool → Bool) :
    (orderBy ServiceRow.name ((serviceRows db r).filter (fun s => p s.hidden))).map ServiceRow.name =
      orderBy id ((snapshot.services.entries.filter (fun e => p (isHiddenService e))).map Prod.fst) := by
  have kept : ((serviceRows db r).filter (fun s => p s.hidden)).map ServiceRow.name =
      (((serviceRows db r).map (storedService db)).filter (fun s => p s.hidden)).map StoredService.name := by
    rw [List.filter_map, List.map_map]
    rfl
  have sorted := map_orderBy ServiceRow.name (id : String → String) ((serviceRows db r).filter (fun s => p s.hidden))
  rw [kept, current.stored, List.filter_map, List.map_map] at sorted
  exact sorted

/-- The stored methods of a service, as a page lists them. -/
def storedItem (m : StoredMethod) : HiddenMethodItem where
  id := 0
  name := m.name
  httpMethod := m.httpMethod
  path := m.path.getD ""
  url := m.url
  requestExample := reread m.requestExample
  responseExample := reread m.responseExample
  hiddenReason := m.hiddenReason

def unnumbered (m : HiddenMethodItem) : HiddenMethodItem := { m with toMethodItem := { m.toMethodItem with id := 0 } }

/-- The rows of the methods that pass a test of their flag, in the order of the query. -/
def methodsWhere (order : RowOrder MethodRow) (db : Db) (serviceId : Nat) (p : Bool → Bool) : List MethodView :=
  (orderBy (fun m => toLex (m.httpMethod, m.path.getD m.name)) (order.order (db.methods.filter (fun m =>
    m.serviceId = serviceId && p m.hidden)))).map MethodRow.view

theorem getServiceMethods_where (serviceId : Nat) : getServiceMethods order db serviceId false =
    methodsWhere order db serviceId (fun hidden => !hidden) := by
  have same : (fun m : MethodRow => decide (m.serviceId = serviceId ∧ (false = true ∨ m.hidden = false))) =
      fun m => decide (m.serviceId = serviceId) && !m.hidden := by
    funext m
    cases m.hidden <;> simp
  rw [getServiceMethods, methodsWhere, same]

theorem getHiddenMethods_where (serviceId : Nat) : getHiddenMethods order db serviceId =
    methodsWhere order db serviceId id := by
  have same : (fun m : MethodRow => decide (m.serviceId = serviceId ∧ m.hidden = true)) =
      fun m => decide (m.serviceId = serviceId) && m.hidden := by
    funext m
    cases m.hidden <;> simp
  rw [getHiddenMethods, methodsWhere, same]
  rfl

/-- A query lists the stored methods that pass its test, in some order. -/
theorem methodsWhere_perm (serviceId : Nat) (p : Bool → Bool) :
    ((methodsWhere order db serviceId p).map (fun m => unnumbered (hiddenMethodItem m))).Perm
      (((methodsOf db serviceId).filter (fun m => p m.hidden)).map storedItem) := by
  have rows : ((methodsOf db serviceId).filter (fun m => p m.hidden)).map storedItem =
      (db.methods.filter (fun m => m.serviceId = serviceId && p m.hidden)).map
        (fun m => unnumbered (hiddenMethodItem (MethodRow.view m))) := by
    rw [methodsOf, List.filter_map, List.map_map, List.filter_filter]
    refine congrArg (List.map _) (List.filter_congr ?_)
    intro m _
    exact Bool.and_comm _ _
  rw [rows, methodsWhere, List.map_map]
  exact ((List.perm_insertionSort _ _).trans (order.perm _)).map _

/-- What a query lists of a row of the snapshot. -/
theorem Current.listed (current : Current db bank r snapshot) {s : ServiceRow} (inside : s ∈ serviceRows db r) :
    ∃ ms, snapshot.services.get? s.name = some ms ∧ s.url = some (serviceUrl ms) ∧ s.hidden = isHiddenService (s.name, ms) ∧
      ∀ p, ((methodsWhere order db s.id p).map (fun m => unnumbered (hiddenMethodItem m))).Perm
        ((ms.filter (fun m => p m.hidden)).map (parsedHiddenItem 0)) := by
  obtain ⟨ms, found, url, flag, methods⟩ := current.entry inside
  refine ⟨ms, found, url, flag, fun p => ?_⟩
  have perm := @methodsWhere_perm order db s.id p
  rw [methods, List.filter_map, List.map_map] at perm
  exact perm

theorem Current.bankServices (current : Current db bank r snapshot) : getBankServices db bank false =
    orderBy ServiceRow.name ((serviceRows db r).filter (fun s => !s.hidden)) := by
  rw [getBankServices_eq current.consistent, current.latest]
  rfl

theorem Current.hiddenServices (current : Current db bank r snapshot) : getHiddenServices db bank =
    orderBy ServiceRow.name ((serviceRows db r).filter ServiceRow.hidden) := by
  rw [getHiddenServices_eq current.consistent, current.latest]

/-- The rows that a query sorts. -/
theorem mem_orderBy_filter {rows : List ServiceRow} {p : ServiceRow → Bool} {s : ServiceRow} :
    s ∈ orderBy ServiceRow.name (rows.filter p) ↔ s ∈ rows ∧ p s = true := by
  rw [orderBy, (List.perm_insertionSort _ _).mem_iff, List.mem_filter]

/-- The hidden methods of a row. -/
def hiddenCount (db : Db) (s : ServiceRow) : Nat := ((methodRows db s).filter MethodRow.hidden).length

theorem length_hiddenMethods (s : ServiceRow) : (hiddenMethods order db s.id).length = hiddenCount db s := by
  rw [hiddenMethods, getHiddenMethods_where, methodsWhere, List.length_map, List.length_map, orderBy,
    List.length_insertionSort, (order.perm _).length_eq, hiddenCount, methodRows, List.filter_filter]
  refine congrArg List.length (List.filter_congr ?_)
  intro m _
  exact Bool.and_comm _ _

theorem sum_orderBy (rows : List ServiceRow) (f : ServiceRow → Nat) :
    ((orderBy ServiceRow.name rows).map f).sum = (rows.map f).sum :=
  ((List.perm_insertionSort _ rows).map f).sum_eq

/-- A sum over rows, by their flag. -/
theorem sum_by_flag (rows : List ServiceRow) (f : ServiceRow → Nat) :
    (rows.map f).sum = ((rows.filter ServiceRow.hidden).map f).sum + ((rows.filter (fun s => !s.hidden)).map f).sum := by
  have perm := (List.filter_append_perm ServiceRow.hidden rows).map f
  rw [← perm.sum_eq, List.map_append, List.sum_append]

theorem Current.unmixed (current : Current db bank r snapshot) :
    (((serviceRows db r).filter (fun s => !s.hidden)).map (hiddenCount db)).sum = 0 ↔ Unmixed snapshot := by
  have counts : ∀ s ∈ serviceRows db r, ∃ ms, snapshot.services.get? s.name = some ms ∧
      s.hidden = isHiddenService (s.name, ms) ∧ hiddenCount db s = (ms.filter ApiMethod.hidden).length := by
    intro s inside
    obtain ⟨ms, found, -, flag, perm⟩ := @Current.listed (asStored MethodRow) _ _ _ _ current s inside
    have length := (perm id).length_eq
    rw [List.length_map, List.length_map, ← getHiddenMethods_where] at length
    rw [← @length_hiddenMethods (asStored MethodRow), hiddenMethods, List.length_map, length]
    exact ⟨ms, found, flag, rfl⟩
  rw [List.sum_eq_zero_iff_forall_eq_nat]
  constructor
  · rintro none e entry ⟨m, among, hidden⟩
    cases whole : isHiddenService e with
    | true => exact hidden_of_serviceIsHidden whole
    | false =>
      -- the row of the service is not hidden and would count the method
      have image : serviceContent e ∈ (serviceRows db r).map (storedService db) := current.stored ▸ List.mem_map_of_mem entry
      obtain ⟨s, inside, same⟩ := List.mem_map.mp image
      have shown : s.hidden = false := (congrArg StoredService.hidden same).trans whole
      obtain ⟨ms, found, -, count⟩ := counts s inside
      have name : s.name = e.1 := congrArg StoredService.name same
      obtain rfl : e.2 = ms := Option.some.inj ((Dict.get?_eq_some.mpr entry).symm.trans (name ▸ found))
      have zero : hiddenCount db s = 0 :=
        none _ (List.mem_map_of_mem (List.mem_filter.mpr ⟨inside, by simp [shown]⟩))
      rw [count, List.length_eq_zero_iff] at zero
      have counted : m ∈ e.2.filter ApiMethod.hidden := List.mem_filter.mpr ⟨among, hidden⟩
      rw [zero] at counted
      cases counted
  · rintro unmixed n member
    obtain ⟨s, inside, rfl⟩ := List.mem_map.mp member
    obtain ⟨inside, shown⟩ := List.mem_filter.mp inside
    obtain ⟨ms, found, flag, count⟩ := counts s inside
    rw [count, List.length_eq_zero_iff, List.filter_eq_nil_iff]
    intro m among hidden
    have all := unmixed (s.name, ms) (Dict.get?_eq_some.mp found) ⟨m, among, hidden⟩
    have whole : isHiddenService (s.name, ms) = true := by
      rw [isHiddenService, serviceIsHidden, Bool.and_eq_true, List.all_eq_true]
      exact ⟨by simp [List.ne_nil_of_mem among], by simpa using all⟩
    rw [flag, whole] at shown
    cases shown

/-- The hidden methods of the current rows with a reason are those of the snapshot. -/
theorem Current.hiddenWith (current : Current db bank r snapshot) (reason : Option String) :
    (((serviceRows db r).flatMap (methodRows db)).filter (fun m => m.hidden && m.hiddenReason = reason)).length =
      hiddenWith snapshot reason := by
  have counted := congrArg (fun services : List StoredService =>
    ((services.flatMap StoredService.methods).filter (fun m => m.hidden && m.hiddenReason = reason)).length) current.stored
  simp only [List.flatMap_map, List.filter_flatMap, List.length_flatMap] at counted ⊢
  rw [Tabs.hiddenWith, List.filter_flatMap, List.length_flatMap]
  have rows : ∀ s, ((storedService db s).methods.filter (fun m => m.hidden && m.hiddenReason = reason)).length =
      ((methodRows db s).filter (fun m => m.hidden && m.hiddenReason = reason)).length := by
    intro s
    rw [storedService, methodsOf, List.filter_map, List.length_map]
    rfl
  have entries : ∀ e : String × List ApiMethod,
      ((serviceContent e).methods.filter (fun m => m.hidden && m.hiddenReason = reason)).length =
        (e.2.filter (fun m => m.hidden && m.hiddenReason = reason)).length := by
    intro e
    rw [serviceContent, List.filter_map, List.length_map]
    rfl
  simpa only [rows, entries] using counted

theorem pagesShow (current : Current db bank r snapshot) (order : RowOrder MethodRow)
    (reasons : RowOrder ((String × Option String) × Nat)) : PagesShow order reasons db bank snapshot where
  names := by
    have sorted := current.names (fun hidden => !hidden)
    rw [bankPage, apiServices, current.bankServices, List.map_map, List.map_map]
    exact sorted
  methods p member := by
    rw [bankPage, apiServices, current.bankServices, List.map_map] at member
    obtain ⟨s, inside, rfl⟩ := List.mem_map.mp member
    obtain ⟨ms, found, url, -, perm⟩ := @Current.listed order _ _ _ _ current s (mem_orderBy_filter.mp inside).1
    refine ⟨ms, found, url, ?_⟩
    have shown := (perm (fun hidden => !hidden)).map HiddenMethodItem.toMethodItem
    rw [List.map_map, List.map_map, ← getServiceMethods_where] at shown
    rw [Function.comp_apply, apiMethods, List.map_map]
    exact shown
  hiddenNames := by
    have sorted := current.names id
    rw [hiddenPage, Tabs.hiddenServices, current.hiddenServices, List.map_map, List.map_map]
    exact sorted
  hidden p member := by
    rw [hiddenPage, Tabs.hiddenServices, current.hiddenServices, List.map_map] at member
    obtain ⟨s, inside, rfl⟩ := List.mem_map.mp member
    obtain ⟨stored, flag⟩ := mem_orderBy_filter.mp inside
    obtain ⟨ms, found, url, same, perm⟩ := @Current.listed order _ _ _ _ current s stored
    refine ⟨ms, found, url, ?_⟩
    have all : ms.filter (fun m => id m.hidden) = ms :=
      List.filter_eq_self.mpr (fun m among => hidden_of_serviceIsHidden (same.symm.trans flag) m among)
    have shown := perm id
    rw [all, ← getHiddenMethods_where] at shown
    rw [Function.comp_apply, hiddenMethods, List.map_map]
    exact shown
  listed := by
    have isBank := ((latestSnapshot_iff current.consistent).mp current.latest).2.1
    have top : r ∈ latestRows db := (mem_latestRows current.consistent).mpr (by rw [isBank]; exact current.latest)
    have row : hiddenOf db (reasonsOf reasons db) r ∈ getHiddenSummary reasons db := by
      rw [getHiddenSummary_eq current.consistent]
      exact (List.perm_insertionSort _ _).mem_iff.mpr (List.mem_map_of_mem top)
    exact ⟨_, List.mem_map_of_mem row, isBank⟩
  counted b member named := by
    obtain ⟨h, row, rfl⟩ := List.mem_map.mp member
    rw [getHiddenSummary_eq current.consistent] at row
    obtain ⟨r', top, rfl⟩ := List.mem_map.mp ((List.perm_insertionSort _ _).mem_iff.mp row)
    have latest := (mem_latestRows current.consistent).mp top
    obtain rfl : r'.bank = bank := named
    obtain rfl : r' = r := Option.some.inj (latest.symm.trans current.latest)
    have services : (hiddenPage order db r'.bank).length = ((serviceRows db r').filter ServiceRow.hidden).length := by
      rw [hiddenPage, Tabs.hiddenServices, current.hiddenServices, List.length_map, List.length_map, orderBy,
        List.length_insertionSort]
    have inTab : Tabs.listed (hiddenPage order db r'.bank) =
        (((serviceRows db r').filter ServiceRow.hidden).map (hiddenCount db)).sum := by
      rw [Tabs.listed, hiddenPage, Tabs.hiddenServices, current.hiddenServices, List.map_map, List.map_map,
        ← sum_orderBy _ (hiddenCount db)]
      exact congrArg List.sum (List.map_congr_left (fun s _ => length_hiddenMethods s))
    have elsewhere : ((apiServices db r'.bank).map (fun s => (hiddenMethods order db s.id).length)).sum =
        (((serviceRows db r').filter (fun s => !s.hidden)).map (hiddenCount db)).sum := by
      rw [apiServices, current.bankServices, List.map_map, ← sum_orderBy _ (hiddenCount db)]
      exact congrArg List.sum (List.map_congr_left (fun s _ => length_hiddenMethods s))
    have all : (((serviceRows db r').flatMap (methodRows db)).filter MethodRow.hidden).length =
        ((serviceRows db r').map (hiddenCount db)).sum := by
      rw [List.filter_flatMap, List.length_flatMap]
      rfl
    have counted : (hiddenOf db (reasonsOf reasons db) r').hiddenMethods = Tabs.listed (hiddenPage order db r'.bank) +
        (((serviceRows db r').filter (fun s => !s.hidden)).map (hiddenCount db)).sum := by
      rw [hiddenOf, all, sum_by_flag, inTab]
    refine ⟨rfl, services.symm, by rw [elsewhere]; exact counted, ?_, fun reason n => ?_⟩
    · rw [← current.unmixed]
      show (hiddenOf db (reasonsOf reasons db) r').hiddenMethods = _ ↔ _
      omega
    · rw [← current.hiddenWith, ← reasonRows_reason current.consistent top]
      exact get?_reasons reasons db r'.bank reason n

/-- After any imports, whatever became of each. -/
theorem pages_show (calls : List ImportCall) (bank : String) (order : RowOrder MethodRow)
    (reasons : RowOrder ((String × Option String) × Nat)) :
    match ((execute calls).acceptedOf bank).getLast? with
    | none => bankPage order (execute calls).db bank = [] ∧ hiddenPage order (execute calls).db bank = [] ∧
      ∀ b ∈ hiddenSummary reasons (execute calls).db, b.name ≠ bank
    | some a => PagesShow order reasons (execute calls).db bank a.call.snapshot := by
  have invariant := execute_invariant calls
  cases last : ((execute calls).acceptedOf bank).getLast? with
  | none =>
    have found := latestSnapshot_stored invariant.consistent bank
    rw [invariant.last, last] at found
    have latest := Option.map_eq_none_iff.mp found
    refine ⟨?_, ?_, ?_⟩
    · simp only [bankPage, apiServices, getBankServices_eq invariant.consistent, latest, List.map_nil]
    · simp only [hiddenPage, hiddenServices, getHiddenServices_eq invariant.consistent, latest, List.map_nil]
    · rintro b member rfl
      obtain ⟨h, row, rfl⟩ := List.mem_map.mp member
      rw [getHiddenSummary_eq invariant.consistent] at row
      obtain ⟨r, top, rfl⟩ := List.mem_map.mp ((List.perm_insertionSort _ _).mem_iff.mp row)
      have current := (mem_latestRows invariant.consistent).mp top
      rw [show latestSnapshot (execute calls).db r.bank = none from latest] at current
      cases current
  | some a =>
    obtain ⟨r, current⟩ := current_of_last invariant last
    exact pagesShow current order reasons

-- The hidden method of a service that is not hidden is counted, and listed nowhere.
example : (hiddenSummary (asStored _) (execute [{ bank := "alfabank", snapshot := firstDay, minRatio := 1 / 2, keep := 7 }]).db).map
      (fun b => (b.name, b.hiddenServices, b.hiddenMethods)) = [("alfabank", 0, 1)] ∧
    hiddenPage (asStored _) (execute [{ bank := "alfabank", snapshot := firstDay, minRatio := 1 / 2, keep := 7 }]).db
      "alfabank" = [] := by
  decide +kernel

/-! ### Rows that are opened later -/

/-- The rows with an identifier of a service: its own, and those of its methods. -/
def rowsOf (db : Db) (id : Nat) : List ServiceRow × List MethodRow :=
  (db.services.filter (fun s => s.id = id), db.methods.filter (fun m => m.serviceId = id))

/-- Two databases with the same services below a bound, and the same methods of these. -/
structure SameBelow (bound : Nat) (db db' : Db) : Prop where
  services : db'.services.filter (fun s => s.id < bound) = db.services.filter (fun s => s.id < bound)
  methods : db'.methods.filter (fun m => m.serviceId < bound) = db.methods.filter (fun m => m.serviceId < bound)

theorem SameBelow.trans {bound : Nat} {db₁ db₂ db₃ : Db} (first : SameBelow bound db₁ db₂)
    (second : SameBelow bound db₂ db₃) : SameBelow bound db₁ db₃ :=
  ⟨second.services.trans first.services, second.methods.trans first.methods⟩

theorem filter_below {α : Type} {key : α → Nat} {l l' : List α} {bound id : Nat} (below : id < bound)
    (same : l'.filter (fun a => key a < bound) = l.filter (fun a => key a < bound)) :
    l'.filter (fun a => key a = id) = l.filter (fun a => key a = id) := by
  have narrow : ∀ l : List α, (l.filter (fun a => key a < bound)).filter (fun a => key a = id) =
      l.filter (fun a => key a = id) := by
    intro l
    rw [List.filter_filter]
    refine List.filter_congr ?_
    intro a _
    by_cases here : key a = id
    · simp [here, below]
    · simp [here]
  rw [← narrow l', same, narrow]

theorem SameBelow.rows {bound id : Nat} {db db' : Db} (same : SameBelow bound db db') (below : id < bound) :
    rowsOf db' id = rowsOf db id :=
  Prod.ext (filter_below below same.services) (filter_below below same.methods)

/-- A method of a service at or above the bound. -/
theorem sameBelow_addMethod {bound serviceId : Nat} (above : bound ≤ serviceId) (db : Db) (m : ApiMethod) :
    SameBelow bound db (Db.addMethod serviceId db m) where
  services := rfl
  methods := by
    have other : ¬ serviceId < bound := Nat.not_lt.mpr above
    show (db.methods ++ [methodRow db.sequences.methods serviceId m]).filter _ = _
    rw [List.filter_append]
    simp [methodRow, other]

theorem sameBelow_addMethods {bound serviceId : Nat} (above : bound ≤ serviceId) (ms : List ApiMethod) (db : Db) :
    SameBelow bound db (ms.foldl (Db.addMethod serviceId) db) ∧
      (ms.foldl (Db.addMethod serviceId) db).services = db.services ∧
      (ms.foldl (Db.addMethod serviceId) db).sequences.services = db.sequences.services := by
  induction ms generalizing db with
  | nil => exact ⟨⟨rfl, rfl⟩, rfl, rfl⟩
  | cons m rest ih =>
    obtain ⟨same, services, sequence⟩ := ih (Db.addMethod serviceId db m)
    exact ⟨(sameBelow_addMethod above db m).trans same, services, sequence⟩

/-- The services of the snapshot that is written, and those to come, are at or above the bound. -/
structure Above (bound snapshotId : Nat) (db : Db) : Prop where
  own : ∀ s ∈ db.services, s.snapshotId = snapshotId → bound ≤ s.id
  sequence : bound ≤ db.sequences.services

theorem sameBelow_upsertService {bound snapshotId : Nat} {db : Db} (above : Above bound snapshotId db) (name url : String)
    (hidden : Bool) : bound ≤ (Db.upsertService db snapshotId name url hidden).1 ∧
      SameBelow bound db (Db.upsertService db snapshotId name url hidden).2 ∧
      Above bound snapshotId (Db.upsertService db snapshotId name url hidden).2 := by
  cases found : db.services.find? (fun r => r.snapshotId = snapshotId ∧ r.name = name) with
  | some old =>
    have passed := List.find?_some found
    simp only [decide_eq_true_eq] at passed
    have own : bound ≤ old.id := above.own old (List.mem_of_find?_eq_some found) passed.1
    set written : ServiceRow → ServiceRow := fun r => if r.id = old.id then { r with url := some url, hidden } else r
    have ids : ∀ r, (written r).id = r.id ∧ (written r).snapshotId = r.snapshotId := by
      intro r
      by_cases same : r.id = old.id <;> simp [written, same]
    rw [Db.upsertService, found]
    refine ⟨own, ⟨?_, rfl⟩, ?_, above.sequence⟩
    · show (db.services.map written).filter _ = _
      have tests : (fun s : ServiceRow => decide (s.id < bound)) ∘ written = fun s => decide (s.id < bound) := by
        funext r
        simp [(ids r).1]
      have kept : ∀ r ∈ db.services.filter (fun s => s.id < bound), written r = id r := by
        intro r member
        have below : r.id < bound := of_decide_eq_true (List.mem_filter.mp member).2
        exact if_neg (Nat.ne_of_lt (Nat.lt_of_lt_of_le below own))
      rw [List.filter_map, tests, List.map_congr_left kept, List.map_id]
    · rintro r member ofSnapshot
      obtain ⟨r', stored, rfl⟩ := List.mem_map.mp member
      rw [(ids r').1]
      exact above.own r' stored ((ids r').2.symm.trans ofSnapshot)
  | none =>
    rw [Db.upsertService, found]
    have other : ¬ db.sequences.services < bound := Nat.not_lt.mpr above.sequence
    refine ⟨above.sequence, ⟨?_, rfl⟩, ?_, Nat.le_succ_of_le above.sequence⟩
    · simp [Db.insertService, List.filter_append, other]
    · intro r member ofSnapshot
      rcases List.mem_append.mp member with old | new
      · exact above.own r old ofSnapshot
      · rw [List.mem_singleton.mp new]
        exact above.sequence

theorem sameBelow_addService {bound snapshotId : Nat} {db : Db} (above : Above bound snapshotId db)
    (e : String × List ApiMethod) : SameBelow bound db (Db.addService snapshotId db e) ∧
      Above bound snapshotId (Db.addService snapshotId db e) := by
  obtain ⟨here, written, still⟩ := sameBelow_upsertService above e.1 (serviceUrl e.2) (serviceIsHidden (e.2.map ApiMethod.hidden))
  obtain ⟨filled, services, sequence⟩ := sameBelow_addMethods here e.2
    (Db.upsertService db snapshotId e.1 (serviceUrl e.2) (serviceIsHidden (e.2.map ApiMethod.hidden))).2
  refine ⟨written.trans filled, ?_, ?_⟩
  · rw [Db.addService, services]
    exact still.own
  · rw [Db.addService, sequence]
    exact still.sequence

theorem sameBelow_addServices {bound snapshotId : Nat} (entries : List (String × List ApiMethod)) {db : Db}
    (above : Above bound snapshotId db) : SameBelow bound db (entries.foldl (Db.addService snapshotId) db) := by
  induction entries generalizing db with
  | nil => exact ⟨rfl, rfl⟩
  | cons e rest ih =>
    obtain ⟨same, still⟩ := sameBelow_addService above e
    exact same.trans (ih still)

/-- A call writes no row of a service that there was. -/
theorem sameBelow_stored {db : Db} (consistent : Consistent db) (c : ImportCall) :
    SameBelow db.sequences.services db (c.stored db) := by
  have above : Above db.sequences.services db.sequences.snapshots (Db.insertSnapshot db c.bank c.now) := by
    refine ⟨fun s member ofSnapshot => ?_, le_rfl⟩
    exact absurd ofSnapshot (Nat.ne_of_lt (consistent.serviceOwner s member))
  have written := sameBelow_addServices c.snapshot.services.entries above
  exact ⟨written.services, written.methods⟩

/-- Pruning leaves the rows of a service whose snapshot is kept. -/
theorem rowsOf_kept {db : Db} {ids : List Nat} {id : Nat} (stays : ∀ s ∈ db.services, s.id = id → s.snapshotId ∉ ids) :
    rowsOf (Db.deleteSnapshots db ids) id = rowsOf db id := by
  refine Prod.ext ?_ ?_
  · show (db.services.filter (fun r => r.snapshotId ∉ ids)).filter (fun r => r.id = id) = _
    rw [List.filter_filter]
    refine List.filter_congr ?_
    intro s stored
    by_cases same : s.id = id
    · simp [same, stays s stored same]
    · simp [same]
  · refine (filter_owner MethodRow.serviceId db.methods _ id).trans (if_neg ?_)
    intro pruned
    obtain ⟨s, inside, same⟩ := List.mem_map.mp pruned
    obtain ⟨stored, gone⟩ := List.mem_filter.mp inside
    exact stays s stored same (of_decide_eq_true gone)

/-- Pruning takes all rows of a service of a pruned snapshot. -/
theorem rowsOf_pruned {db : Db} (consistent : Consistent db) {ids : List Nat} {s : ServiceRow} (stored : s ∈ db.services)
    (gone : s.snapshotId ∈ ids) : rowsOf (Db.deleteSnapshots db ids) s.id = ([], []) := by
  have pruned : s.id ∈ (db.services.filter (fun s => s.snapshotId ∈ ids)).map ServiceRow.id :=
    List.mem_map_of_mem (List.mem_filter.mpr ⟨stored, decide_eq_true gone⟩)
  refine Prod.ext ?_ ((filter_owner MethodRow.serviceId db.methods _ s.id).trans (if_pos pruned))
  show (db.services.filter (fun r => r.snapshotId ∉ ids)).filter (fun r => r.id = s.id) = []
  refine List.filter_eq_nil_iff.mpr ?_
  intro r member same
  obtain ⟨stored', kept⟩ := List.mem_filter.mp member
  obtain rfl := row_unique consistent.serviceIds stored' stored (of_decide_eq_true same)
  exact of_decide_eq_true kept gone

theorem step_db (w : World) (c : ImportCall) : (w.step c).db = (c.run w.db).2 := by
  rw [World.step]
  rcases c.run w.db with ⟨_ | _, _⟩ <;> rfl

theorem sequences_step (w : World) (c : ImportCall) : w.db.sequences ≤ (w.step c).db.sequences := by
  have grown : Prog.Grows sequences (importSnapshot c.order c.bank c.snapshot c.minRatio c.keep) := grows_importSnapshot
  rw [step_db]
  exact grown { db := w.db, now := c.now, fuse := c.fuse }

/-- What a call makes of the tables: those of an accepted import, or what they were. -/
theorem step_tables (w : World) (c : ImportCall) :
    ((w.step c).db = c.applied w.db ∧
      (w.step c).accepted = w.accepted ++ [{ id := w.db.sequences.snapshots, call := c }]) ∨
    ((w.step c).db.toTables = w.db.toTables ∧ (w.step c).accepted = w.accepted) := by
  rcases outcome : c.run w.db with ⟨failure | visible, db⟩
  · have after : w.step c = { w with db } := by rw [World.step, outcome]
    exact .inr ⟨by rw [after]; exact (run_error outcome).1, by rw [after]⟩
  · obtain ⟨-, -, rfl⟩ := run_ok outcome
    have after : w.step c =
        { db := c.applied w.db, accepted := w.accepted ++ [{ id := w.db.sequences.snapshots, call := c }] } := by
      rw [World.step, outcome]
    exact .inl ⟨by rw [after], by rw [after]⟩

theorem rowsOf_tables {db db' : Db} (tables : db'.toTables = db.toTables) (id : Nat) : rowsOf db' id = rowsOf db id := by
  rcases db' with ⟨tables', sequences'⟩
  subst tables
  rfl

/-- The identifiers of the snapshots that are stored. -/
def snapshotIds (db : Db) : List Nat := db.snapshots.map SnapshotRow.id

theorem mem_snapshotIds_applied {db : Db} (consistent : Consistent db) (c : ImportCall) {snapshotId : Nat}
    (old : snapshotId < db.sequences.snapshots) :
    snapshotId ∈ snapshotIds (c.applied db) ↔ snapshotId ∈ snapshotIds db ∧ snapshotId ∉ c.oldIds (c.stored db) := by
  have new : snapshotId ≠ db.sequences.snapshots := Nat.ne_of_lt old
  have snapshots : (c.applied db).snapshots = (c.stored db).snapshots.filter (fun r => r.id ∉ c.oldIds (c.stored db)) := rfl
  rw [snapshotIds, snapshotIds, snapshots, (stored_adds consistent).2.2.1, List.filter_append, List.map_append]
  simp only [List.mem_append, List.mem_map, List.mem_filter, List.mem_singleton, decide_eq_true_eq]
  constructor
  · rintro (⟨r, ⟨stored, stays⟩, rfl⟩ | ⟨r, ⟨rfl, -⟩, same⟩)
    · exact ⟨⟨r, stored, rfl⟩, stays⟩
    · exact absurd same.symm new
  · rintro ⟨⟨r, stored, rfl⟩, stays⟩
    exact .inl ⟨r, ⟨stored, stays⟩, rfl⟩

/-- The rows of a service are there while its snapshot is stored, and all gone when that is pruned. -/
def RowsOfStored (snapshotId id : Nat) (rows : List ServiceRow × List MethodRow) (db : Db) : Prop :=
  rowsOf db id = if snapshotId ∈ snapshotIds db then rows else ([], [])

theorem rowsOfStored_step {w : World} (invariant : Invariant w) (c : ImportCall) {snapshotId id : Nat}
    {rows : List ServiceRow × List MethodRow} (known : id < w.db.sequences.services)
    (old : snapshotId < w.db.sequences.snapshots) {row : ServiceRow} (own : row ∈ rows.1)
    (owner : ∀ s ∈ rows.1, s.snapshotId = snapshotId) (before : RowsOfStored snapshotId id rows w.db) :
    RowsOfStored snapshotId id rows (w.step c).db := by
  unfold RowsOfStored at before ⊢
  rcases step_tables w c with ⟨after, -⟩ | ⟨tables, -⟩
  · have written := (sameBelow_stored invariant.consistent c).rows known
    have sound := (@stored_adds c w.db invariant.consistent).1
    rw [after, if_congr (mem_snapshotIds_applied invariant.consistent c old) rfl rfl]
    rw [before] at written
    by_cases stored : snapshotId ∈ snapshotIds w.db
    · rw [if_pos stored] at written
      by_cases gone : snapshotId ∈ c.oldIds (c.stored w.db)
      · rw [if_neg (fun both => both.2 gone)]
        have inside : row ∈ (rowsOf (c.stored w.db) id).1 := by rw [written]; exact own
        obtain ⟨member, same⟩ := List.mem_filter.mp inside
        have pruned : rowsOf (c.applied w.db) row.id = ([], []) := rowsOf_pruned sound member (by rw [owner row own]; exact gone)
        rwa [of_decide_eq_true same] at pruned
      · rw [if_pos ⟨stored, gone⟩, ← written]
        refine rowsOf_kept (fun s member same => ?_)
        have inside : s ∈ (rowsOf (c.stored w.db) id).1 := List.mem_filter.mpr ⟨member, decide_eq_true same⟩
        rw [written] at inside
        rwa [owner s inside]
    · rw [if_neg stored] at written
      rw [if_neg (fun both => stored both.1), ← written]
      refine rowsOf_kept (fun s member same => ?_)
      have inside : s ∈ (rowsOf (c.stored w.db) id).1 := List.mem_filter.mpr ⟨member, decide_eq_true same⟩
      rw [written] at inside
      cases inside
  · have snapshots : snapshotIds (w.step c).db = snapshotIds w.db := by rw [snapshotIds, tables]; rfl
    rw [rowsOf_tables tables, snapshots]
    exact before

theorem rowsOfStored_later (calls later : List ImportCall) {snapshotId id : Nat} {rows : List ServiceRow × List MethodRow}
    (known : id < (execute calls).db.sequences.services) (old : snapshotId < (execute calls).db.sequences.snapshots)
    {row : ServiceRow} (own : row ∈ rows.1) (owner : ∀ s ∈ rows.1, s.snapshotId = snapshotId)
    (before : RowsOfStored snapshotId id rows (execute calls).db) :
    RowsOfStored snapshotId id rows (execute (calls ++ later)).db ∧
      id < (execute (calls ++ later)).db.sequences.services ∧
      snapshotId < (execute (calls ++ later)).db.sequences.snapshots := by
  induction later using List.reverseRecOn with
  | nil => rw [List.append_nil]; exact ⟨before, known, old⟩
  | append_singleton later c ih =>
    rw [← List.append_assoc, execute_concat]
    obtain ⟨here, below, older⟩ := ih
    have step := rowsOfStored_step (execute_invariant (calls ++ later)) c below older own owner here
    have grown := sequences_le.mp (sequences_step (execute (calls ++ later)) c)
    exact ⟨step, Nat.lt_of_lt_of_le below grown.2.1, Nat.lt_of_lt_of_le older grown.1⟩

/-- The snapshot `r` of a bank is among the last ones, with at most so many after it. -/
def Recent (bank : String) (r : SnapshotRow) (after : Nat) (db : Db) : Prop :=
  ∃ newer, (r :: newer) <:+ db.snapshots.filter (fun r => r.bank = bank) ∧ newer.length ≤ after

/-- A short suffix is in what is kept. -/
theorem suffix_keepLast {α : Type} {keep : Int} {short l : List α} (suffix : short <:+ l)
    (room : keep < 1 ∨ (short.length : Int) ≤ keep) : short <:+ keepLast keep l := by
  unfold keepLast
  split
  · exact suffix
  · refine List.suffix_of_suffix_length_le suffix (List.drop_suffix _ l) ?_
    have length := suffix.length_le
    rw [List.rtake, List.length_drop]
    omega

/-- An accepted import keeps a recent snapshot that is not too old for it. -/
theorem recent_applied {db : Db} (consistent : Consistent db) (c : ImportCall) {after : Nat}
    (recent : Recent bank r after db) (room : c.bank = bank → c.keep < 1 ∨ (after : Int) + 2 ≤ c.keep) :
    r.id ∉ c.oldIds (c.stored db) ∧ Recent bank r (after + if c.bank = bank then 1 else 0) (c.applied db) := by
  obtain ⟨newer, suffix, few⟩ := recent
  obtain ⟨sound, -, snapshots, -, -⟩ := @stored_adds c db consistent
  have inBank : r ∈ db.snapshots.filter (fun r => r.bank = bank) := suffix.subset List.mem_cons_self
  obtain ⟨stored, isBank⟩ := List.mem_filter.mp inBank
  by_cases own : c.bank = bank
  · subst own
    set added : SnapshotRow := { id := db.sequences.snapshots, bank := c.bank, createdAt := c.now }
    have rows : (c.stored db).snapshots.filter (fun r => r.bank = c.bank) =
        db.snapshots.filter (fun r => r.bank = c.bank) ++ [added] := by
      rw [snapshots, List.filter_append]
      simp [added]
    have longer : (r :: (newer ++ [added])) <:+ db.snapshots.filter (fun r => r.bank = c.bank) ++ [added] := by
      obtain ⟨earlier, split⟩ := suffix
      exact ⟨earlier, by rw [← split]; simp⟩
    have kept : (r :: (newer ++ [added])) <:+ (c.applied db).snapshots.filter (fun r => r.bank = c.bank) := by
      rw [applied_rows, kept_rows sound, rows]
      refine suffix_keepLast longer ((room rfl).imp_right ?_)
      intro enough
      simp only [List.length_cons, List.length_append, List.length_nil]
      omega
    have here := kept.subset List.mem_cons_self
    rw [applied_rows] at here
    refine ⟨of_decide_eq_true (List.mem_filter.mp here).2, newer ++ [added], kept, ?_⟩
    rw [if_pos rfl, List.length_append, List.length_singleton]
    omega
  · have other : ∀ r ∈ db.snapshots.filter (fun r => r.bank = bank), r.id ∉ c.oldIds (c.stored db) := by
      intro r member
      obtain ⟨stored, isBank⟩ := List.mem_filter.mp member
      exact otherBank_kept sound (mem_stored consistent stored) (fun same => own (same.symm.trans (of_decide_eq_true isBank)))
    have rows : (c.stored db).snapshots.filter (fun r => r.bank = bank) = db.snapshots.filter (fun r => r.bank = bank) := by
      rw [snapshots, List.filter_append]
      simp [own]
    refine ⟨other r inBank, newer, ?_, by rw [if_neg own]; exact few⟩
    rw [applied_rows, rows, List.filter_eq_self.mpr (fun r member => decide_eq_true (other r member))]
    exact suffix

theorem recent_later (calls later : List ImportCall) {keep : Nat} (latest : Recent bank r 0 (execute calls).db)
    (keeps : ∀ c ∈ later, c.bank = bank → c.keep < 1 ∨ (keep : Int) ≤ c.keep)
    (few : ((execute (calls ++ later)).acceptedOf bank).length < ((execute calls).acceptedOf bank).length + keep) :
    ∃ after, Recent bank r after (execute (calls ++ later)).db ∧
      after + ((execute calls).acceptedOf bank).length = ((execute (calls ++ later)).acceptedOf bank).length := by
  induction later using List.reverseRecOn with
  | nil =>
    rw [List.append_nil]
    exact ⟨0, latest, Nat.zero_add _⟩
  | append_singleton later c ih =>
    rw [← List.append_assoc, execute_concat] at few ⊢
    set w := execute (calls ++ later) with wIs
    have invariant : Invariant w := execute_invariant (calls ++ later)
    have earlier : ∀ c ∈ later, c.bank = bank → c.keep < 1 ∨ (keep : Int) ≤ c.keep := fun d member =>
      keeps d (List.mem_append_left _ member)
    rcases step_tables w c with ⟨after, accepted⟩ | ⟨tables, accepted⟩
    · have entry := acceptedOf_step accepted bank
      have length := congrArg List.length entry
      rw [List.length_append] at length
      obtain ⟨n, recent, count⟩ := ih earlier (by omega)
      have room : c.bank = bank → c.keep < 1 ∨ (n : Int) + 2 ≤ c.keep := by
        intro own
        simp only [own, if_true, List.length_singleton] at length
        refine (keeps c (by simp) own).imp_right ?_
        omega
      obtain ⟨-, still⟩ := recent_applied invariant.consistent c recent room
      rw [after]
      refine ⟨_, still, ?_⟩
      by_cases own : c.bank = bank
      · simp only [own, if_true, List.length_singleton] at length ⊢
        omega
      · simp only [own, if_false, List.length_nil] at length ⊢
        omega
    · have entry : (w.step c).acceptedOf bank = w.acceptedOf bank := by rw [World.acceptedOf, accepted]; rfl
      rw [entry] at few ⊢
      obtain ⟨n, recent, count⟩ := ih earlier few
      refine ⟨n, ?_, count⟩
      rw [Recent, tables]
      exact recent

theorem Recent.stored {after : Nat} (recent : Recent bank r after db) : r.id ∈ snapshotIds db := by
  obtain ⟨newer, suffix, -⟩ := recent
  exact List.mem_map_of_mem (List.mem_of_mem_filter (suffix.subset List.mem_cons_self))

/-- What a row of a page lists when it is opened. -/
def opened (order : RowOrder MethodRow) (db : Db) (serviceId : Nat) : List MethodItem × List HiddenMethodItem :=
  (apiMethods order db serviceId, hiddenMethods order db serviceId)

theorem methodsWhere_rows (order : RowOrder MethodRow) (db : Db) (serviceId : Nat) (p : Bool → Bool) :
    methodsWhere order db serviceId p = (orderBy (fun m => toLex (m.httpMethod, m.path.getD m.name))
      (order.order ((rowsOf db serviceId).2.filter (fun m => p m.hidden)))).map MethodRow.view := by
  rw [methodsWhere, rowsOf, List.filter_filter]
  refine congrArg (fun rows => (orderBy _ (order.order rows)).map MethodRow.view) (List.filter_congr ?_)
  intro m _
  exact Bool.and_comm _ _

theorem opened_of_rows {db' : Db} {id : Nat} (same : rowsOf db' id = rowsOf db id) :
    opened order db' id = opened order db id := by
  simp only [opened, apiMethods, hiddenMethods, getServiceMethods_where, getHiddenMethods_where, methodsWhere_rows, same]

theorem opened_of_none {id : Nat} (gone : rowsOf db id = ([], [])) : opened order db id = ([], []) := by
  have none : order.order [] = [] := List.perm_nil.mp (order.perm [])
  simp [opened, apiMethods, hiddenMethods, getServiceMethods_where, getHiddenMethods_where, methodsWhere_rows, gone, none,
    orderBy]

/-- A row of a page is one of the current snapshot. -/
theorem listed_current {s : ServiceItem} (consistent : Consistent db)
    (inside : s ∈ apiServices db bank ++ hiddenServices db bank) :
    ∃ r row, latestSnapshot db bank = some r ∧ row ∈ serviceRows db r ∧ row.id = s.id := by
  simp only [apiServices, hiddenServices, List.mem_append, List.mem_map, getBankServices_eq consistent,
    getHiddenServices_eq consistent] at inside
  cases latest : latestSnapshot db bank with
  | none => simp [latest] at inside
  | some r =>
    simp only [latest, mem_orderBy_filter] at inside
    rcases inside with ⟨row, ⟨member, -⟩, rfl⟩ | ⟨row, ⟨member, -⟩, rfl⟩
    · exact ⟨r, row, rfl, member, rfl⟩
    · exact ⟨r, row, rfl, member, rfl⟩

/-- A row that was listed and is opened after further imports lists what it would have
    listed at once while its snapshot is stored, and nothing when that is pruned; and it
    is stored before the bank has as many new snapshots as are kept. -/
theorem opened_later (calls later : List ImportCall) (bank : String) (order : RowOrder MethodRow) :
    ∀ s ∈ apiServices (execute calls).db bank ++ hiddenServices (execute calls).db bank,
      ∃ r, latestSnapshot (execute calls).db bank = some r ∧
        opened order (execute (calls ++ later)).db s.id =
          (if r.id ∈ snapshotIds (execute (calls ++ later)).db then opened order (execute calls).db s.id else ([], [])) ∧
        ∀ keep : Nat, (∀ c ∈ later, c.bank = bank → c.keep < 1 ∨ (keep : Int) ≤ c.keep) →
          ((execute (calls ++ later)).acceptedOf bank).length < ((execute calls).acceptedOf bank).length + keep →
          r.id ∈ snapshotIds (execute (calls ++ later)).db ∧
            opened order (execute (calls ++ later)).db s.id = opened order (execute calls).db s.id := by
  intro s inside
  have consistent := (execute_invariant calls).consistent
  obtain ⟨r, row, latest, member, same⟩ := listed_current consistent inside
  obtain ⟨stored, ofLatest⟩ := List.mem_filter.mp member
  have recent : Recent bank r 0 (execute calls).db := by
    have last := (latestSnapshot_eq consistent bank).symm.trans latest
    obtain ⟨earlier, split⟩ := List.getLast?_eq_some_iff.mp last
    exact ⟨[], ⟨earlier, split.symm⟩, Nat.zero_le 0⟩
  have known : s.id < (execute calls).db.sequences.services := same ▸ consistent.serviceBound row stored
  have old : r.id < (execute calls).db.sequences.snapshots := of_decide_eq_true ofLatest ▸ consistent.serviceOwner row stored
  have own : row ∈ (rowsOf (execute calls).db s.id).1 := List.mem_filter.mpr ⟨stored, decide_eq_true same⟩
  have owner : ∀ s' ∈ (rowsOf (execute calls).db s.id).1, s'.snapshotId = r.id := by
    intro s' among
    obtain ⟨stored', isId⟩ := List.mem_filter.mp among
    obtain rfl := row_unique consistent.serviceIds stored' stored ((of_decide_eq_true isId).trans same.symm)
    exact of_decide_eq_true ofLatest
  have before : RowsOfStored r.id s.id (rowsOf (execute calls).db s.id) (execute calls).db := by
    rw [RowsOfStored, if_pos recent.stored]
  have after := (rowsOfStored_later calls later known old own owner before).1
  have tied : opened order (execute (calls ++ later)).db s.id =
      if r.id ∈ snapshotIds (execute (calls ++ later)).db then opened order (execute calls).db s.id else ([], []) := by
    rw [RowsOfStored] at after
    split_ifs at after ⊢ with kept
    · exact opened_of_rows after
    · exact opened_of_none after
  refine ⟨r, latest, tied, fun keep keeps few => ?_⟩
  obtain ⟨n, still, -⟩ := recent_later calls later recent keeps few
  exact ⟨still.stored, by rw [tied, if_pos still.stored]⟩

/-- A row of the first day is opened after the second day was imported. -/
theorem opened_later_second_day : ∃ s ∈ apiServices (execute (twoDays.take 4)).db "alfa",
    (opened (asStored _) (execute (twoDays.take 4)).db s.id).1.map MethodItem.name = ["list"] ∧
      opened (asStored _) (execute (twoDays.take 4 ++ (twoDays.drop 4).take 1)).db s.id =
        opened (asStored _) (execute (twoDays.take 4)).db s.id := by
  have listed : ∃ s ∈ apiServices (execute (twoDays.take 4)).db "alfa",
      (opened (asStored _) (execute (twoDays.take 4)).db s.id).1.map MethodItem.name = ["list"] := by
    decide +kernel
  obtain ⟨s, inside, shown⟩ := listed
  obtain ⟨r, -, -, later⟩ :=
    opened_later (twoDays.take 4) ((twoDays.drop 4).take 1) "alfa" (asStored _) s (List.mem_append_left _ inside)
  exact ⟨s, inside, shown, (later 2 (by simp [twoDays]) (by decide +kernel)).2⟩

end ScanApi.Tabs
