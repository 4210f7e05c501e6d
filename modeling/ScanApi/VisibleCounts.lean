import ScanApi.ParserRunner
import ScanApi.PublicQueries

/-!
How much of a bank is visible is counted four times: by the runner in the parsed
snapshot (`visibleCounts`), by the next import in the rows that it reads back, by
the statistics in joined rows, and by the summary of what is hidden in groups of
them. In every state that imports reach the counts agree.
-/
namespace ScanApi.VisibleCounts
open ScanApi.Diff ScanApi.Database ScanApi.Repository ScanApi.SnapshotImport ScanApi.Stored ScanApi.ReadBack
  ScanApi.ImportRuns ScanApi.PublicQueries ScanApi.ParserRunner

/-! ### The parsed snapshot -/

theorem visibleCount_records (snapshot : ParseSnapshot) :
    visibleCount (snapshotToRecords snapshot).2 = (visibleCounts snapshot).2 := by
  simp only [visibleCount, snapshotToRecords, visibleCounts, Dict.values]
  induction snapshot.services.entries with
  | nil => rfl
  | cons e rest ih =>
    rw [List.flatMap_cons, List.filter_append, List.length_append, ih, List.map_cons, List.flatten_cons,
      List.filter_append, List.length_append, List.filter_map, List.length_map]
    rfl

theorem visiblePart_services (snapshot : ParseSnapshot) :
    (visiblePart (content snapshot)).length = (visibleCounts snapshot).1 := by
  simp only [visiblePart, content, visibleCounts, Dict.values, List.length_map, List.filter_map]
  rfl

/-- A method of a hidden service is hidden. -/
theorem hidden_of_serviceIsHidden {methods : List ApiMethod}
    (hidden : serviceIsHidden (methods.map ApiMethod.hidden) = true) : ∀ m ∈ methods, m.hidden = true := by
  intro m member
  have all := (Bool.and_eq_true _ _ ▸ hidden).2
  exact List.all_eq_true.mp all m.hidden (List.mem_map_of_mem member)

theorem visiblePart_methods (snapshot : ParseSnapshot) :
    ((visiblePart (content snapshot)).map (fun s => s.methods.length)).sum = (visibleCounts snapshot).2 := by
  simp only [visiblePart, content, visibleCounts, Dict.values]
  induction snapshot.services.entries with
  | nil => rfl
  | cons e rest ih =>
    have own : ((serviceContent e).methods.filter (fun m => !m.hidden)).length =
        (e.2.filter (fun m => !m.hidden)).length := by
      rw [serviceContent, List.filter_map, List.length_map]
      rfl
    rw [List.map_cons, List.map_cons, List.flatten_cons, List.filter_append, List.length_append, ← ih]
    cases hidden : serviceIsHidden (e.2.map ApiMethod.hidden) with
    | true =>
      have gone : (serviceContent e).hidden = true := hidden
      have none : e.2.filter (fun m => !m.hidden) = [] := by
        rw [List.filter_eq_nil_iff]
        intro m member
        simp [hidden_of_serviceIsHidden hidden m member]
      rw [none]
      simp [gone]
    | false =>
      have shown : (serviceContent e).hidden = false := hidden
      simp only [List.filter_cons, shown, Bool.not_false, if_true, List.map_cons, List.sum_cons]
      rw [visibleService, visibleMethods, own]

/-! ### Joined rows -/

/-- The rows of the services of a snapshot, and of the methods of a service. -/
def serviceRows (db : Db) (s : SnapshotRow) : List ServiceRow := db.services.filter (fun sv => sv.snapshotId = s.id)
def methodRows (db : Db) (sv : ServiceRow) : List MethodRow := db.methods.filter (fun m => m.serviceId = sv.id)

/-- The rows of the latest snapshots of all banks. -/
def latestRows (db : Db) : List SnapshotRow := db.snapshots.filter (fun s => s.id ∈ maxSnapshotIds db)

theorem mem_latestRows {db : Db} (consistent : Consistent db) {r : SnapshotRow} :
    r ∈ latestRows db ↔ latestSnapshot db r.bank = some r := by
  rw [latestSnapshot_iff consistent, latestRows, List.mem_filter, decide_eq_true_eq]
  constructor
  · rintro ⟨stored, top⟩
    have current := ((sameCurrent consistent r.bank).stats r stored rfl).mp top
    obtain ⟨r', latest, same⟩ := Option.map_eq_some_iff.mp current
    have found := (latestSnapshot_iff consistent).mp latest
    rwa [row_unique consistent.snapshotIds found.1 stored same] at found
  · intro newest
    have latest := (latestSnapshot_iff consistent).mpr newest
    exact ⟨newest.1, ((sameCurrent consistent r.bank).stats r newest.1 rfl).mpr (by rw [latest]; rfl)⟩

/-- Of the latest snapshots, one is of the bank, unless it has none. -/
theorem filter_latest {db : Db} (consistent : Consistent db) {rows : List SnapshotRow}
    (distinct : (rows.map SnapshotRow.bank).Nodup) (mem : ∀ {r}, r ∈ rows ↔ latestSnapshot db r.bank = some r)
    (bank : String) : rows.filter (fun r => r.bank = bank) = (latestSnapshot db bank).toList := by
  cases latest : latestSnapshot db bank with
  | none =>
    refine List.filter_eq_nil_iff.mpr (fun r inside own => ?_)
    have found := mem.mp inside
    rw [of_decide_eq_true own, latest] at found
    cases found
  | some r =>
    have isBank := ((latestSnapshot_iff consistent).mp latest).2.1
    rw [← isBank] at latest ⊢
    exact Dict.filter_key distinct (mem.mpr latest)

theorem latestRows_bank {db : Db} (consistent : Consistent db) (bank : String) :
    (latestRows db).filter (fun r => r.bank = bank) = (latestSnapshot db bank).toList :=
  filter_latest consistent (latestBanks_distinct consistent) (mem_latestRows consistent) bank

theorem statsRows_true (db : Db) :
    statsRows db true = (latestRows db).flatMap (fun s => joinBlock s (serviceRows db s) (methodRows db)) := by
  have methods : ∀ sv : Option ServiceRow, db.methods.filter (fun m => sv.any (fun sv => m.serviceId = sv.id)) =
      sv.elim [] (methodRows db) := by
    intro sv
    cases sv <;> simp [methodRows]
  simp only [statsRows, true_or, and_true, Bool.decide_eq_true, methods]
  rfl

/-- One group for each latest snapshot. -/
theorem groups_true {db : Db} (consistent : Consistent db) :
    (Dict.groupBy (fun r => r.1.bank) Prod.snd (statsRows db true)).entries =
      (latestRows db).map (fun s => (s.bank, (joinBlock s (serviceRows db s) (methodRows db)).map Prod.snd)) := by
  rw [statsRows_true]
  exact @Dict.groupBy_flatMap String _ (SnapshotRow × Option ServiceRow × Option MethodRow) _ _
    (fun r => r.1.bank) Prod.snd SnapshotRow.bank _ (latestRows db)
    (fun s _ r member => congrArg SnapshotRow.bank (joinBlock_bank.2 r member)) (fun s _ => joinBlock_bank.1)
    (latestBanks_distinct consistent)

theorem serviceRows_ascending {db : Db} (consistent : Consistent db) (s : SnapshotRow) :
    ((serviceRows db s).map ServiceRow.id).Pairwise (· < ·) :=
  ascending_filter _ consistent.serviceIds

theorem methodRows_nodup {db : Db} (consistent : Consistent db) (s : SnapshotRow) :
    (((serviceRows db s).flatMap (methodRows db)).map MethodRow.id).Nodup := by
  have distinct := methodRows_distinct consistent (serviceRows_ascending consistent s) (fun _ => true)
  have all : ∀ sv, (db.methods.filter (fun m => m.serviceId = sv.id)).filter (fun _ => true) = methodRows db sv :=
    fun sv => List.filter_eq_self.mpr (fun _ _ => rfl)
  simpa only [all] using distinct

/-- All services and methods of a snapshot, and the hidden ones. -/
def allOf (db : Db) (s : SnapshotRow) : Stats where
  bank := s.bank
  serviceCount := (serviceRows db s).length
  methodCount := ((serviceRows db s).flatMap (methodRows db)).length

def hiddenOf (db : Db) (reasons : Dict String (Dict (Option String) Nat)) (s : SnapshotRow) : HiddenSummary where
  bank := s.bank
  hiddenServices := ((serviceRows db s).filter ServiceRow.hidden).length
  hiddenMethods := (((serviceRows db s).flatMap (methodRows db)).filter MethodRow.hidden).length
  byReason := (reasons.get? s.bank).getD .empty

theorem getStats_true {db : Db} (consistent : Consistent db) :
    getStats db true = orderBy Stats.bank ((latestRows db).map (allOf db)) := by
  rw [getStats, groups_true consistent, List.map_map]
  congr 1
  apply List.map_congr_left
  intro s _
  have services := joinBlock_services s (methodRows db) ((serviceRows_ascending consistent s).imp Nat.ne_of_lt) (fun _ => true)
  have methods := joinBlock_methods s (methodRows db) (methodRows_nodup consistent s) (fun _ => true)
  rw [countDistinct_any, List.filter_eq_self.mpr (fun _ _ => rfl)] at services methods
  simp only [Function.comp_apply, List.map_map]
  exact congrArg₂ (Stats.mk s.bank) services methods

/-- The counts by bank and reason, gathered in a dictionary for each bank. -/
def reasonsOf (order : RowOrder ((String × Option String) × Nat)) (db : Db) : Dict String (Dict (Option String) Nat) :=
  (order.order (reasonCounts db)).foldl addReason .empty

theorem getHiddenSummary_eq {db : Db} (consistent : Consistent db) (order : RowOrder ((String × Option String) × Nat)) :
    getHiddenSummary order db = orderBy HiddenSummary.bank ((latestRows db).map (hiddenOf db (reasonsOf order db))) := by
  rw [getHiddenSummary, groups_true consistent, List.map_map]
  congr 1
  apply List.map_congr_left
  intro s _
  have services := joinBlock_services s (methodRows db) ((serviceRows_ascending consistent s).imp Nat.ne_of_lt) ServiceRow.hidden
  have methods := joinBlock_methods s (methodRows db) (methodRows_nodup consistent s) MethodRow.hidden
  simp only [Function.comp_apply, List.map_map, List.filter_map]
  exact congrArg₂ (fun a b => HiddenSummary.mk s.bank a b _) services methods

/-! ### Reasons -/

/-- The groups whose key is wanted hold the elements that are. -/
theorem sum_groups {κ : Type} [DecidableEq κ] (l : List κ) (wanted : κ → Bool) :
    (((Dict.groupBy id id l).entries.filter (fun e => wanted e.1)).map (fun e => e.2.length)).sum =
      (l.filter wanted).length := by
  have same : ∀ e ∈ (Dict.groupBy id id l).entries, ∀ a ∈ e.2, a = e.1 := by
    intro e entry a member
    have group := (Dict.get?_groupBy id id l e.1).1
    rw [Dict.get?_eq_some.mpr entry, Option.getD_some] at group
    rw [group] at member
    obtain ⟨b, inside, rfl⟩ := List.mem_map.mp member
    exact of_decide_eq_true (List.mem_filter.mp inside).2
  have perm := (Dict.all_groupBy id id l).filter wanted
  rw [List.map_id] at perm
  rw [← perm.length_eq, Dict.all, Dict.values]
  generalize (Dict.groupBy id id l).entries = entries at same ⊢
  induction entries with
  | nil => rfl
  | cons e rest ih =>
    obtain ⟨own, others⟩ := List.forall_mem_cons.mp same
    rw [List.map_cons, List.flatten_cons, List.filter_append, List.length_append, ← ih others]
    cases keep : wanted e.1 with
    | true =>
      have all : e.2.filter wanted = e.2 := List.filter_eq_self.mpr (fun a member => by rw [own a member, keep])
      simp [keep, all]
    | false =>
      have none : e.2.filter wanted = [] := List.filter_eq_nil_iff.mpr (fun a member => by simp [own a member, keep])
      simp [keep, none]

/-- What the loop gathers for one bank. -/
theorem get?_foldl_addReason (rows : List ((String × Option String) × Nat)) (bank : String) :
    ∀ reasons : Dict String (Dict (Option String) Nat), ((rows.foldl addReason reasons).get? bank).getD .empty =
      (rows.filter (fun r => r.1.1 = bank)).foldl (fun d r => d.set r.1.2 r.2) ((reasons.get? bank).getD .empty) := by
  induction rows with
  | nil => intro reasons; rfl
  | cons r rest ih =>
    intro reasons
    rw [List.foldl_cons, ih, addReason, Dict.get?_set]
    by_cases own : r.1.1 = bank
    · subst own
      rw [if_pos rfl, List.filter_cons_of_pos (by simp), List.foldl_cons, Option.getD_some]
    · have other : bank ≠ r.1.1 := fun same => own same.symm
      rw [if_neg other, List.filter_cons_of_neg (by simp [own])]

/-- The reasons that are gathered for a bank, with their counts. -/
theorem reasons_perm (order : RowOrder ((String × Option String) × Nat)) (db : Db) (bank : String) :
    (((reasonsOf order db).get? bank).getD .empty).entries.Perm
      (((reasonCounts db).filter (fun r => r.1.1 = bank)).map (fun r => (r.1.2, r.2))) := by
  have perm := (order.perm (reasonCounts db)).filter (fun r => r.1.1 = bank)
  have keys : ((reasonCounts db).map Prod.fst).Nodup := by
    rw [reasonCounts, List.map_map]
    exact (Dict.groupBy id id (reasonRows db)).distinct
  have distinct : ((((order.order (reasonCounts db)).filter (fun r => r.1.1 = bank)).map (fun r => (r.1.2, r.2))).map
      Prod.fst).Nodup := by
    rw [List.map_map, (perm.map _).nodup_iff]
    refine List.Nodup.map_on ?_ ((List.Nodup.of_map _ keys).filter _)
    intro r inside r' inside' same
    obtain ⟨stored, own⟩ := List.mem_filter.mp inside
    obtain ⟨stored', own'⟩ := List.mem_filter.mp inside'
    have banks : r.1.1 = r'.1.1 := (of_decide_eq_true own).trans (of_decide_eq_true own').symm
    exact List.inj_on_of_nodup_map keys stored stored' (Prod.ext banks same)
  have gathered : ((reasonsOf order db).get? bank).getD .empty =
      Dict.ofEntries (((order.order (reasonCounts db)).filter (fun r => r.1.1 = bank)).map (fun r => (r.1.2, r.2))) := by
    rw [reasonsOf, get?_foldl_addReason, Dict.ofEntries, List.foldl_map]
    rfl
  rw [gathered, Dict.entries_ofEntries distinct]
  exact perm.map _

/-- A bank's reasons stand once each, so their numbers add up to its hidden methods. -/
theorem sum_reasons (order : RowOrder ((String × Option String) × Nat)) (db : Db) (bank : String) :
    (((reasonsOf order db).get? bank).getD .empty).values.sum = ((reasonRows db).filter (fun r => r.1 = bank)).length := by
  rw [Dict.values, ((reasons_perm order db bank).map _).sum_eq, List.map_map]
  have groups := sum_groups (reasonRows db) (fun r => r.1 = bank)
  rw [← groups, reasonCounts, List.filter_map, List.map_map]
  rfl

/-- A reason is counted if a hidden method of the bank has it. -/
theorem mem_reasonCounts {db : Db} {key : String × Option String} {n : Nat} :
    (key, n) ∈ reasonCounts db ↔ 0 < n ∧ n = ((reasonRows db).filter (fun r => r = key)).length := by
  obtain ⟨group, keys⟩ := Dict.get?_groupBy id id (reasonRows db) key
  rw [List.map_id] at group
  have counted : ∀ rows, (key, rows) ∈ (Dict.groupBy id id (reasonRows db)).entries →
      rows = (reasonRows db).filter (fun r => r = key) := by
    intro rows entry
    rw [Dict.get?_eq_some.mpr entry, Option.getD_some] at group
    exact group
  rw [reasonCounts, List.mem_map]
  constructor
  · rintro ⟨⟨key', rows⟩, entry, same⟩
    obtain ⟨rfl, rfl⟩ := Prod.mk.inj same
    obtain ⟨r, member, rfl⟩ := keys.mp (Dict.mem_keys.mpr ⟨rows, Dict.get?_eq_some.mpr entry⟩)
    rw [counted rows entry]
    exact ⟨List.length_pos_of_mem (List.mem_filter.mpr ⟨member, by simp⟩), rfl⟩
  · rintro ⟨positive, rfl⟩
    obtain ⟨r, inside⟩ := List.exists_mem_of_length_pos positive
    obtain ⟨member, same⟩ := List.mem_filter.mp inside
    obtain ⟨rows, found⟩ := Dict.mem_keys.mp (keys.mpr ⟨r, member, of_decide_eq_true same⟩)
    have entry := Dict.get?_eq_some.mp found
    exact ⟨(key, rows), entry, by rw [counted rows entry]⟩

theorem get?_reasons (order : RowOrder ((String × Option String) × Nat)) (db : Db) (bank : String) (reason : Option String)
    (n : Nat) : (((reasonsOf order db).get? bank).getD .empty).get? reason = some n ↔
      0 < n ∧ n = ((reasonRows db).filter (fun r => r = (bank, reason))).length := by
  rw [Dict.get?_eq_some, (reasons_perm order db bank).mem_iff, ← mem_reasonCounts, List.mem_map]
  constructor
  · rintro ⟨⟨⟨_, _⟩, _⟩, inside, same⟩
    obtain ⟨rfl, rfl⟩ := Prod.mk.inj same
    obtain ⟨counted, own⟩ := List.mem_filter.mp inside
    obtain rfl := of_decide_eq_true own
    exact counted
  · intro counted
    exact ⟨((bank, reason), n), List.mem_filter.mpr ⟨counted, by simp⟩, rfl⟩

/-- The rows that the reasons count are the hidden methods of the latest snapshot. -/
theorem reasonRows_bank {db : Db} (consistent : Consistent db) {s : SnapshotRow} (latest : s ∈ latestRows db) :
    (reasonRows db).filter (fun r => r.1 = s.bank) =
      (((serviceRows db s).flatMap (methodRows db)).filter MethodRow.hidden).map (fun m => (s.bank, m.hiddenReason)) := by
  set block := fun s : SnapshotRow => (serviceRows db s).flatMap (fun sv =>
    (db.methods.filter (fun m => m.serviceId = sv.id ∧ m.hidden)).map (fun m => (s.bank, m.hiddenReason))) with blockIs
  have own : ∀ s' : SnapshotRow, (block s').filter (fun r => r.1 = s.bank) = if s'.bank = s.bank then block s' else [] := by
    intro s'
    have banks : ∀ r ∈ block s', r.1 = s'.bank := by
      intro r member
      obtain ⟨sv, _, inside⟩ := List.mem_flatMap.mp member
      obtain ⟨m, _, rfl⟩ := List.mem_map.mp inside
      rfl
    split
    · rename_i same
      exact List.filter_eq_self.mpr (fun r member => decide_eq_true ((banks r member).trans same))
    · rename_i other
      exact List.filter_eq_nil_iff.mpr (fun r member same => other ((banks r member).symm.trans (of_decide_eq_true same)))
  have rows : reasonRows db = (latestRows db).flatMap block := rfl
  have alone : (latestRows db).filter (fun s' => s'.bank = s.bank) = [s] :=
    Dict.filter_key (latestBanks_distinct consistent) latest
  rw [rows, List.filter_flatMap]
  simp only [own]
  rw [flatMap_ite, alone, List.flatMap_singleton, List.filter_flatMap, List.map_flatMap, blockIs]
  refine List.flatMap_congr (fun sv _ => ?_)
  rw [methodRows, List.filter_filter]
  congr 1
  apply List.filter_congr
  intro m _
  simp [Bool.and_comm]

theorem reasonRows_reason {db : Db} (consistent : Consistent db) {s : SnapshotRow} (latest : s ∈ latestRows db)
    (reason : Option String) : ((reasonRows db).filter (fun r => r = (s.bank, reason))).length =
      (((serviceRows db s).flatMap (methodRows db)).filter (fun m => m.hidden && m.hiddenReason = reason)).length := by
  have narrow : (reasonRows db).filter (fun r => r = (s.bank, reason)) =
      ((reasonRows db).filter (fun r => r.1 = s.bank)).filter (fun r => r.2 = reason) := by
    rw [List.filter_filter]
    refine List.filter_congr (fun r _ => ?_)
    simp [Prod.ext_iff, Bool.and_comm]
  rw [narrow, reasonRows_bank consistent latest, List.filter_map, List.length_map, List.filter_filter]
  refine congrArg List.length (List.filter_congr (fun m _ => ?_))
  exact Bool.and_comm _ _

/-! ### Services that are hidden -/

/-- Whatever belongs to a hidden service is hidden. -/
def HiddenWhole (db : Db) (s : SnapshotRow) : Prop :=
  ∀ sv ∈ serviceRows db s, sv.hidden = true → ∀ m ∈ methodRows db sv, m.hidden = true

/-- What an import stores of a parsed snapshot. -/
theorem hiddenWhole_of_content {db : Db} {s : SnapshotRow} {snapshot : ParseSnapshot}
    (stored : servicesOf db s.id = content snapshot) : HiddenWhole db s := by
  intro sv inside hidden m member
  have service : storedService db sv ∈ content snapshot := stored ▸ List.mem_map_of_mem inside
  obtain ⟨e, _, same⟩ := List.mem_map.mp service
  have whole : serviceIsHidden (e.2.map ApiMethod.hidden) = true := (congrArg StoredService.hidden same).trans hidden
  have methods : methodsOf db sv.id = e.2.map methodContent := (congrArg StoredService.methods same).symm
  have method : storedMethod m (fieldsOf db m.id) ∈ e.2.map methodContent := methods ▸ List.mem_map_of_mem member
  obtain ⟨parsed, among, image⟩ := List.mem_map.mp method
  exact (congrArg StoredMethod.hidden image).symm.trans (hidden_of_serviceIsHidden whole parsed among)

theorem statsOf_rows (db : Db) (s : SnapshotRow) : statsOf db s =
    ⟨s.bank, (visibleServiceRows db s.id).length, ((visibleServiceRows db s.id).flatMap (fun sv =>
      visibleMethodRows db sv.id)).length⟩ := by
  rw [statsOf, visiblePart_rows, List.length_map, List.map_map, List.length_flatMap]
  congr 2
  apply List.map_congr_left
  intro sv _
  simp [visibleService, storedService, visibleMethods_rows]

/-- The statistics of a bank with what is hidden of it. -/
def withHidden (st : Stats) (h : HiddenSummary) : Stats :=
  { st with serviceCount := st.serviceCount + h.hiddenServices, methodCount := st.methodCount + h.hiddenMethods }

/-- Everything is visible or hidden, services and methods alike. -/
theorem allOf_eq {db : Db} {s : SnapshotRow} (whole : HiddenWhole db s)
    (reasons : Dict String (Dict (Option String) Nat)) :
    allOf db s = withHidden (statsOf db s) (hiddenOf db reasons s) := by
  have services : (serviceRows db s).length =
      (visibleServiceRows db s.id).length + ((serviceRows db s).filter ServiceRow.hidden).length := by
    rw [List.length_eq_length_filter_add (l := serviceRows db s) ServiceRow.hidden, Nat.add_comm]
    rfl
  have shown : ((serviceRows db s).flatMap (methodRows db)).filter (fun m => !m.hidden) =
      (visibleServiceRows db s.id).flatMap (fun sv => visibleMethodRows db sv.id) := by
    have rows : visibleServiceRows db s.id = (serviceRows db s).filter (fun sv => sv.hidden = false) := by
      simp [visibleServiceRows, serviceRows]
    rw [rows, List.filter_flatMap, ← flatMap_ite]
    apply List.flatMap_congr
    intro sv inside
    cases hidden : sv.hidden with
    | false => rfl
    | true =>
      have none : (methodRows db sv).filter (fun m => !m.hidden) = [] :=
        List.filter_eq_nil_iff.mpr (fun m member => by simp [whole sv inside hidden m member])
      rw [none]
      rfl
  have methods : ((serviceRows db s).flatMap (methodRows db)).length =
      ((visibleServiceRows db s.id).flatMap (fun sv => visibleMethodRows db sv.id)).length +
        (((serviceRows db s).flatMap (methodRows db)).filter MethodRow.hidden).length := by
    rw [List.length_eq_length_filter_add (l := (serviceRows db s).flatMap (methodRows db)) MethodRow.hidden, Nat.add_comm,
      ← shown]
  rw [allOf, withHidden, statsOf_rows, services, methods]
  rfl

/-! ### Runs -/

/-- All counts of what is visible agree. -/
structure CountsAgree (w : World) : Prop where
  /-- The statistics of a bank are the runner's counts of its last accepted import. -/
  stats : ∀ bank a, (w.acceptedOf bank).getLast? = some a → (getStats w.db false).filter (fun st => st.bank = bank) =
    [⟨bank, (visibleCounts a.call.snapshot).1, (visibleCounts a.call.snapshot).2⟩]
  /-- So is the number of methods that the next import of the bank compares with. -/
  previous : ∀ (next : ImportCall) a, (w.acceptedOf next.bank).getLast? = some a →
    (next.previous w.db).map (fun state => visibleCount state.2) = some (visibleCounts a.call.snapshot).2
  /-- With what is hidden, the statistics count what the summary adds. -/
  hidden : ∀ order, (getHiddenSummary order w.db).map HiddenSummary.bank = (getStats w.db false).map Stats.bank ∧
    getStats w.db true = List.zipWith withHidden (getStats w.db false) (getHiddenSummary order w.db)
  reasons : ∀ order, ∀ h ∈ getHiddenSummary order w.db, h.byReason.values.sum = h.hiddenMethods

section
variable {w : World}

/-- A latest snapshot holds what a parsed one was stored as. -/
theorem latest_content (invariant : Invariant w) {s : SnapshotRow} (latest : s ∈ latestRows w.db) :
    ∃ a ∈ w.accepted, servicesOf w.db s.id = content a.call.snapshot := by
  have stored := (List.mem_filter.mp latest).1
  have inBank : storedSnapshot w.db s ∈ storedOf w.db s.bank :=
    List.mem_map_of_mem (List.mem_filter.mpr ⟨stored, decide_eq_true rfl⟩)
  obtain ⟨a, accepted, same⟩ := List.mem_map.mp ((invariant.suffix s.bank).subset inBank)
  exact ⟨a, List.mem_of_mem_filter accepted, (congrArg StoredSnapshot.services same).symm⟩

theorem stats_last (invariant : Invariant w) {bank : String} {a : Accepted} (last : (w.acceptedOf bank).getLast? = some a) :
    (getStats w.db false).filter (fun st => st.bank = bank) =
      [⟨bank, (visibleCounts a.call.snapshot).1, (visibleCounts a.call.snapshot).2⟩] := by
  have found := latestSnapshot_stored invariant.consistent bank
  rw [invariant.last, last] at found
  obtain ⟨r, latest, image⟩ := Option.map_eq_some_iff.mp found
  obtain ⟨-, isBank, -⟩ := (latestSnapshot_iff invariant.consistent).mp latest
  have counts : statsOf w.db r = ⟨bank, (visibleCounts a.call.snapshot).1, (visibleCounts a.call.snapshot).2⟩ := by
    have services : servicesOf w.db r.id = content a.call.snapshot := congrArg StoredSnapshot.services image
    rw [statsOf, services, visiblePart_services, visiblePart_methods, isBank]
  have perm : (getStats w.db false).Perm ((latestRows w.db).map (statsOf w.db)) := by
    rw [getStats_eq invariant.consistent]
    exact List.perm_insertionSort _ _
  have rows : ((latestRows w.db).map (statsOf w.db)).filter (fun st => st.bank = bank) = [statsOf w.db r] := by
    have alone := latestRows_bank invariant.consistent bank
    rw [latest] at alone
    rw [List.filter_map]
    exact congrArg (List.map (statsOf w.db)) alone
  rw [← counts]
  exact List.perm_singleton.mp ((perm.filter _).trans (List.Perm.of_eq rows))

theorem previous_last (invariant : Invariant w) {next : ImportCall} {a : Accepted}
    (last : (w.acceptedOf next.bank).getLast? = some a) :
    (next.previous w.db).map (fun state => visibleCount state.2) = some (visibleCounts a.call.snapshot).2 := by
  rcases previous_cases invariant next with ⟨none, _⟩ | ⟨a', state, last', previous, reads⟩
  · rw [none] at last
    cases last
  · obtain rfl := Option.some.inj (last.symm.trans last')
    rw [previous, Option.map_some, visibleCount_perm reads.2, visibleCount_records]

theorem hidden_sums (invariant : Invariant w) (order : RowOrder ((String × Option String) × Nat)) :
    (getHiddenSummary order w.db).map HiddenSummary.bank = (getStats w.db false).map Stats.bank ∧
      getStats w.db true = List.zipWith withHidden (getStats w.db false) (getHiddenSummary order w.db) := by
  have sorted : ∀ {β : Type} (f : SnapshotRow → β) (key : β → String), (∀ s, key (f s) = s.bank) →
      orderBy key ((latestRows w.db).map f) = (orderBy SnapshotRow.bank (latestRows w.db)).map f := by
    intro β f key same
    rw [← map_orderBy]
    simp only [same]
  have visible : getStats w.db false = (orderBy SnapshotRow.bank (latestRows w.db)).map (statsOf w.db) := by
    rw [getStats_eq invariant.consistent]
    exact sorted (statsOf w.db) Stats.bank (fun _ => rfl)
  have summary : getHiddenSummary order w.db =
      (orderBy SnapshotRow.bank (latestRows w.db)).map (hiddenOf w.db (reasonsOf order w.db)) := by
    rw [getHiddenSummary_eq invariant.consistent]
    exact sorted (hiddenOf w.db _) HiddenSummary.bank (fun _ => rfl)
  have all : getStats w.db true = (orderBy SnapshotRow.bank (latestRows w.db)).map (allOf w.db) := by
    rw [getStats_true invariant.consistent]
    exact sorted (allOf w.db) Stats.bank (fun _ => rfl)
  rw [visible, summary, all]
  constructor
  · rw [List.map_map, List.map_map]
    rfl
  · rw [List.zipWith_map, List.zipWith_self]
    apply List.map_congr_left
    intro s member
    have latest : s ∈ latestRows w.db := (List.perm_insertionSort _ (latestRows w.db)).mem_iff.mp member
    obtain ⟨a, _, stored⟩ := latest_content invariant latest
    exact allOf_eq (hiddenWhole_of_content stored) _

theorem reasons_sum (invariant : Invariant w) (order : RowOrder ((String × Option String) × Nat)) :
    ∀ h ∈ getHiddenSummary order w.db, h.byReason.values.sum = h.hiddenMethods := by
  intro h member
  rw [getHiddenSummary_eq invariant.consistent] at member
  obtain ⟨s, latest, rfl⟩ := List.mem_map.mp ((List.perm_insertionSort _ _).mem_iff.mp member)
  refine (sum_reasons order w.db s.bank).trans ?_
  rw [reasonRows_bank invariant.consistent latest, List.length_map]
  rfl

end

/-- The counts agree after any imports, and an import that returns is then the last accepted one. -/
theorem visible_counts_agree (calls : List ImportCall) : CountsAgree (execute calls) ∧
    ∀ c visible, (c.run (execute calls).db).1 = .ok visible →
      (((execute (calls ++ [c])).acceptedOf c.bank).getLast?).map Accepted.call = some c := by
  have invariant := execute_invariant calls
  refine ⟨⟨fun _ _ last => stats_last invariant last, fun _ _ last => previous_last invariant last,
    hidden_sums invariant, reasons_sum invariant⟩, fun c visible returned => ?_⟩
  rw [execute_concat]
  rcases step_cases (execute calls) c invariant.consistent with ⟨_, _, _, accepted⟩ | ⟨⟨failure, raised⟩, _⟩
  · rw [World.acceptedOf, accepted, acceptedOf_concat, if_pos rfl, List.getLast?_concat]
    rfl
  · rw [raised] at returned
    cases returned

end ScanApi.VisibleCounts
