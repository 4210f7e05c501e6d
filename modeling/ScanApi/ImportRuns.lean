import Mathlib.Data.List.Chain
import ScanApi.ImportStep
import ScanApi.ReadBack

/-!
Imports of any banks one after another, each of them accepted, rejected or lost
with its connection. In every state that is reached, a bank holds its last
accepted imports (`execute_invariant`), and every query that looks for the
current snapshot of a bank finds the last one of them.
-/
namespace ScanApi.ImportRuns
open ScanApi.Diff ScanApi.Database ScanApi.Repository ScanApi.SnapshotImport ScanApi.ImportEffect ScanApi.Stored
  ScanApi.ImportStep ScanApi.ReadBack

/-! ### Runs -/

/-- A call that returned, with the identifier of its snapshot. -/
structure Accepted where
  id : Nat
  call : ImportCall

/-- The database and the accepted calls so far. -/
structure World where
  db : Db := {}
  accepted : List Accepted := []

def World.step (w : World) (c : ImportCall) : World :=
  match c.run w.db with
  | (.ok _, db) => { db, accepted := w.accepted ++ [{ id := w.db.sequences.snapshots, call := c }] }
  | (.error _, db) => { w with db }

/-- The world after the calls, from an empty database. -/
def execute (calls : List ImportCall) : World := calls.foldl World.step {}

/-- The accepted calls of a bank. -/
def World.acceptedOf (w : World) (bank : String) : List Accepted := w.accepted.filter (fun a => a.call.bank = bank)

/-- What is stored of an accepted call. -/
def Accepted.stored (a : Accepted) : StoredSnapshot where
  id := a.id
  createdAt := a.call.now
  services := content a.call.snapshot

/-- The visible methods of an accepted call. -/
def Accepted.visible (a : Accepted) : Nat := visibleCount (snapshotToRecords a.call.snapshot).2

theorem execute_concat (calls : List ImportCall) (c : ImportCall) :
    execute (calls ++ [c]) = (execute calls).step c := by
  rw [execute, List.foldl_append]; rfl

/-- A step is an accepted import, or it leaves the tables alone. -/
theorem step_cases (w : World) (c : ImportCall) (consistent : Consistent w.db) :
    (c.Accepts w.db ∧ (∃ visible, (c.run w.db).1 = .ok visible) ∧ Imported c w.db (w.step c).db ∧
      (w.step c).accepted = w.accepted ++ [{ id := w.db.sequences.snapshots, call := c }]) ∨
    ((∃ failure, (c.run w.db).1 = .error failure) ∧ (w.step c).db.toTables = w.db.toTables ∧
      w.db.sequences ≤ (w.step c).db.sequences ∧ (w.step c).accepted = w.accepted) := by
  rcases outcome : c.run w.db with ⟨failure | visible, db⟩
  · obtain ⟨tables, grown⟩ := run_error outcome
    have after : w.step c = { w with db } := by rw [World.step, outcome]
    exact .inr ⟨⟨failure, rfl⟩, by rw [after]; exact tables, by rw [after]; exact grown, by rw [after]⟩
  · obtain ⟨accepts, -, rfl⟩ := run_ok outcome
    have after : w.step c =
        { db := c.applied w.db, accepted := w.accepted ++ [{ id := w.db.sequences.snapshots, call := c }] } := by
      rw [World.step, outcome]
    exact .inl ⟨accepts, ⟨visible, rfl⟩, by rw [after]; exact applied_imported consistent, by rw [after]⟩

/-! ### The invariant -/

/-- Every bank holds a suffix of its accepted calls, the last one included. -/
structure Invariant (w : World) : Prop where
  consistent : Consistent w.db
  suffix : ∀ bank, storedOf w.db bank <:+ (w.acceptedOf bank).map Accepted.stored
  last : ∀ bank, (storedOf w.db bank).getLast? = (w.acceptedOf bank).getLast?.map Accepted.stored

theorem acceptedOf_concat (accepted : List Accepted) (a : Accepted) (bank : String) :
    (accepted ++ [a]).filter (fun a => a.call.bank = bank) =
      accepted.filter (fun a => a.call.bank = bank) ++ if a.call.bank = bank then [a] else [] := by
  by_cases own : a.call.bank = bank <;> simp [List.filter_append, own]

theorem acceptedOf_step {w : World} {c : ImportCall} {a : Accepted} (accepted : (w.step c).accepted = w.accepted ++ [a])
    (bank : String) : (w.step c).acceptedOf bank = w.acceptedOf bank ++ if a.call.bank = bank then [a] else [] := by
  rw [World.acceptedOf, accepted, acceptedOf_concat]; rfl

theorem keepLast_suffix {α : Type} (keep : Int) (l : List α) : keepLast keep l <:+ l := by
  unfold keepLast
  split
  · exact List.suffix_refl l
  · exact List.drop_suffix _ l

/-- Pruning never takes the newest. -/
theorem keepLast_concat_getLast? {α : Type} (keep : Int) (l : List α) (a : α) :
    (keepLast keep (l ++ [a])).getLast? = some a := by
  unfold keepLast
  split
  · simp
  · rename_i bound
    obtain ⟨n, isSucc⟩ : ∃ n, keep.toNat = n + 1 := ⟨keep.toNat - 1, by omega⟩
    rw [isSucc, List.rtake_concat_succ]
    simp

theorem step_invariant {w : World} (invariant : Invariant w) (c : ImportCall) : Invariant (w.step c) := by
  rcases step_cases w c invariant.consistent with ⟨_, _, imported, accepted⟩ | ⟨_, tables, grown, accepted⟩
  · have entry : ∀ bank, (w.step c).acceptedOf bank = w.acceptedOf bank ++
        if c.bank = bank then [{ id := w.db.sequences.snapshots, call := c }] else [] := acceptedOf_step accepted
    refine ⟨imported.consistent, fun bank => ?_, fun bank => ?_⟩
    · by_cases own : c.bank = bank
      · subst own
        rw [imported.own, entry, if_pos rfl, List.map_append]
        refine (keepLast_suffix _ _).trans ?_
        obtain ⟨earlier, split⟩ := invariant.suffix c.bank
        exact ⟨earlier, by rw [← split, List.append_assoc]; rfl⟩
      · rw [imported.others bank (fun same => own same.symm), entry, if_neg own, List.append_nil]
        exact invariant.suffix bank
    · by_cases own : c.bank = bank
      · subst own
        rw [imported.own, entry, if_pos rfl, keepLast_concat_getLast?, List.getLast?_concat]; rfl
      · rw [imported.others bank (fun same => own same.symm), entry, if_neg own, List.append_nil]
        exact invariant.last bank
  · have entry : ∀ bank, (w.step c).acceptedOf bank = w.acceptedOf bank := by
      intro bank; rw [World.acceptedOf, accepted]; rfl
    refine ⟨consistent_grow invariant.consistent tables grown, fun bank => ?_, fun bank => ?_⟩
    · rw [storedOf_tables tables, entry]; exact invariant.suffix bank
    · rw [storedOf_tables tables, entry]; exact invariant.last bank

theorem invariant_start : Invariant {} := ⟨consistent_empty, fun _ => List.suffix_refl _, fun _ => rfl⟩

/-- The invariant holds after any calls. -/
theorem execute_invariant (calls : List ImportCall) : Invariant (execute calls) := by
  induction calls using List.reverseRecOn with
  | nil => exact invariant_start
  | append_singleton calls c ih => rw [execute_concat]; exact step_invariant ih c

/-- What the empty world has and every step keeps holds after any calls. -/
theorem execute_induction {P : World → Prop} (start : P {}) (calls : List ImportCall)
    (step : ∀ w, ∀ c ∈ calls, Invariant w → P w → P (w.step c)) : P (execute calls) := by
  induction calls using List.reverseRecOn with
  | nil => exact start
  | append_singleton calls c ih =>
    rw [execute_concat]
    exact step _ c (by simp) (execute_invariant calls)
      (ih (fun w d member => step w d (List.mem_append_left _ member)))

/-! ### The current snapshot of a bank -/

theorem latestSnapshot_stored {db : Db} (consistent : Consistent db) (bank : String) :
    (latestSnapshot db bank).map (storedSnapshot db) = (storedOf db bank).getLast? := by
  rw [latestSnapshot_eq consistent, storedOf, List.getLast?_map]

/-- The baseline of the next import is the last accepted one. -/
theorem previous_cases {w : World} (invariant : Invariant w) (c : ImportCall) :
    (w.acceptedOf c.bank = [] ∧ c.previous w.db = none) ∨
      ∃ a state, (w.acceptedOf c.bank).getLast? = some a ∧ c.previous w.db = some state ∧
        ReadsAs state a.call.snapshot := by
  have found := latestSnapshot_stored invariant.consistent c.bank
  rw [invariant.last] at found
  cases last : (w.acceptedOf c.bank).getLast? with
  | none =>
    rw [last] at found
    have none := Option.map_eq_none_iff.mp found
    exact .inl ⟨List.getLast?_eq_none_iff.mp last, by rw [ImportCall.previous, none]; rfl⟩
  | some a =>
    rw [last] at found
    obtain ⟨r, latest, image⟩ := Option.map_eq_some_iff.mp found
    refine .inr ⟨a, snapshotState c.order w.db r.id, rfl, by rw [ImportCall.previous, latest]; rfl, ?_⟩
    exact readsAs_of_servicesOf invariant.consistent (congrArg StoredSnapshot.services image) c.order

theorem visibleCount_perm {l l' : List MethodRecord} (perm : l.Perm l') : visibleCount l = visibleCount l' :=
  (perm.filter _).length_eq

theorem max?_ascending {l : List Nat} (ascending : l.Pairwise (· < ·)) : l.max? = l.getLast? := by
  cases l using List.reverseRecOn with
  | nil => rfl
  | append_singleton l n =>
    rw [List.getLast?_concat, List.max?_eq_some_iff]
    refine ⟨by simp, fun m member => ?_⟩
    rcases List.mem_append.mp member with earlier | same
    · exact Nat.le_of_lt ((List.pairwise_append.mp ascending).2.2 m earlier n (List.mem_singleton_self n))
    · rw [List.mem_singleton.mp same]

theorem maxSnapshotId_eq {db : Db} (consistent : Consistent db) (bank : String) :
    maxSnapshotId db bank = (latestSnapshot db bank).map SnapshotRow.id := by
  rw [maxSnapshotId, max?_ascending (bankRows_ascending consistent bank), latestSnapshot_eq consistent,
    List.getLast?_map]

theorem mem_maxSnapshotIds {db : Db} {id : Nat} :
    id ∈ maxSnapshotIds db ↔ ∃ bank, maxSnapshotId db bank = some id := by
  simp only [maxSnapshotIds, Dict.values, List.mem_filterMap, List.mem_map]
  constructor
  · rintro ⟨_, ⟨e, member, rfl⟩, top⟩
    refine ⟨e.1, ?_⟩
    have group := (Dict.get?_groupBy SnapshotRow.bank SnapshotRow.id db.snapshots e.1).1
    rw [Dict.get?_eq_some.mpr member, Option.getD_some] at group
    rw [maxSnapshotId, ← group]; exact top
  · rintro ⟨bank, top⟩
    obtain ⟨values, members⟩ := Dict.get?_groupBy SnapshotRow.bank SnapshotRow.id db.snapshots bank
    have present : bank ∈ (Dict.groupBy SnapshotRow.bank SnapshotRow.id db.snapshots).keys := by
      obtain ⟨r, inBank, _⟩ := List.mem_map.mp (List.max?_mem top)
      obtain ⟨stored, isBank⟩ := List.mem_filter.mp inBank
      exact members.mpr ⟨r, stored, of_decide_eq_true isBank⟩
    obtain ⟨ids, found⟩ := Dict.mem_keys.mp present
    rw [found, Option.getD_some] at values
    refine ⟨ids, ⟨(bank, ids), Dict.get?_eq_some.mp found, rfl⟩, ?_⟩
    rw [values]; exact top

theorem latestSnapshot_iff {db : Db} (consistent : Consistent db) {bank : String} {r : SnapshotRow} :
    latestSnapshot db bank = some r ↔
      r ∈ db.snapshots ∧ r.bank = bank ∧ ∀ r' ∈ db.snapshots, r'.bank = bank → r'.id ≤ r.id := by
  have ascending := bankRows_ascending consistent bank
  have newest : ∀ {r}, (db.snapshots.filter (fun r => r.bank = bank)).getLast? = some r →
      r ∈ db.snapshots ∧ r.bank = bank ∧ ∀ r' ∈ db.snapshots, r'.bank = bank → r'.id ≤ r.id := by
    intro r last
    obtain ⟨stored, isBank⟩ := List.mem_filter.mp (List.mem_of_getLast? last)
    refine ⟨stored, of_decide_eq_true isBank, fun r' stored' isBank' => ?_⟩
    have top : ((db.snapshots.filter (fun r => r.bank = bank)).map SnapshotRow.id).max? = some r.id := by
      rw [max?_ascending ascending, List.getLast?_map, last]; rfl
    exact (List.max?_eq_some_iff.mp top).2 r'.id
      (List.mem_map_of_mem (List.mem_filter.mpr ⟨stored', decide_eq_true isBank'⟩))
  rw [latestSnapshot_eq consistent]
  constructor
  · exact newest
  · rintro ⟨stored, isBank, greatest⟩
    have inBank : r ∈ db.snapshots.filter (fun r => r.bank = bank) :=
      List.mem_filter.mpr ⟨stored, decide_eq_true isBank⟩
    cases last : (db.snapshots.filter (fun r => r.bank = bank)).getLast? with
    | none => rw [List.getLast?_eq_none_iff.mp last] at inBank; cases inBank
    | some r' =>
      obtain ⟨stored', isBank', greatest'⟩ := newest last
      have same := Nat.le_antisymm (greatest r' stored' isBank') (greatest' r stored isBank)
      rw [row_unique consistent.snapshotIds stored' stored same]

/-- DISTINCT ON keeps the newest snapshot of each bank. -/
theorem mem_latestOfBanks {db : Db} (consistent : Consistent db) {r : SnapshotRow} :
    r ∈ latestOfBanks db ↔ latestSnapshot db r.bank = some r := by
  set rows := orderBy (fun r : SnapshotRow => toLex (r.bank, OrderDual.toDual r.id)) db.snapshots with rowsAre
  have perm : rows.Perm db.snapshots := List.perm_insertionSort _ db.snapshots
  have inOrder : rows.Pairwise (fun a b => toLex (a.bank, OrderDual.toDual a.id) ≤ toLex (b.bank, OrderDual.toDual b.id)) :=
    List.pairwise_insertionSort (fun a b : SnapshotRow =>
      toLex (a.bank, OrderDual.toDual a.id) ≤ toLex (b.bank, OrderDual.toDual b.id)) db.snapshots
  have newest : ∀ {k r}, rows.find? (fun a => a.bank = k) = some r → latestSnapshot db k = some r := by
    intro k r found
    have isBank : r.bank = k := by simpa using List.find?_some found
    obtain ⟨_, earlier, later, split, others⟩ := List.find?_eq_some_iff_append.mp found
    refine (latestSnapshot_iff consistent).mpr
      ⟨perm.mem_iff.mp (List.mem_of_find?_eq_some found), isBank, fun r' stored isBank' => ?_⟩
    have inside : r' ∈ earlier ++ r :: later := split ▸ perm.mem_iff.mpr stored
    rcases List.mem_append.mp inside with before | rest
    · have other := others r' before
      simp only [isBank', decide_true, Bool.not_true, Bool.false_eq_true] at other
    · rcases List.mem_cons.mp rest with rfl | after
      · exact le_rfl
      · rw [split, List.pairwise_append] at inOrder
        have le := (List.pairwise_cons.mp inOrder.2.1).1 r' after
        rw [Prod.Lex.toLex_le_toLex] at le
        rcases le with less | ⟨_, down⟩
        · rw [isBank, isBank'] at less; exact absurd less (lt_irrefl k)
        · exact down
  have values : r ∈ latestOfBanks db ↔ ∃ k, rows.find? (fun a => a.bank = k) = some r := by
    simp only [latestOfBanks, Dict.values, List.mem_map, Prod.exists, exists_eq_right, ← Dict.get?_eq_some,
      Dict.get?_firstBy, ← rowsAre]
  rw [values]
  constructor
  · rintro ⟨k, found⟩
    have isBank : r.bank = k := by simpa using List.find?_some found
    rw [isBank]; exact newest found
  · intro latest
    refine ⟨r.bank, ?_⟩
    have stored := ((latestSnapshot_iff consistent).mp latest).1
    cases found : rows.find? (fun a => a.bank = r.bank) with
    | none => simpa using List.find?_eq_none.mp found r (perm.mem_iff.mpr stored)
    | some r' => rw [← newest found, latest]

/-- Every query for the current snapshot of the bank finds this one, and it is
    stored. -/
structure SameCurrent (db : Db) (bank : String) (current : Option Nat) : Prop where
  baseline : (latestSnapshot db bank).map SnapshotRow.id = current
  services : maxSnapshotId db bank = current
  stats : ∀ r ∈ db.snapshots, r.bank = bank → (r.id ∈ maxSnapshotIds db ↔ current = some r.id)
  benchmark : ∀ r, r.bank = bank → (r ∈ latestOfBanks db ↔ r ∈ db.snapshots ∧ current = some r.id)
  held : ∀ id, current = some id → ∃ r ∈ db.snapshots, r.id = id ∧ r.bank = bank

theorem sameCurrent {db : Db} (consistent : Consistent db) (bank : String) :
    SameCurrent db bank ((latestSnapshot db bank).map SnapshotRow.id) := by
  have latestOf : ∀ r ∈ db.snapshots, (latestSnapshot db bank).map SnapshotRow.id = some r.id →
      latestSnapshot db bank = some r := by
    intro r stored current
    obtain ⟨r', latest, same⟩ := Option.map_eq_some_iff.mp current
    have stored' := ((latestSnapshot_iff consistent).mp latest).1
    rw [← row_unique consistent.snapshotIds stored' stored same]; exact latest
  refine ⟨rfl, maxSnapshotId_eq consistent bank, fun r stored isBank => ?_, fun r isBank => ?_, ?_⟩
  · rw [mem_maxSnapshotIds]
    constructor
    · rintro ⟨bank', top⟩
      rw [maxSnapshotId_eq consistent] at top
      obtain ⟨r', latest, same⟩ := Option.map_eq_some_iff.mp top
      obtain ⟨stored', isBank', -⟩ := (latestSnapshot_iff consistent).mp latest
      have equal := row_unique consistent.snapshotIds stored' stored same
      subst equal
      rw [← isBank, isBank', latest]; rfl
    · intro current
      exact ⟨bank, by rw [maxSnapshotId_eq consistent]; exact current⟩
  · rw [mem_latestOfBanks consistent, isBank]
    constructor
    · intro latest
      exact ⟨((latestSnapshot_iff consistent).mp latest).1, by rw [latest]; rfl⟩
    · rintro ⟨stored, current⟩
      exact latestOf r stored current
  · intro id current
    obtain ⟨r, latest, same⟩ := Option.map_eq_some_iff.mp current
    obtain ⟨stored, isBank, -⟩ := (latestSnapshot_iff consistent).mp latest
    exact ⟨r, stored, same, isBank⟩

end ScanApi.ImportRuns
