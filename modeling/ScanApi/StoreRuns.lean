import Mathlib.Data.List.Chain
import ScanApi.VisibleCounts

/-!
The store after any imports with one bound for the snapshots kept
(`execute_storeInvariant`): what is stored of a bank is its last accepted
imports, and the import that comes next, the services, the statistics and the
benchmark all read the newest of them (`Reads`).
-/
namespace ScanApi.StoreRuns
open ScanApi.Diff ScanApi.Database ScanApi.Repository ScanApi.SnapshotImport ScanApi.ImportEffect ScanApi.Stored
  ScanApi.ImportStep ScanApi.ReadBack ScanApi.ImportRuns ScanApi.PublicQueries ScanApi.VisibleCounts

/-! ### What the queries read -/

/-- The services of a snapshot that a query shows, with the methods it shows. -/
def shownPart (includeHidden : Bool) (s : StoredSnapshot) : List StoredService :=
  (s.services.filter (fun sv => includeHidden || !sv.hidden)).map (fun sv =>
    { sv with methods := sv.methods.filter (fun m => includeHidden || !m.hidden) })

def statsIn (bank : String) (includeHidden : Bool) (s : StoredSnapshot) : Stats where
  bank
  serviceCount := (shownPart includeHidden s).length
  methodCount := ((shownPart includeHidden s).map (fun sv => sv.methods.length)).sum

def benchmarkIn (bank : String) (s : StoredSnapshot) : List BenchmarkRow :=
  (shownPart false s).flatMap (fun sv => (leftJoin sv.methods).map (fun m =>
    { bank, createdAt := s.createdAt, service := sv.name, path := m.bind StoredMethod.path }))

/-- Of this bank, everything that is read comes from one stored snapshot. -/
structure Reads (db : Db) (bank : String) (current : Option StoredSnapshot) : Prop where
  baseline : (latestSnapshot db bank).map (storedSnapshot db) = current
  services : ∀ includeHidden, (getBankServices db bank includeHidden).map (storedService db) =
    orderBy StoredService.name (current.toList.flatMap (fun s => s.services.filter (fun sv => includeHidden || !sv.hidden)))
  owner : ∀ includeHidden, ∀ sv ∈ getBankServices db bank includeHidden, current.map StoredSnapshot.id = some sv.snapshotId
  stats : ∀ includeHidden, (getStats db includeHidden).filter (fun st => st.bank = bank) =
    current.toList.map (statsIn bank includeHidden)
  benchmark : (latestServices db).filter (fun r => r.bank = bank) = current.toList.flatMap (benchmarkIn bank)

theorem shownPart_true (s : StoredSnapshot) : shownPart true s = s.services := by
  simp [shownPart]

theorem allOf_statsIn (db : Db) (r : SnapshotRow) : allOf db r = statsIn r.bank true (storedSnapshot db r) := by
  rw [allOf, statsIn, shownPart_true, List.length_flatMap]
  simp only [storedSnapshot, servicesOf, List.length_map, List.map_map]
  congr 2
  apply List.map_congr_left
  intro sv _
  simp [methodRows, storedService, methodsOf]

theorem getStats_in {db : Db} (consistent : Consistent db) (includeHidden : Bool) : getStats db includeHidden =
    orderBy Stats.bank ((latestRows db).map (fun r => statsIn r.bank includeHidden (storedSnapshot db r))) := by
  cases includeHidden with
  | false => exact getStats_eq consistent
  | true => simp only [getStats_true consistent, ← allOf_statsIn]

theorem services_reads {db : Db} (consistent : Consistent db) (bank : String) (includeHidden : Bool) :
    (getBankServices db bank includeHidden).map (storedService db) =
      orderBy StoredService.name (((latestSnapshot db bank).map (storedSnapshot db)).toList.flatMap (fun s =>
        s.services.filter (fun sv => includeHidden || !sv.hidden))) := by
  rw [getBankServices_rows consistent]
  cases latestSnapshot db bank with
  | none => rfl
  | some r =>
    refine (map_orderBy (storedService db) StoredService.name _).trans ?_
    simp only [Option.map_some, Option.toList_some, List.flatMap_singleton, storedSnapshot, servicesOf, List.filter_map]
    rfl

theorem services_owner {db : Db} (consistent : Consistent db) (bank : String) (includeHidden : Bool) :
    ∀ sv ∈ getBankServices db bank includeHidden,
      ((latestSnapshot db bank).map (storedSnapshot db)).map StoredSnapshot.id = some sv.snapshotId := by
  intro sv member
  rw [getBankServices_rows consistent] at member
  cases latest : latestSnapshot db bank with
  | none => rw [latest] at member; cases member
  | some r =>
    rw [latest] at member
    have inside := List.mem_of_mem_filter ((List.perm_insertionSort _ _).mem_iff.mp member)
    have own := of_decide_eq_true (List.mem_filter.mp inside).2
    exact congrArg some own.symm

theorem stats_reads {db : Db} (consistent : Consistent db) (bank : String) (includeHidden : Bool) :
    (getStats db includeHidden).filter (fun st => st.bank = bank) =
      ((latestSnapshot db bank).map (storedSnapshot db)).toList.map (statsIn bank includeHidden) := by
  have alone := latestRows_bank consistent bank
  have perm := (List.perm_insertionSort (fun a b : Stats => a.bank ≤ b.bank) ((latestRows db).map (fun r =>
    statsIn r.bank includeHidden (storedSnapshot db r)))).filter (fun st => st.bank = bank)
  rw [List.filter_map] at perm
  have own : (latestRows db).filter ((fun st : Stats => decide (st.bank = bank)) ∘ fun r =>
      statsIn r.bank includeHidden (storedSnapshot db r)) = (latestSnapshot db bank).toList := alone
  rw [own] at perm
  rw [getStats_in consistent]
  cases latest : latestSnapshot db bank with
  | none => rw [latest] at perm; exact List.perm_nil.mp perm
  | some r =>
    rw [latest] at perm
    have isBank := ((latestSnapshot_iff consistent).mp latest).2.1
    rw [← isBank] at perm ⊢
    exact List.perm_singleton.mp perm

theorem benchmark_reads {db : Db} (consistent : Consistent db) (bank : String) :
    (latestServices db).filter (fun r => r.bank = bank) =
      ((latestSnapshot db bank).map (storedSnapshot db)).toList.flatMap (benchmarkIn bank) := by
  have distinct : ((latestOfBanks db).map SnapshotRow.bank).Nodup :=
    List.pairwise_map.mpr ((latestOfBanks_ascending consistent).imp (fun less => ne_of_lt less))
  have alone := filter_latest consistent distinct (mem_latestOfBanks consistent) bank
  have own : ∀ l, (benchmarkOf db l).filter (fun r => r.bank = bank) = if l.bank = bank then benchmarkOf db l else [] := by
    intro l
    have banks : ∀ r ∈ benchmarkOf db l, r.bank = l.bank := by
      intro r member
      obtain ⟨sv, _, inside⟩ := List.mem_flatMap.mp member
      obtain ⟨m, _, rfl⟩ := List.mem_map.mp inside
      rfl
    split
    · rename_i same
      exact List.filter_eq_self.mpr (fun r member => decide_eq_true ((banks r member).trans same))
    · rename_i other
      exact List.filter_eq_nil_iff.mpr (fun r member same => other ((banks r member).symm.trans (of_decide_eq_true same)))
  rw [latestServices_eq consistent, List.filter_flatMap]
  simp only [own]
  rw [flatMap_ite, alone]
  cases latest : latestSnapshot db bank with
  | none => rfl
  | some r =>
    have isBank := ((latestSnapshot_iff consistent).mp latest).2.1
    rw [← isBank]
    rfl

theorem reads {db : Db} (consistent : Consistent db) (bank : String) :
    Reads db bank ((latestSnapshot db bank).map (storedSnapshot db)) :=
  ⟨rfl, services_reads consistent bank, services_owner consistent bank, stats_reads consistent bank,
    benchmark_reads consistent bank⟩

/-! ### The store over whole runs -/

/-- The store after any calls with one bound for the snapshots kept. -/
structure StoreInvariant (keep : Int) (w : World) : Prop where
  stored : ∀ bank, storedOf w.db bank = ((w.acceptedOf bank).map Accepted.stored).rtake keep.toNat
  current : ∀ bank, SameCurrent w.db bank ((w.acceptedOf bank).getLast?.map Accepted.id)
  reads : ∀ bank, Reads w.db bank ((w.acceptedOf bank).getLast?.map Accepted.stored)
  visible : ∀ bank, ∀ s ∈ storedOf w.db bank, 0 < visibleCount (records s.services)
  ratio : ∀ bank, (w.acceptedOf bank).IsChain (fun a b => b.call.minRatio * (a.visible : ℚ) ≤ b.visible)

/-- Keeping the last ones again after one more. -/
theorem rtake_rtake_concat {α : Type} (keep : Nat) (l : List α) (a : α) :
    (l.rtake keep ++ [a]).rtake keep = (l ++ [a]).rtake keep := by
  cases keep with
  | zero => simp
  | succ n =>
    rw [List.rtake_concat_succ, List.rtake_concat_succ]
    simp only [List.rtake, List.drop_drop, List.length_drop]
    congr 2
    omega

theorem accepted_visible {w : World} (invariant : Invariant w) {c : ImportCall} (accepts : c.Accepts w.db) :
    0 < visibleCount (snapshotToRecords c.snapshot).2 ∧
      ∀ a, (w.acceptedOf c.bank).getLast? = some a →
        c.minRatio * (a.visible : ℚ) ≤ visibleCount (snapshotToRecords c.snapshot).2 := by
  refine ⟨Nat.pos_of_ne_zero accepts.sane.some, fun a last => ?_⟩
  rcases previous_cases invariant c with ⟨none, _⟩ | ⟨a', state, last', previous, reads⟩
  · rw [none] at last; cases last
  · rw [last] at last'
    cases last'
    have count : visibleCount state.2 = a.visible := visibleCount_perm reads.2
    have kept := accepts.sane.kept a.visible (by rw [previous, ← count]; rfl)
    by_cases zero : a.visible = 0
    · simp [zero]
    · by_cases positive : 0 < c.minRatio
      · rw [mul_comm]; exact kept zero positive
      · exact (mul_nonpos_of_nonpos_of_nonneg (not_lt.mp positive) (Nat.cast_nonneg _)).trans (Nat.cast_nonneg _)

theorem execute_visible (calls : List ImportCall) : ∀ a ∈ (execute calls).accepted, 0 < a.visible := by
  refine execute_induction (P := fun w => ∀ a ∈ w.accepted, 0 < a.visible) (by simp) calls ?_
  intro w c _ invariant visible
  rcases step_cases w c invariant.consistent with ⟨accepts, _, _, accepted⟩ | ⟨_, _, _, accepted⟩
  · rw [accepted]
    intro a member
    rcases List.mem_append.mp member with old | new
    · exact visible a old
    · rw [List.mem_singleton.mp new]; exact (accepted_visible invariant accepts).1
  · rw [accepted]; exact visible

theorem execute_ratio (calls : List ImportCall) (bank : String) :
    ((execute calls).acceptedOf bank).IsChain (fun a b => b.call.minRatio * (a.visible : ℚ) ≤ b.visible) := by
  refine execute_induction (P := fun w => (w.acceptedOf bank).IsChain
    (fun a b => b.call.minRatio * (a.visible : ℚ) ≤ b.visible)) List.IsChain.nil calls ?_
  intro w c _ invariant chain
  rcases step_cases w c invariant.consistent with ⟨accepts, _, _, accepted⟩ | ⟨_, _, _, accepted⟩
  · rw [acceptedOf_step accepted]
    split
    · rename_i own
      subst own
      refine List.isChain_append.mpr ⟨chain, List.IsChain.singleton _, ?_⟩
      intro a last b only
      rw [List.head?_cons, Option.mem_some_iff] at only
      rw [← only]
      exact (accepted_visible invariant accepts).2 a last
    · simpa using chain
  · rw [World.acceptedOf, accepted]; exact chain

theorem execute_stored {keep : Int} (positive : 1 ≤ keep) (calls : List ImportCall)
    (fixed : ∀ c ∈ calls, c.keep = keep) (bank : String) : storedOf (execute calls).db bank =
      (((execute calls).acceptedOf bank).map Accepted.stored).rtake keep.toNat := by
  refine execute_induction (P := fun w => storedOf w.db bank =
    ((w.acceptedOf bank).map Accepted.stored).rtake keep.toNat) (by simp [storedOf, World.acceptedOf]) calls ?_
  intro w c member invariant stored
  rcases step_cases w c invariant.consistent with ⟨_, _, imported, accepted⟩ | ⟨_, tables, _, accepted⟩
  · rw [acceptedOf_step accepted]
    by_cases own : c.bank = bank
    · subst own
      have pruned : keepLast c.keep (storedOf w.db c.bank ++ [addedSnapshot c w.db]) =
          (storedOf w.db c.bank ++ [addedSnapshot c w.db]).rtake keep.toNat := by
        rw [keepLast, fixed c member, if_neg (by omega)]
      rw [imported.own, pruned, stored, rtake_rtake_concat, if_pos rfl, List.map_append]
      rfl
    · rw [imported.others bank (fun same => own same.symm), stored, if_neg own, List.append_nil]
  · rw [storedOf_tables tables, stored, World.acceptedOf, World.acceptedOf, accepted]

theorem execute_current (calls : List ImportCall) (bank : String) :
    SameCurrent (execute calls).db bank (((execute calls).acceptedOf bank).getLast?.map Accepted.id) := by
  have invariant := execute_invariant calls
  have found := latestSnapshot_stored invariant.consistent bank
  rw [invariant.last] at found
  have ids := congrArg (Option.map StoredSnapshot.id) found
  simp only [Option.map_map] at ids
  have same := sameCurrent invariant.consistent bank
  rwa [show (latestSnapshot (execute calls).db bank).map SnapshotRow.id =
    ((execute calls).acceptedOf bank).getLast?.map Accepted.id from ids] at same

theorem execute_reads (calls : List ImportCall) (bank : String) :
    Reads (execute calls).db bank (((execute calls).acceptedOf bank).getLast?.map Accepted.stored) := by
  have invariant := execute_invariant calls
  have found := latestSnapshot_stored invariant.consistent bank
  rw [invariant.last] at found
  rw [← found]
  exact reads invariant.consistent bank

/-- The history only grows. -/
theorem step_history {w : World} (invariant : Invariant w) (c : ImportCall) :
    w.db.changes.map forgotten <+: (w.step c).db.changes.map forgotten := by
  rcases step_cases w c invariant.consistent with ⟨_, _, imported, _⟩ | ⟨_, tables, _, _⟩
  · rw [imported.history, List.map_append]; exact List.prefix_append _ _
  · rw [tables]

theorem execute_history (calls later : List ImportCall) :
    (execute calls).db.changes.map forgotten <+: (execute (calls ++ later)).db.changes.map forgotten := by
  induction later using List.reverseRecOn with
  | nil => rw [List.append_nil]
  | append_singleton later c ih =>
    rw [← List.append_assoc, execute_concat]
    exact ih.trans (step_history (execute_invariant _) c)

/-- A call that fails leaves the tables alone, and a call for another bank leaves
    the bank alone. -/
structure Frame (w : World) (c : ImportCall) : Prop where
  failed : ∀ failure, (c.run w.db).1 = .error failure → (w.step c).db.toTables = w.db.toTables
  foreign : ∀ bank, c.bank ≠ bank → storedOf (w.step c).db bank = storedOf w.db bank ∧
    (w.step c).db.changes.filter (fun r => r.bank = bank) = w.db.changes.filter (fun r => r.bank = bank)

theorem step_frame {w : World} (invariant : Invariant w) (c : ImportCall) : Frame w c := by
  rcases step_cases w c invariant.consistent with ⟨_, ⟨visible, returned⟩, imported, _⟩ | ⟨_, tables, _, _⟩
  · refine ⟨fun failure raised => ?_, fun bank other => ?_⟩
    · rw [returned] at raised; cases raised
    · exact ⟨imported.others bank (fun same => other same.symm), imported.otherChanges bank (fun same => other same.symm)⟩
  · refine ⟨fun _ _ => tables, fun bank _ => ⟨storedOf_tables tables bank, ?_⟩⟩
    rw [tables]

/-- The store after any calls with one bound for the snapshots kept: what is
    stored is the last accepted imports, every query finds the newest of them, and
    no later call takes a change away or touches what is not its own. -/
theorem execute_storeInvariant {keep : Int} (positive : 1 ≤ keep) (calls : List ImportCall)
    (fixed : ∀ c ∈ calls, c.keep = keep) : StoreInvariant keep (execute calls) ∧
      (∀ later, (execute calls).db.changes.map forgotten <+: (execute (calls ++ later)).db.changes.map forgotten) ∧
      ∀ next, Frame (execute calls) next := by
  refine ⟨⟨execute_stored positive calls fixed, execute_current calls, execute_reads calls,
      fun bank s member => ?_, execute_ratio calls⟩,
    execute_history calls, step_frame (execute_invariant calls)⟩
  obtain ⟨a, accepted, rfl⟩ := List.mem_map.mp (((execute_invariant calls).suffix bank).subset member)
  change 0 < visibleCount (records (content a.call.snapshot))
  rw [records_content]
  exact execute_visible calls a (List.mem_of_mem_filter accepted)

theorem execute_storeInvariant_twoDays : StoreInvariant 2 (execute twoDays) ∧
    (∀ later, (execute twoDays).db.changes.map forgotten <+: (execute (twoDays ++ later)).db.changes.map forgotten) ∧
      ∀ next, Frame (execute twoDays) next :=
  execute_storeInvariant (by decide) twoDays (by decide)

/-- Three of the calls for the first bank are rejected or lost. -/
example : ((execute twoDays).acceptedOf "alfa").map Accepted.id = [1, 4, 5] ∧
    ((storedOf (execute twoDays).db "alfa").map StoredSnapshot.id) = [4, 5] := by decide +kernel

end ScanApi.StoreRuns
