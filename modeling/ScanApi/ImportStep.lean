import Mathlib.Data.List.DropRight
import ScanApi.Stored

/-!
One accepted import, seen on the stored values: the bank gains the content of
its snapshot and keeps the last ones, the history gains the changes, and nothing
else changes (`applied_imported`).
-/
namespace ScanApi.ImportStep
open ScanApi.Diff ScanApi.Database ScanApi.Repository ScanApi.SnapshotImport ScanApi.ImportEffect ScanApi.Stored

/-! ### Pruning -/

/-- The last snapshots that a call keeps; a bound below one keeps them all. -/
def keepLast {α : Type} (keep : Int) (l : List α) : List α := if keep < 1 then l else l.rtake keep.toNat

/-- The rows of an owner after those of some owners are deleted. -/
theorem filter_owner {α : Type} (owner : α → Nat) (rows : List α) (gone : List Nat) (id : Nat) :
    (rows.filter (fun r => owner r ∉ gone)).filter (fun r => owner r = id) =
      if id ∈ gone then [] else rows.filter (fun r => owner r = id) := by
  rw [List.filter_filter]
  split
  · rename_i deleted
    rw [List.filter_eq_nil_iff]
    intro r _ both
    simp only [Bool.and_eq_true, decide_eq_true_eq] at both
    exact both.2 (both.1 ▸ deleted)
  · rename_i kept
    apply List.filter_congr
    intro r _
    by_cases here : owner r = id
    · simp [here, kept]
    · simp [here]

/-- A row whose owner is kept is not among the deleted ones. -/
theorem not_mem_deleted {α : Type} {key owner : α → Nat} {rows : List α} {gone : List Nat}
    (ascending : (rows.map key).Pairwise (· < ·)) {r : α} (stored : r ∈ rows) (kept : owner r ∉ gone) :
    key r ∉ (rows.filter (fun r => owner r ∈ gone)).map key := by
  intro deleted
  obtain ⟨r', inside, sameId⟩ := List.mem_map.mp deleted
  obtain ⟨stored', dropped⟩ := List.mem_filter.mp inside
  obtain rfl := row_unique ascending stored' stored sameId
  exact kept (of_decide_eq_true dropped)

/-- A kept method keeps its fields. -/
theorem deleteSnapshots_fields {db : Db} (consistent : Consistent db) (ids : List Nat) {m : MethodRow}
    (stored : m ∈ db.methods)
    (kept : m.serviceId ∉ (db.services.filter (fun r => r.snapshotId ∈ ids)).map ServiceRow.id) :
    fieldsOf (Db.deleteSnapshots db ids) m.id = fieldsOf db m.id := by
  have stays := not_mem_deleted consistent.methodIds stored kept
  have rows := (filter_owner FieldRow.methodId db.fields _ m.id).trans (if_neg stays)
  exact congrArg (List.map FieldRow.name) rows

/-- A kept service keeps its methods with their fields. -/
theorem deleteSnapshots_methods {db : Db} (consistent : Consistent db) (ids : List Nat) {s : ServiceRow}
    (stored : s ∈ db.services) (kept : s.snapshotId ∉ ids) :
    methodsOf (Db.deleteSnapshots db ids) s.id = methodsOf db s.id := by
  have stays := not_mem_deleted consistent.serviceIds stored kept
  have rows : (Db.deleteSnapshots db ids).methods.filter (fun m => m.serviceId = s.id) =
      db.methods.filter (fun m => m.serviceId = s.id) :=
    (filter_owner MethodRow.serviceId db.methods _ s.id).trans (if_neg stays)
  rw [methodsOf, methodsOf, rows]
  apply List.map_congr_left
  intro m member
  obtain ⟨storedMethod', ofService⟩ := List.mem_filter.mp member
  rw [deleteSnapshots_fields consistent ids storedMethod' (of_decide_eq_true ofService ▸ stays)]

theorem deleteSnapshots_services {db : Db} (consistent : Consistent db) (ids : List Nat) (id : Nat) :
    servicesOf (Db.deleteSnapshots db ids) id = if id ∈ ids then [] else servicesOf db id := by
  have rows : (Db.deleteSnapshots db ids).services.filter (fun r => r.snapshotId = id) =
      if id ∈ ids then [] else db.services.filter (fun r => r.snapshotId = id) :=
    filter_owner ServiceRow.snapshotId db.services ids id
  rw [servicesOf, rows]
  split
  · rfl
  · rename_i kept
    apply List.map_congr_left
    intro s member
    obtain ⟨stored, owner⟩ := List.mem_filter.mp member
    rw [storedService, storedService, deleteSnapshots_methods consistent ids stored (of_decide_eq_true owner ▸ kept)]

@[simp] theorem forget_bank (ids : List Nat) (r : ChangeRow) : (ChangeRow.forget ids r).bank = r.bank := by
  unfold ChangeRow.forget; split <;> rfl

theorem forget_owner {ids : List Nat} {r : ChangeRow} {id : Nat} (owner : (ChangeRow.forget ids r).snapshotId = some id) :
    r.snapshotId = some id ∧ id ∉ ids := by
  unfold ChangeRow.forget at owner
  split at owner
  · cases owner
  · rename_i kept
    exact ⟨owner, by simpa [owner] using kept⟩

theorem consistent_deleteSnapshots {db : Db} (consistent : Consistent db) (ids : List Nat) :
    Consistent (Db.deleteSnapshots db ids) := by
  refine ⟨ascending_filter _ consistent.snapshotIds,
    fun r member => consistent.snapshotBound r (List.mem_of_mem_filter member),
    ascending_filter _ consistent.serviceIds, fun r member => consistent.serviceBound r (List.mem_of_mem_filter member),
    fun r member => consistent.serviceOwner r (List.mem_of_mem_filter member), ascending_filter _ consistent.methodIds,
    fun r member => consistent.methodBound r (List.mem_of_mem_filter member),
    fun r member => consistent.methodOwner r (List.mem_of_mem_filter member),
    fun r member => consistent.fieldOwner r (List.mem_of_mem_filter member), ?_⟩
  intro r member id owner
  obtain ⟨old, stored, rfl⟩ := List.mem_map.mp member
  obtain ⟨was, kept⟩ := forget_owner owner
  obtain ⟨s, here, sameId, sameBank⟩ := consistent.changeOwner old stored id was
  refine ⟨s, List.mem_filter.mpr ⟨here, by simpa [sameId] using kept⟩, sameId, by simpa using sameBank⟩

/-- Rows under ascending identifiers come back newest first. -/
theorem orderByDesc_ascending {l : List SnapshotRow} (ascending : (l.map SnapshotRow.id).Pairwise (· < ·)) :
    orderByDesc SnapshotRow.id l = l.reverse := by
  have rows : l.Pairwise (fun a b => a.id < b.id) := List.pairwise_map.mp ascending
  have down : l.reverse.Pairwise (fun a b => b.id ≤ a.id) := by
    rw [List.pairwise_reverse]
    exact rows.imp Nat.le_of_lt
  have perm : (orderByDesc SnapshotRow.id l).Perm l.reverse :=
    (List.perm_insertionSort _ l).trans (List.reverse_perm l).symm
  refine perm.eq_of_pairwise (fun a b here there le ge => ?_) ?_ down
  · exact row_unique ascending (perm.mem_iff.mp here |> List.mem_reverse.mp) (List.mem_reverse.mp there)
      (Nat.le_antisymm ge le)
  · exact List.pairwise_insertionSort (fun a b : SnapshotRow => b.id ≤ a.id) l

theorem bankRows_ascending {db : Db} (consistent : Consistent db) (bank : String) :
    ((db.snapshots.filter (fun r => r.bank = bank)).map SnapshotRow.id).Pairwise (· < ·) :=
  ascending_filter _ consistent.snapshotIds

theorem latestSnapshot_eq {db : Db} (consistent : Consistent db) (bank : String) :
    latestSnapshot db bank = (db.snapshots.filter (fun r => r.bank = bank)).getLast? := by
  rw [latestSnapshot, orderByDesc_ascending (bankRows_ascending consistent bank), List.head?_reverse]

/-- The rows whose identifiers are not among all but the last ones are the last ones. -/
theorem filter_cleanup {l : List SnapshotRow} (ascending : (l.map SnapshotRow.id).Pairwise (· < ·)) (keep : Nat) :
    l.filter (fun r => r.id ∉ ((l.reverse.drop keep).map SnapshotRow.id)) = l.rtake keep := by
  set cut := l.length - keep with cutIs
  have dropped : l.reverse.drop keep = (l.take cut).reverse := by rw [List.drop_reverse]
  have split : l.take cut ++ l.drop cut = l := List.take_append_drop cut l
  have apart : ∀ r ∈ l.drop cut, r.id ∉ (l.take cut).map SnapshotRow.id := by
    intro r later earlier
    rw [← split, List.map_append, List.pairwise_append] at ascending
    exact Nat.lt_irrefl _ (ascending.2.2 r.id earlier r.id (List.mem_map_of_mem later))
  have memberIff : ∀ id, id ∈ (l.reverse.drop keep).map SnapshotRow.id ↔ id ∈ (l.take cut).map SnapshotRow.id := by
    intro id
    rw [dropped, List.map_reverse, List.mem_reverse]
  calc l.filter (fun r => r.id ∉ (l.reverse.drop keep).map SnapshotRow.id)
      = l.filter (fun r => r.id ∉ (l.take cut).map SnapshotRow.id) :=
        List.filter_congr (fun r _ => by simp only [memberIff])
    _ = (l.take cut ++ l.drop cut).filter (fun r => r.id ∉ (l.take cut).map SnapshotRow.id) := by rw [split]
    _ = l.rtake keep := by
      rw [List.filter_append, List.filter_eq_nil_iff.mpr, List.filter_eq_self.mpr, List.nil_append, List.rtake]
      · intro r later; simpa using apart r later
      · intro r earlier; simpa using List.mem_map_of_mem earlier

/-! ### One import -/

/-- The snapshot that an accepted call adds. -/
def addedSnapshot (c : ImportCall) (db : Db) : StoredSnapshot where
  id := db.sequences.snapshots
  createdAt := c.now
  services := content c.snapshot

/-- A change row without its reference. -/
def forgotten (r : ChangeRow) : ChangeRow := { r with snapshotId := none }

/-- The change rows that an accepted call adds. -/
def addedChanges (c : ImportCall) (db : Db) : List ChangeRow :=
  changeRows db.sequences.changes db.sequences.snapshots c.bank c.now (c.changes db)

/-- What an accepted call does: the bank gains a snapshot and keeps the last
    ones, the history gains the changes, and nothing else changes. -/
structure Imported (c : ImportCall) (db db' : Db) : Prop where
  consistent : Consistent db'
  sequence : db'.sequences.snapshots = db.sequences.snapshots + 1
  own : storedOf db' c.bank = keepLast c.keep (storedOf db c.bank ++ [addedSnapshot c db])
  others : ∀ bank, bank ≠ c.bank → storedOf db' bank = storedOf db bank
  history : db'.changes.map forgotten = (db.changes ++ addedChanges c db).map forgotten
  otherChanges : ∀ bank, bank ≠ c.bank →
    db'.changes.filter (fun r => r.bank = bank) = db.changes.filter (fun r => r.bank = bank)

@[simp] theorem forgotten_forget (ids : List Nat) (r : ChangeRow) :
    forgotten (ChangeRow.forget ids r) = forgotten r := by
  unfold ChangeRow.forget; split <;> rfl

theorem mem_changeRows_bank {first snapshotId : Nat} {bank : String} {now : Nat} {changes : List Change}
    {r : ChangeRow} (member : r ∈ changeRows first snapshotId bank now changes) :
    r.bank = bank ∧ r.snapshotId = some snapshotId := by
  obtain ⟨_, _, rfl⟩ := List.mem_map.mp member
  exact ⟨rfl, rfl⟩

/-- Before pruning. -/
theorem stored_adds {c : ImportCall} {db : Db} (consistent : Consistent db) : Consistent (c.stored db) ∧
    (c.stored db).sequences.snapshots = db.sequences.snapshots + 1 ∧
    (c.stored db).snapshots = db.snapshots ++ [{ id := db.sequences.snapshots, bank := c.bank, createdAt := c.now }] ∧
    (c.stored db).changes = db.changes ++ addedChanges c db ∧
    ∀ id, servicesOf (c.stored db) id =
      if id = db.sequences.snapshots then content c.snapshot else servicesOf db id := by
  have added := addSnapshot_adds consistent c.bank c.now c.snapshot
  have changes : (c.stored db).changes = db.changes ++ addedChanges c db := by
    simp only [ImportCall.stored, Db.insertChanges, added.changes, added.changeSequence]; rfl
  refine ⟨?_, added.snapshotSequence, added.snapshots, changes, added.services⟩
  have sound := added.consistent
  refine ⟨sound.snapshotIds, sound.snapshotBound, sound.serviceIds, sound.serviceBound, sound.serviceOwner,
    sound.methodIds, sound.methodBound, sound.methodOwner, sound.fieldOwner, ?_⟩
  intro r member id owner
  rw [changes] at member
  rcases List.mem_append.mp member with old | new
  · exact sound.changeOwner r (added.changes.symm ▸ old) id owner
  · obtain ⟨sameBank, sameId⟩ := mem_changeRows_bank new
    rw [sameId, Option.some.injEq] at owner
    refine ⟨{ id := db.sequences.snapshots, bank := c.bank, createdAt := c.now }, ?_, owner, sameBank.symm⟩
    change _ ∈ (Db.addSnapshot db c.bank c.now c.snapshot).snapshots
    rw [added.snapshots]
    exact List.mem_append_right _ (List.mem_singleton_self _)

theorem keepLast_map {α β : Type} (keep : Int) (f : α → β) (l : List α) :
    (keepLast keep l).map f = keepLast keep (l.map f) := by
  unfold keepLast
  split
  · rfl
  · simp [List.rtake, List.map_drop]

/-- The identifiers that a call deletes belong to its bank. -/
theorem oldIds_bank {c : ImportCall} {db : Db} {id : Nat} (old : id ∈ c.oldIds db) :
    ∃ r ∈ db.snapshots, r.id = id ∧ r.bank = c.bank := by
  unfold ImportCall.oldIds at old
  split at old
  · cases old
  · obtain ⟨r, member, rfl⟩ := List.mem_map.mp old
    have inBank := (List.perm_insertionSort _ _).mem_iff.mp (List.mem_of_mem_drop member)
    obtain ⟨stored, bank⟩ := List.mem_filter.mp inBank
    exact ⟨r, stored, rfl, of_decide_eq_true bank⟩

theorem kept_rows {c : ImportCall} {db : Db} (consistent : Consistent db) :
    ((db.snapshots.filter (fun r => r.bank = c.bank)).filter (fun r => r.id ∉ c.oldIds db)) =
      keepLast c.keep (db.snapshots.filter (fun r => r.bank = c.bank)) := by
  unfold ImportCall.oldIds keepLast
  split
  · simp
  · have ascending := bankRows_ascending consistent c.bank
    rw [snapshotsForCleanup, orderByDesc_ascending ascending]
    exact filter_cleanup ascending c.keep.toNat

/-! ### What pruning leaves -/

section
variable {c : ImportCall} {db : Db}

/-- A call prunes its own bank only. -/
theorem otherBank_kept (consistent : Consistent db) {r : SnapshotRow} (stored : r ∈ db.snapshots)
    (other : r.bank ≠ c.bank) : r.id ∉ c.oldIds db := by
  intro old
  obtain ⟨r', stored', sameId, ownBank⟩ := oldIds_bank old
  exact other (row_unique consistent.snapshotIds stored' stored sameId ▸ ownBank)

theorem mem_stored (consistent : Consistent db) {r : SnapshotRow} (stored : r ∈ db.snapshots) :
    r ∈ (c.stored db).snapshots := by
  rw [(stored_adds consistent).2.2.1]
  exact List.mem_append_left _ stored

/-- A snapshot that is not pruned keeps its content. -/
theorem storedSnapshot_applied (consistent : Consistent db) {r : SnapshotRow} (kept : r.id ∉ c.oldIds (c.stored db)) :
    storedSnapshot (c.applied db) r = storedSnapshot (c.stored db) r := by
  have services := deleteSnapshots_services (@stored_adds c db consistent).1 (c.oldIds (c.stored db)) r.id
  rw [storedSnapshot, ImportCall.applied, services, if_neg kept]
  rfl

/-- The snapshots from before keep their content when one is added. -/
theorem storedSnapshot_stored (consistent : Consistent db) {r : SnapshotRow} (stored : r ∈ db.snapshots) :
    storedSnapshot (c.stored db) r = storedSnapshot db r := by
  obtain ⟨_, _, _, _, services⟩ := @stored_adds c db consistent
  rw [storedSnapshot, services, if_neg (Nat.ne_of_lt (consistent.snapshotBound r stored))]
  rfl

theorem applied_rows (bank : String) : (c.applied db).snapshots.filter (fun r => r.bank = bank) =
    ((c.stored db).snapshots.filter (fun r => r.bank = bank)).filter (fun r => r.id ∉ c.oldIds (c.stored db)) := by
  rw [ImportCall.applied, List.filter_filter]
  simp only [Db.deleteSnapshots, List.filter_filter]
  exact List.filter_congr (fun r _ => Bool.and_comm _ _)

/-- The bank has what it kept of its snapshots and the added one. -/
theorem applied_own (consistent : Consistent db) :
    storedOf (c.applied db) c.bank = keepLast c.keep (storedOf db c.bank ++ [addedSnapshot c db]) := by
  obtain ⟨sound, _, snapshots, _, services⟩ := @stored_adds c db consistent
  have images : ∀ r ∈ keepLast c.keep ((c.stored db).snapshots.filter (fun r => r.bank = c.bank)),
      storedSnapshot (c.applied db) r = storedSnapshot (c.stored db) r := by
    intro r member
    rw [← kept_rows sound] at member
    exact storedSnapshot_applied consistent (of_decide_eq_true (List.mem_filter.mp member).2)
  rw [storedOf, applied_rows, kept_rows sound, List.map_congr_left images, keepLast_map, snapshots, List.filter_append,
    List.map_append]
  congr 2
  · exact List.map_congr_left (fun r member => storedSnapshot_stored consistent (List.mem_of_mem_filter member))
  · simp [storedSnapshot, services, addedSnapshot]

/-- The other banks have what they had. -/
theorem applied_others (consistent : Consistent db) {bank : String} (other : bank ≠ c.bank) :
    storedOf (c.applied db) bank = storedOf db bank := by
  obtain ⟨sound, _, snapshots, _, _⟩ := @stored_adds c db consistent
  have rows : (c.stored db).snapshots.filter (fun r => r.bank = bank) =
      db.snapshots.filter (fun r => r.bank = bank) := by
    have notOwn : c.bank ≠ bank := fun same => other same.symm
    simp [snapshots, List.filter_append, notOwn]
  have kept : ∀ r ∈ db.snapshots.filter (fun r => r.bank = bank), r.id ∉ c.oldIds (c.stored db) := by
    intro r member
    obtain ⟨stored, isBank⟩ := List.mem_filter.mp member
    exact otherBank_kept sound (mem_stored consistent stored) (of_decide_eq_true isBank ▸ other)
  rw [storedOf, applied_rows, rows, List.filter_eq_self.mpr (fun r member => decide_eq_true (kept r member))]
  apply List.map_congr_left
  intro r member
  rw [storedSnapshot_applied consistent (kept r member),
    storedSnapshot_stored consistent (List.mem_of_mem_filter member)]

/-- The history of another bank keeps its references. -/
theorem applied_otherChanges (consistent : Consistent db) {bank : String} (other : bank ≠ c.bank) :
    (c.applied db).changes.filter (fun r => r.bank = bank) = db.changes.filter (fun r => r.bank = bank) := by
  obtain ⟨sound, _, _, changes, _⟩ := @stored_adds c db consistent
  have untouched : ∀ r ∈ db.changes.filter (fun r => r.bank = bank),
      ChangeRow.forget (c.oldIds (c.stored db)) r = r := by
    intro r member
    obtain ⟨stored, isBank⟩ := List.mem_filter.mp member
    cases owner : r.snapshotId with
    | none => simp [ChangeRow.forget, owner]
    | some id =>
      obtain ⟨s, here, sameId, sameBank⟩ := consistent.changeOwner r stored id owner
      have notOwn : s.bank ≠ c.bank := by rw [sameBank, of_decide_eq_true isBank]; exact other
      have stays := otherBank_kept sound (mem_stored consistent here) notOwn
      rw [sameId] at stays
      simp [ChangeRow.forget, owner, stays]
  have noNew : (addedChanges c db).filter (fun r => r.bank = bank) = [] := by
    rw [List.filter_eq_nil_iff]
    intro r member isBank
    rw [(mem_changeRows_bank member).1] at isBank
    exact other (of_decide_eq_true isBank).symm
  rw [ImportCall.applied]
  simp only [Db.deleteSnapshots, changes, List.filter_map, List.filter_append, Function.comp_def, forget_bank, noNew,
    List.append_nil]
  rw [List.map_congr_left untouched, List.map_id']

/-- An accepted call imports its snapshot. -/
theorem applied_imported (consistent : Consistent db) : Imported c db (c.applied db) where
  consistent := consistent_deleteSnapshots (stored_adds consistent).1 _
  sequence := (stored_adds consistent).2.1
  own := applied_own consistent
  others _ other := applied_others consistent other
  history := by
    obtain ⟨_, _, _, changes, _⟩ := @stored_adds c db consistent
    rw [ImportCall.applied]
    simp only [Db.deleteSnapshots, List.map_map, changes]
    exact List.map_congr_left (fun r _ => by simp)
  otherChanges _ other := applied_otherChanges consistent other

end

end ScanApi.ImportStep
