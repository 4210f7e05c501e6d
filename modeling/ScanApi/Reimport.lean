import ScanApi.ImportRuns
import ScanApi.VisibleChanges

/-!
Importing the same snapshot twice. Rows come back in any order, and both sides
represent a key by its first method, so the second import is sure to record
nothing exactly when the methods of every key agree on visibility and fields
(`reimport_records_nothing_iff`).
-/
namespace ScanApi.Reimport
open ScanApi.Diff ScanApi.Database ScanApi.Repository ScanApi.SnapshotImport ScanApi.ImportEffect ScanApi.Stored
  ScanApi.ImportStep ScanApi.ReadBack ScanApi.ImportRuns ScanApi.VisibleChanges

/-- Methods with the same key have the same visibility and the same fields. -/
def Uniform (methods : List MethodRecord) : Prop :=
  ∀ m ∈ methods, ∀ m' ∈ methods, methodKey m = methodKey m' → m.hidden = m'.hidden ∧ m.fields = m'.fields

/-! ### When two states do not differ -/

/-- A state that reads as the snapshot shows no changes against it when every key
    is uniform. -/
theorem computeChanges_eq_nil {state : SnapshotState} {snapshot : ParseSnapshot} (reads : ReadsAs state snapshot)
    (uniform : Uniform (snapshotToRecords snapshot).2) :
    computeChanges (some state) (snapshotToRecords snapshot).1 (snapshotToRecords snapshot).2 = [] := by
  refine computeChanges_eq_nil_of ?_ ?_ ?_
  · ext name
    rw [Dict.mem_keys, Dict.mem_keys, reads.1]
  · intro k
    simp only [reads.2.mem_iff]
  · intro o member n inside sameKey
    exact uniform o (reads.2.mem_iff.mp member) n inside sameKey

/-- A key whose first methods differ in visibility or fields shows a change. -/
theorem computeChanges_ne_nil {prev : SnapshotState} {services : Dict String String} {new : List MethodRecord}
    {k : String} {o n : MethodRecord} (oldFound : (index prev.2).get? k = some o)
    (newFound : (index new).get? k = some n) (differ : ¬ (o.hidden = n.hidden ∧ o.fields = n.fields)) :
    computeChanges (some prev) services new ≠ [] := by
  suffices some : ∃ c, c ∈ computeChanges (some prev) services new by
    obtain ⟨c, member⟩ := some
    exact List.ne_nil_of_mem member
  by_cases sameHidden : o.hidden = n.hidden
  · have otherFields : fieldChange o n ≠ none := fun none => differ ⟨sameHidden, fieldChange_eq_none.mp none⟩
    obtain ⟨c, changed⟩ := Option.ne_none_iff_exists'.mp otherFields
    exact ⟨c, mem_computeChanges.mpr (.inr (.inr (.inr (mem_fieldChanges.mpr
      ⟨k, o, n, oldFound, newFound, sameHidden, changed⟩))))⟩
  · have flips : flipChange o n ≠ none := fun none => sameHidden (flipChange_eq_none.mp none)
    obtain ⟨c, flip⟩ := Option.ne_none_iff_exists'.mp flips
    exact ⟨c, mem_computeChanges.mpr (.inr (.inr (.inl (mem_flipChanges.mpr ⟨k, o, n, oldFound, newFound, flip⟩))))⟩

/-! ### The second import -/

/-- The rows of one method first. -/
def rowFirst (m : MethodRecord) : RowOrder StateRow where
  order rows := rows.filter (fun r => r.record = m) ++ rows.filter (fun r => ¬ r.record = m)
  perm rows := by
    simpa using List.filter_append_perm (fun r => decide (StateRow.record r = m)) rows

/-- In that order the method represents its key. -/
theorem index_rowFirst {db : Db} {id : Nat} {order : StateOrder} {m : MethodRecord}
    (member : m ∈ (snapshotState order db id).2) (first : order.methods = rowFirst m) :
    (index (snapshotState order db id).2).get? (methodKey m) = some m := by
  have state : (snapshotState order db id).2 =
      ((stateRows db id).filter (fun r => r.record = m)).map StateRow.record ++
        ((stateRows db id).filter (fun r => ¬ r.record = m)).map StateRow.record := by
    rw [snapshotState, first, rowFirst, ← List.map_append]
  have own : ∀ a ∈ ((stateRows db id).filter (fun r => r.record = m)).map StateRow.record, a = m := by
    intro a inside
    obtain ⟨r, kept, rfl⟩ := List.mem_map.mp inside
    exact of_decide_eq_true (List.mem_filter.mp kept).2
  have foreign : ∀ a ∈ ((stateRows db id).filter (fun r => ¬ r.record = m)).map StateRow.record, a ≠ m := by
    intro a inside
    obtain ⟨r, kept, rfl⟩ := List.mem_map.mp inside
    exact of_decide_eq_true (List.mem_filter.mp kept).2
  rw [index_get?, state]
  rw [state] at member
  cases rows : ((stateRows db id).filter (fun r => r.record = m)).map StateRow.record with
  | nil =>
    rw [rows, List.nil_append] at member
    exact absurd rfl (foreign m member)
  | cons a rest =>
    have same : a = m := own a (by rw [rows]; exact List.mem_cons_self)
    simp [same]

/-- What a call leaves when it returns is where the next one starts: its snapshot
    is the current one of its bank. -/
theorem previous_after {c next : ImportCall} {db db' : Db} (imported : Imported c db db') (same : next.bank = c.bank) :
    ∃ id, next.previous db' = some (snapshotState next.order db' id) ∧ servicesOf db' id = content c.snapshot := by
  have found := latestSnapshot_stored imported.consistent next.bank
  rw [same, imported.own, keepLast_concat_getLast?] at found
  obtain ⟨r, latest, image⟩ := Option.map_eq_some_iff.mp found
  exact ⟨r.id, by rw [ImportCall.previous, same, latest]; rfl, congrArg StoredSnapshot.services image⟩

/-- The call records nothing: the history is as it was. -/
def RecordsNothing (c : ImportCall) (db : Db) : Prop :=
  (c.run db).2.changes.map forgotten = db.changes.map forgotten

theorem recordsNothing_iff {c : ImportCall} {db : Db} (consistent : Consistent db) {visible : List Change}
    (returned : (c.run db).1 = .ok visible) : RecordsNothing c db ↔ c.changes db = [] := by
  have history := (applied_imported (c := c) consistent).history
  have ran : c.run db = (.ok visible, (c.run db).2) := Prod.ext returned rfl
  have after : (c.run db).2 = c.applied db := (run_ok ran).2.2
  rw [RecordsNothing, after, history, List.map_append]
  simp [addedChanges, changeRows]

/-- Importing a snapshot and then the same one again never records a change, in
    whatever order the rows of the first come back, exactly when the methods of
    every key agree. -/
theorem reimport_records_nothing_iff {db : Db} (consistent : Consistent db) (c : ImportCall) {visible : List Change}
    (returned : (c.run db).1 = .ok visible) :
    (∀ again : ImportCall, again.bank = c.bank → again.snapshot = c.snapshot →
      (∃ visible, (again.run (c.run db).2).1 = .ok visible) → RecordsNothing again (c.run db).2) ↔
    Uniform (snapshotToRecords c.snapshot).2 := by
  have ran : c.run db = (.ok visible, (c.run db).2) := Prod.ext returned rfl
  obtain ⟨accepts, -, after⟩ := run_ok ran
  rw [after]
  have imported := applied_imported (c := c) consistent
  constructor
  · intro nothing
    by_contra mixed
    -- Some method of a key differs from the first one.
    obtain ⟨first, odd, firstFound, inside, differ⟩ : ∃ first odd,
        (index (snapshotToRecords c.snapshot).2).get? (methodKey odd) = some first ∧
        odd ∈ (snapshotToRecords c.snapshot).2 ∧ ¬ (odd.hidden = first.hidden ∧ odd.fields = first.fields) := by
      simp only [Uniform, not_forall] at mixed
      obtain ⟨m, member, m', member', sameKey, differ⟩ := mixed
      obtain ⟨first, found⟩ := Dict.mem_keys.mp (mem_index_keys.mpr ⟨m, member, rfl⟩)
      by_cases like : m.hidden = first.hidden ∧ m.fields = first.fields
      · refine ⟨first, m', sameKey ▸ found, member', fun like' => differ ?_⟩
        exact ⟨like.1.trans like'.1.symm, like.2.trans like'.2.symm⟩
      · exact ⟨first, m, found, member, like⟩
    set again : ImportCall := { c with order := { methods := rowFirst odd }, minRatio := 0, fuse := none } with againIs
    obtain ⟨id, previous, stored⟩ := @previous_after c again _ _ imported rfl
    have reads := readsAs_of_servicesOf imported.consistent stored again.order
    have accepted : again.Accepts (c.applied db) :=
      ⟨accepts.bank, accepts.storable, accepts.sane.some, fun _ _ _ positive => absurd positive (lt_irrefl 0)⟩
    have returned' := congrArg Prod.fst (run_of_accepts (c := again) rfl accepted)
    have changes := (recordsNothing_iff imported.consistent returned').mp (nothing again rfl rfl ⟨_, returned'⟩)
    rw [ImportCall.changes, previous] at changes
    have oldFound := @index_rowFirst _ _ again.order _ (reads.2.mem_iff.mpr inside) rfl
    exact computeChanges_ne_nil oldFound firstFound differ changes
  · rintro uniform again sameBank sameSnapshot ⟨visible', returned'⟩
    rw [recordsNothing_iff imported.consistent returned', ImportCall.changes, sameSnapshot]
    obtain ⟨id, previous, stored⟩ := previous_after imported sameBank
    rw [previous]
    exact computeChanges_eq_nil (readsAs_of_servicesOf imported.consistent stored again.order) uniform

/-- Two products that document one method with different response fields. -/
def sharedMethod : ParseSnapshot where
  services := Dict.ofEntries [
    ("Business", [
      { httpMethod := "GET", path := some "/company", summary := "company", urlOnPortal := "/business",
        response200Fields := some ["inn"] }]),
    ("Partner", [
      { httpMethod := "GET", path := some "/company", summary := "company", urlOnPortal := "/partner",
        response200Fields := some ["kpp"] }])]

def onceImported : ImportCall := { bank := "tbank", snapshot := sharedMethod, minRatio := 1 / 2, keep := 2 }

theorem reimport_records_nothing_iff_sharedMethod : ¬ ∀ again : ImportCall, again.bank = onceImported.bank →
    again.snapshot = onceImported.snapshot → (∃ visible, (again.run (onceImported.run {}).2).1 = .ok visible) →
      RecordsNothing again (onceImported.run {}).2 := by
  have returned : (onceImported.run {}).1 = .ok [] := by decide +kernel
  intro nothing
  have uniform := (reimport_records_nothing_iff consistent_empty onceImported returned).mp nothing
  revert uniform
  unfold Uniform
  decide +kernel

/-- The last rows first. -/
def lastFirst : RowOrder StateRow := ⟨List.reverse, fun rows => rows.reverse_perm⟩

instance (c : ImportCall) (db : Db) : Decidable (RecordsNothing c db) := inferInstanceAs (Decidable (_ = _))

/-- The same snapshot imported twice, and the second import records a change. -/
theorem reimport_records : (onceImported.run {}).1 = .ok [] ∧
    ∃ again : ImportCall, again.bank = onceImported.bank ∧ again.snapshot = onceImported.snapshot ∧
      (∃ change, (again.run (onceImported.run {}).2).1 = .ok [change]) ∧
        ¬ RecordsNothing again (onceImported.run {}).2 := by
  refine ⟨by decide +kernel, { onceImported with order := { methods := lastFirst } }, rfl, rfl, ⟨?_, ?_⟩, ?_⟩
  · exact { changeType := .field, action := .modified, entityName := "GET /company",
            entityPath := "Business / GET /company", url := "/business", oldValue := "-kpp", newValue := "+inn" }
  · decide +kernel
  · decide +kernel

end ScanApi.Reimport
