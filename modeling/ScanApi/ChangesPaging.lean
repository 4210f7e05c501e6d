import ScanApi.Pages
import ScanApi.Repository

/-!
The history of changes, page by page (`get_changes_filtered` and the page
`Changes.tsx` that asks for it). `ORDER BY detected_at DESC` leaves the order of
one import's changes open, and the database may settle it differently for every
page; `history_once_iff` says for which tables nothing is lost or repeated.
-/
namespace ScanApi.ChangesPaging
open ScanApi.Diff ScanApi.Database ScanApi.Repository ScanApi.Pages

/-- `change_type` as it is stored. -/
def changeTypeText : ChangeType → String
  | .service => "service"
  | .method => "method"
  | .field => "field"

/-- `change_action` as it is stored. -/
def actionText : Action → String
  | .added => "added"
  | .removed => "removed"
  | .modified => "modified"

/-- The filters of a query; an empty text filters nothing. -/
structure Filters where
  bank : String := ""
  changeType : String := ""
  changeAction : String := ""
  includeHidden : Bool := false

/-- `WHERE {where}`. -/
def Filters.admits (filters : Filters) (row : ChangeRow) : Bool :=
  (filters.bank = "" || row.bank = filters.bank) &&
  (filters.changeType = "" || changeTypeText row.change.changeType = filters.changeType) &&
  (filters.changeAction = "" || actionText row.change.action = filters.changeAction) &&
  (filters.includeHidden || !row.change.hidden)

def matching (db : Db) (filters : Filters) : List ChangeRow := db.changes.filter filters.admits

/-- The rows of a page and the total; rows that tie are in the order of `order`. -/
def getChangesFiltered (order : RowOrder ChangeRow) (db : Db) (filters : Filters) (limit offset : Nat) :
    List ChangeRow × Nat :=
  let total := (matching db filters).length
  let rows := orderByDesc ChangeRow.detectedAt (order.order (matching db filters))
  ((rows.drop offset).take limit, total)

/-- The pages for offset 0, limit, 2·limit and so on up to the reported total, one after another. -/
def history (order : Nat → RowOrder ChangeRow) (db : Db) (filters : Filters) (limit : Nat) : List ChangeRow :=
  let total := (getChangesFiltered (order 0) db filters limit 0).2
  (List.range (pageCount total limit)).flatMap (fun page =>
    (getChangesFiltered (order page) db filters limit (page * limit)).1)

/-- No page ends between changes with the same time: the changes before the end are those from some time on. -/
def PagesEndBetweenTimes (rows : List ChangeRow) (limit : Nat) : Prop :=
  ∀ page, 0 < page → page * limit < rows.length → ∃ time, rows.countP (fun r => time ≤ r.detectedAt) = page * limit

section
variable {rows : List ChangeRow}

theorem reading_orderByDesc (order : RowOrder ChangeRow) :
    Reading ChangeRow.detectedAt rows (orderByDesc ChangeRow.detectedAt (order.order rows)) :=
  ⟨(List.perm_insertionSort _ _).trans (order.perm rows), List.pairwise_insertionSort _ _⟩

/-- Every order of the ties is one that the database may return. -/
theorem exists_rowOrder {l : List ChangeRow} (reading : Reading ChangeRow.detectedAt rows l) :
    ∃ order : RowOrder ChangeRow, orderByDesc ChangeRow.detectedAt (order.order rows) = l := by
  refine ⟨⟨fun rows' => if rows' = rows then l else rows', fun rows' => ?_⟩, ?_⟩
  · split
    · rename_i same; exact same ▸ reading.1
    · exact .refl _
  · change orderByDesc ChangeRow.detectedAt (if rows = rows then l else rows) = l
    rw [if_pos rfl, orderByDesc]
    exact List.Pairwise.insertionSort_eq reading.2

/-- The history is the pages of readings, and all of them can occur. -/
theorem history_eq (order : Nat → RowOrder ChangeRow) (db : Db) (filters : Filters) (limit : Nat) :
    history order db filters limit = pages limit (pageCount (matching db filters).length limit)
      (fun page => orderByDesc ChangeRow.detectedAt ((order page).order (matching db filters))) := rfl

end

/-- For all orders of ties, the history has every matching change exactly once if and
    only if no page ends between changes with the same time. -/
theorem history_once_iff (db : Db) (primaryKey : (db.changes.map ChangeRow.id).Nodup) (filters : Filters) (limit : Nat)
    (positive : 0 < limit) : (∀ order, (history order db filters limit).Perm (matching db filters)) ↔
      PagesEndBetweenTimes (matching db filters) limit := by
  have distinct : (matching db filters).Nodup := (List.Nodup.of_map _ primaryKey).filter _
  refine Iff.trans ?_ (pages_perm_iff positive distinct (reading_orderByDesc (asStored ChangeRow)))
  constructor
  · intro all reading readings
    choose order same using fun page => exists_rowOrder (readings page)
    have here := all order
    rw [history_eq, funext same] at here
    exact here
  · intro all order
    exact all _ (fun page => reading_orderByDesc (order page))

/-- A table of two changes, detected at the given times. -/
def twoChanges (time time' : Nat) : Db where
  changes := [⟨1, some 1, "tbank", ⟨.method, .added, "GET /accounts", "Счета", "", "", "", false⟩, time⟩,
    ⟨2, some 1, "tbank", ⟨.method, .added, "GET /statement", "Счета", "", "", "", false⟩, time'⟩]

/-- Changes of two imports may come one a page. -/
theorem history_once_two_imports : PagesEndBetweenTimes (matching (twoChanges 2 1) {}) 1 ∧
    ∀ order, (history order (twoChanges 2 1) {} 1).Perm (matching (twoChanges 2 1) {}) := by
  have ends : PagesEndBetweenTimes (matching (twoChanges 2 1) {}) 1 := by
    intro page later inside
    have two : (matching (twoChanges 2 1) {}).length = 2 := rfl
    obtain rfl : page = 1 := by omega
    exact ⟨2, rfl⟩
  exact ⟨ends, (history_once_iff (twoChanges 2 1) (by decide) {} 1 (by decide)).mpr ends⟩

/-- Two changes of one import on pages of one: the first query reads them as stored, the second one reversed. -/
theorem history_repeats : ¬ ∀ (db : Db) (filters : Filters) (limit : Nat) (order : Nat → RowOrder ChangeRow),
    (db.changes.map ChangeRow.id).Nodup → 0 < limit → (history order db filters limit).Perm (matching db filters) := by
  intro claim
  have once := claim (twoChanges 1 1) {} 1
    (fun page => if page = 0 then asStored ChangeRow else ⟨List.reverse, List.reverse_perm⟩) (by decide) (by decide)
  have repeated := once.nodup_iff.mpr (by decide : (matching (twoChanges 1 1) {}).Nodup)
  exact absurd repeated (by decide)

end ScanApi.ChangesPaging
