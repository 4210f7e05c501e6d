import ScanApi.BenchmarkMatrix
import ScanApi.Machine

/-!
The benchmark page (`useBenchmark.ts`) and the server behind it
(`benchmark_api.py`). Writes to different cells are in flight together; the
server stores each and then reads the whole matrix, in any order, and the page
shows an answer unless a write sent later was shown already. What is shown last
stays, so the page is up to date when nothing was stored after that was read
(`quiet_converged`); an older answer shown before does no harm.
-/
namespace ScanApi.BenchmarkPage
open ScanApi.BenchmarkMatrix ScanApi.Machine
open ScanApi.Repository (BenchmarkRow)

/-- What stays the same while the page is open. -/
structure Site where
  lower : String → String
  /-- The rows of `latest_services`. -/
  rows : List BenchmarkRow
  banks : List String
  catalog : List Capability

/-- A validated body: other cells are answered with 422. -/
structure OverrideIn (site : Site) where
  capability : String
  bank : String
  /-- `none` is back to automatic. -/
  present : Option Bool
  knownCapability : capability ∈ site.catalog.map Capability.key
  knownBank : bank ∈ site.banks
deriving DecidableEq

variable {site : Site}

def OverrideIn.cell (body : OverrideIn site) : String × String := (body.capability, body.bank)

def cellId (capability bank : String) : String := capability ++ ":" ++ bank

def OverrideIn.id (body : OverrideIn site) : String := cellId body.capability body.bank

/-- The table of overrides. -/
abbrev Overrides := Dict (String × String) Bool

def setOverride (overrides : Overrides) (body : OverrideIn site) : Overrides := match body.present with
  | none => overrides.pop body.cell
  | some present => overrides.set body.cell present

/-- `_load`: the whole matrix. -/
def load (site : Site) (overrides : Overrides) : Benchmark :=
  build site.lower (servicesFromRows site.rows) overrides site.banks site.catalog

/-- How far a write has come. -/
inductive Stage
  | sent
  /-- Stored, and the matrix not read yet. -/
  | stored
  /-- The answer is on its way back. -/
  | read (next : Benchmark)

structure Page where
  data : Option Benchmark := none
  savingNow : Finset String := ∅
  lastWrite : Nat := 0
  shownWrite : Nat := 0

structure State (site : Site) where
  page : Page := {}
  overrides : Overrides
  /-- The writes in flight by their number. -/
  flights : Dict Nat (OverrideIn site × Stage) := Dict.empty
  /-- The load that is not cancelled, and its answer once the server has read it. -/
  loading : Option (Option Benchmark) := some none
  /-- Every write sent so far. -/
  sent : List (OverrideIn site) := []

inductive Event (site : Site)
  /-- A click on a cell. -/
  | override (body : OverrideIn site)
  /-- The server stores a write, reads the matrix for it, and its answer arrives. -/
  | store (write : Nat)
  | read (write : Nat)
  | answer (write : Nat)
  /-- `refresh` or `loadAttempt` changes: an earlier load is cancelled. -/
  | reload
  | readPage
  | showPage

def step (s : State site) : Event site → Option (State site)
  | .override body =>
    -- One write a cell at a time.
    if body.id ∈ s.page.savingNow then some s
    else
      let write := s.page.lastWrite + 1
      some { s with
        page := { s.page with savingNow := insert body.id s.page.savingNow, lastWrite := write }
        flights := s.flights.set write (body, .sent)
        sent := s.sent ++ [body] }
  | .store write => match s.flights.get? write with
    | some (body, .sent) => some { s with
        overrides := setOverride s.overrides body
        flights := s.flights.set write (body, .stored) }
    | _ => none
  | .read write => match s.flights.get? write with
    | some (body, .stored) => some { s with flights := s.flights.set write (body, .read (load site s.overrides)) }
    | _ => none
  | .answer write => match s.flights.get? write with
    | some (body, .read next) =>
      let page := if s.page.shownWrite < write then { s.page with data := some next, shownWrite := write } else s.page
      some { s with page := { page with savingNow := page.savingNow.erase body.id }, flights := s.flights.pop write }
    | _ => none
  | .reload => some { s with loading := some none }
  | .readPage => match s.loading with
    | some none => some { s with loading := some (some (load site s.overrides)) }
    | _ => none
  | .showPage => match s.loading with
    | some (some r) => some { s with page := { s.page with data := some r }, loading := none }
    | _ => none

/-- The page is opened. -/
def opened (site : Site) (overrides : Overrides) : State site := { overrides }

/-! ### What the page should show -/

/-- The last write sent for a cell. -/
def lastFor (sent : List (OverrideIn site)) (cell : String × String) : Option (OverrideIn site) :=
  (sent.filter (fun body => body.cell = cell)).getLast?

/-- The matrix has the cell of a write, with the value written. -/
def Shows (data : Benchmark) (body : OverrideIn site) : Prop :=
  (∃ row ∈ data.rows, row.capability.key = body.capability) ∧
    ∀ row ∈ data.rows, row.capability.key = body.capability →
      ∃ cell, row.cells.get? body.bank = some cell ∧ cell.override = body.present

/-- No request is in flight. -/
def Quiet (s : State site) : Prop := s.flights.entries.isEmpty = true ∧ s.loading.isNone = true

instance (s : State site) : Decidable (Quiet s) := inferInstanceAs (Decidable (_ ∧ _))

/-- The page shows the result of every write. -/
def Converged (s : State site) : Prop :=
  ∃ data, s.page.data = some data ∧ ∀ cell body, lastFor s.sent cell = some body → Shows data body

/-- The page will still show another answer: that of the write sent last, or a load. -/
def Renewed (s : State site) : Prop := s.page.shownWrite < s.page.lastWrite ∨ s.loading.isSome = true

/-- What the page shows last is the table as it is then, and stays so: a write stored later changes
    nothing. A matrix that is no longer current may be shown while another is still to come. -/
def InOrder (s : State site) : Event site → Prop
  | .store write => Renewed s ∨
      ∀ body stage, s.flights.get? write = some (body, stage) → s.overrides.get? body.cell = body.present
  | .answer write => write < s.page.lastWrite ∨ s.loading.isSome = true ∨
      ∀ body next, s.flights.get? write = some (body, .read next) → next = load site s.overrides
  | .showPage => s.page.shownWrite < s.page.lastWrite ∨ ∀ r, s.loading = some (some r) → r = load site s.overrides
  | _ => True

/-! ### The table of overrides -/

section
variable {overrides : Overrides} {body : OverrideIn site}

theorem get?_setOverride (cell : String × String) :
    (setOverride overrides body).get? cell = if cell = body.cell then body.present else overrides.get? cell := by
  rw [setOverride]
  cases body.present with
  | none => exact Dict.get?_pop overrides body.cell cell
  | some present => exact Dict.get?_set overrides body.cell present cell

/-- Storing what is stored changes nothing. -/
theorem setOverride_of_get? (same : overrides.get? body.cell = body.present) : setOverride overrides body = overrides := by
  rw [setOverride]
  cases present : body.present with
  | none =>
    refine Dict.ext (List.filter_eq_self.mpr (fun e member => ?_))
    have other : e.1 ≠ body.cell := fun here =>
      Dict.get?_eq_none.mp (same.trans present) (Dict.mem_keys.mpr ⟨e.2, Dict.get?_eq_some.mpr (here ▸ member)⟩)
    simpa using other
  | some value => exact Dict.set_of_get? (same.trans present)

/-- The matrix shows what the table holds. -/
theorem shows_load (stored : overrides.get? body.cell = body.present) : Shows (load site overrides) body := by
  refine ⟨?_, fun row member named => ⟨_, cell_of_row member body.knownBank, ?_⟩⟩
  · obtain ⟨cap, inside, named⟩ := List.mem_map.mp body.knownCapability
    exact ⟨_, List.mem_map_of_mem inside, named⟩
  · rw [named]
    exact stored

theorem lastFor_snoc (sent : List (OverrideIn site)) (cell : String × String) :
    lastFor (sent ++ [body]) cell = if body.cell = cell then some body else lastFor sent cell := by
  rw [lastFor, List.filter_append]
  by_cases here : body.cell = cell
  · simp [here]
  · simp [here, lastFor]

end

/-! ### The invariant -/

/-- Every write in flight keeps its cell to itself and is the last one sent for it. -/
structure Tracked (s : State site) : Prop where
  shown_le : s.page.shownWrite ≤ s.page.lastWrite
  numbered : ∀ write entry, s.flights.get? write = some entry → write ≤ s.page.lastWrite ∧ write ≠ s.page.shownWrite
  saving : ∀ write body stage, s.flights.get? write = some (body, stage) → body.id ∈ s.page.savingNow
  alone : ∀ write write' body body' stage stage', s.flights.get? write = some (body, stage) →
    s.flights.get? write' = some (body', stage') → body.id = body'.id → write = write'
  newest : ∀ write body stage, s.flights.get? write = some (body, stage) → lastFor s.sent body.cell = some body
  awaited : s.page.shownWrite < s.page.lastWrite → ∃ entry, s.flights.get? s.page.lastWrite = some entry

/-- The table has every write that is stored, and the page shows the table unless it will still show another answer. -/
structure Inv (s : State site) : Prop extends Tracked s where
  stored : ∀ cell body, lastFor s.sent cell = some body →
    s.overrides.get? cell = body.present ∨ ∃ write, s.flights.get? write = some (body, .sent)
  shown : ¬ Renewed s → ∀ data, s.page.data = some data → data = load site s.overrides
  opening : s.page.data = none → s.loading.isSome

theorem inv_opened (overrides : Overrides) : Inv (opened site overrides) where
  shown_le := le_rfl
  numbered := by simp [opened]
  saving := by simp [opened]
  alone := by simp [opened]
  newest := by simp [opened]
  awaited := by simp [opened]
  stored := by simp [opened, lastFor]
  shown := by simp [opened]
  opening := by simp [opened]

theorem cell_of_lastFor {sent : List (OverrideIn site)} {cell : String × String} {body : OverrideIn site}
    (last : lastFor sent cell = some body) : body.cell = cell := by
  have member := List.mem_of_getLast? last
  simpa using (List.mem_filter.mp member).2

theorem id_of_cell {body body' : OverrideIn site} (same : body.cell = body'.cell) : body.id = body'.id := by
  obtain ⟨capability, bank⟩ := Prod.mk.inj same
  rw [OverrideIn.id, OverrideIn.id, capability, bank]

section
variable {s s' : State site}

theorem inv_override (inv : Inv s) (body : OverrideIn site) (taken : step s (.override body) = some s') : Inv s' := by
  rw [step] at taken
  split at taken
  · obtain rfl := Option.some.inj taken; exact inv
  rename_i free
  obtain rfl := Option.some.inj taken
  -- No write of this cell is in flight, so those in flight stay the last of their cells.
  have other : ∀ write body' stage, s.flights.get? write = some (body', stage) → body.id ≠ body'.id :=
    fun write body' stage found same => free (same ▸ inv.saving write body' stage found)
  have new : ∀ write entry, (s.flights.set (s.page.lastWrite + 1) (body, .sent)).get? write = some entry →
      (write = s.page.lastWrite + 1 ∧ entry = (body, .sent)) ∨
        write ≠ s.page.lastWrite + 1 ∧ s.flights.get? write = some entry := by
    intro write entry found
    rw [Dict.get?_set] at found
    split at found
    · rename_i here; exact .inl ⟨here, (Option.some.inj found).symm⟩
    · rename_i old; exact .inr ⟨old, found⟩
  have below := inv.shown_le
  refine ⟨⟨below.trans (Nat.le_succ _), ?_, ?_, ?_, ?_, ?_⟩, ?_, ?_, inv.opening⟩
  · intro write entry found
    rcases new write entry found with ⟨rfl, -⟩ | ⟨-, old⟩
    · exact ⟨le_rfl, fun same => by dsimp only at same; omega⟩
    · exact ⟨(inv.numbered write entry old).1.trans (Nat.le_succ _), (inv.numbered write entry old).2⟩
  · intro write body' stage found
    rcases new write _ found with ⟨-, same⟩ | ⟨-, old⟩
    · cases same; exact Finset.mem_insert_self _ _
    · exact Finset.mem_insert_of_mem (inv.saving write body' stage old)
  · intro write write' body₁ body₂ stage stage' found found' same
    rcases new write _ found with ⟨here, equal⟩ | ⟨-, old⟩ <;> rcases new write' _ found' with ⟨here', equal'⟩ | ⟨-, old'⟩
    · rw [here, here']
    · cases equal; exact absurd same (other write' body₂ stage' old')
    · cases equal'; exact absurd same.symm (other write body₁ stage old)
    · exact inv.alone write write' body₁ body₂ stage stage' old old' same
  · intro write body' stage found
    dsimp only
    rw [lastFor_snoc]
    rcases new write _ found with ⟨-, same⟩ | ⟨-, old⟩
    · cases same; exact if_pos rfl
    · rw [if_neg (fun same => other write body' stage old (id_of_cell same))]
      exact inv.newest write body' stage old
  · intro _
    exact ⟨(body, .sent), by dsimp only; rw [Dict.get?_set, if_pos rfl]⟩
  · intro cell body' last
    dsimp only at last ⊢
    rw [lastFor_snoc] at last
    split at last
    · cases last
      exact .inr ⟨s.page.lastWrite + 1, by rw [Dict.get?_set, if_pos rfl]⟩
    · refine (inv.stored cell body' last).imp_right (fun flying => ?_)
      obtain ⟨write, old⟩ := flying
      refine ⟨write, ?_⟩
      have known := (inv.numbered write _ old).1
      rw [Dict.get?_set, if_neg (by omega), old]
  · intro final
    exact absurd (.inl (Nat.lt_succ_of_le below)) final

/-- A write that comes a stage further: the writes in flight are the same. -/
theorem get?_staged {write : Nat} {body : OverrideIn site} {stage stage' : Stage}
    (here : s.flights.get? write = some (body, stage)) {w : Nat} {entry : OverrideIn site × Stage}
    (found : (s.flights.set write (body, stage')).get? w = some entry) :
    (w = write ∧ entry = (body, stage') ∨ w ≠ write ∧ s.flights.get? w = some entry) ∧
      ∃ stage, s.flights.get? w = some (entry.1, stage) := by
  rw [Dict.get?_set] at found
  split at found
  · rename_i same
    cases found
    exact ⟨.inl ⟨same, rfl⟩, stage, same ▸ here⟩
  · rename_i other
    exact ⟨.inr ⟨other, found⟩, entry.2, found⟩

theorem other_of_sent {write w : Nat} {body body' : OverrideIn site} {stage : Stage}
    (here : s.flights.get? write = some (body, stage)) (old : s.flights.get? w = some (body', .sent))
    (differs : body' ≠ body ∨ stage ≠ .sent) : w ≠ write := by
  rintro rfl
  rw [here] at old
  cases old
  simp at differs

theorem tracked_staged (tracked : Tracked s) {write : Nat} {body : OverrideIn site} {stage stage' : Stage}
    (here : s.flights.get? write = some (body, stage)) (overrides : Overrides) :
    Tracked { s with overrides, flights := s.flights.set write (body, stage') } := by
  refine ⟨tracked.shown_le, fun w entry found => ?_, fun w body' stage found => ?_, ?_, fun w body' stage found => ?_, ?_⟩
  · obtain ⟨-, stage, old⟩ := get?_staged here found
    exact tracked.numbered w _ old
  · obtain ⟨-, stage', old⟩ := get?_staged here found
    exact tracked.saving w body' stage' old
  · intro w w' b b' stage stage' found found'
    obtain ⟨-, _, old⟩ := get?_staged here found
    obtain ⟨-, _, old'⟩ := get?_staged here found'
    exact tracked.alone w w' b b' _ _ old old'
  · obtain ⟨-, _, old⟩ := get?_staged here found
    exact tracked.newest w body' _ old
  · intro behind
    obtain ⟨entry, found⟩ := tracked.awaited behind
    dsimp only
    rw [Dict.get?_set]
    split
    · exact ⟨_, rfl⟩
    · exact ⟨entry, found⟩

theorem inv_store (inv : Inv s) {write : Nat} (ordered : InOrder s (.store write))
    (taken : step s (.store write) = some s') : Inv s' := by
  rw [step] at taken
  split at taken
  swap
  · cases taken
  rename_i body here
  obtain rfl := Option.some.inj taken
  -- Another answer is still to come, or the table stays as it is.
  have current : Renewed s ∨ setOverride s.overrides body = s.overrides :=
    ordered.imp_right (fun same => setOverride_of_get? (same body .sent here))
  refine ⟨tracked_staged inv.toTracked here _, ?_, ?_, inv.opening⟩
  · intro cell body' last
    dsimp only
    rw [get?_setOverride]
    by_cases same : cell = body.cell
    · have written := inv.newest write body .sent here
      rw [← same, last] at written
      cases written
      exact .inl (if_pos same)
    · rw [if_neg same]
      refine (inv.stored cell body' last).imp_right (fun ⟨w, old⟩ => ⟨w, ?_⟩)
      have differs : body' ≠ body := fun equal => same (equal ▸ (cell_of_lastFor last).symm)
      rw [Dict.get?_set, if_neg (other_of_sent here old (.inl differs)), old]
  · intro final data shown
    rcases current with renewed | kept
    · exact absurd renewed final
    · dsimp only; rw [kept]; exact inv.shown final data shown

theorem inv_read (inv : Inv s) {write : Nat} (taken : step s (.read write) = some s') : Inv s' := by
  rw [step] at taken
  split at taken
  swap
  · cases taken
  rename_i body here
  obtain rfl := Option.some.inj taken
  refine ⟨tracked_staged inv.toTracked here _, ?_, inv.shown, inv.opening⟩
  intro cell body' last
  refine (inv.stored cell body' last).imp_right (fun ⟨w, old⟩ => ⟨w, ?_⟩)
  dsimp only
  rw [Dict.get?_set, if_neg (other_of_sent here old (.inr (by simp))), old]

theorem get?_popped {write w : Nat} {entry : OverrideIn site × Stage}
    (found : (s.flights.pop write).get? w = some entry) : w ≠ write ∧ s.flights.get? w = some entry := by
  rw [Dict.get?_pop] at found
  split at found
  · cases found
  · rename_i other; exact ⟨other, found⟩

theorem inv_answer (inv : Inv s) {write : Nat} (ordered : InOrder s (.answer write))
    (taken : step s (.answer write) = some s') : Inv s' := by
  rw [step] at taken
  split at taken
  swap
  · cases taken
  rename_i body next here
  obtain rfl := Option.some.inj taken
  have below := inv.numbered write _ here
  -- The other writes in flight belong to other cells.
  have saving : ∀ w body' stage, (s.flights.pop write).get? w = some (body', stage) →
      body'.id ∈ s.page.savingNow.erase body.id := by
    intro w body' stage found
    obtain ⟨other, old⟩ := get?_popped found
    refine Finset.mem_erase.mpr ⟨fun same => ?_, inv.saving w body' stage old⟩
    exact other (inv.alone w write body' body stage (.read next) old here same)
  have alone : ∀ w w' b b' stage stage', (s.flights.pop write).get? w = some (b, stage) →
      (s.flights.pop write).get? w' = some (b', stage') → b.id = b'.id → w = w' :=
    fun w w' b b' stage stage' found found' =>
      inv.alone w w' b b' stage stage' (get?_popped found).2 (get?_popped found').2
  have stored : ∀ cell body', lastFor s.sent cell = some body' → s.overrides.get? cell = body'.present ∨
      ∃ w, (s.flights.pop write).get? w = some (body', .sent) := by
    intro cell body' last
    refine (inv.stored cell body' last).imp_right (fun ⟨w, old⟩ => ⟨w, ?_⟩)
    rw [Dict.get?_pop, if_neg (other_of_sent here old (.inr (by simp))), old]
  have newest : ∀ w body' stage, (s.flights.pop write).get? w = some (body', stage) →
      lastFor s.sent body'.cell = some body' :=
    fun w body' stage found => inv.newest w body' stage (get?_popped found).2
  by_cases newer : s.page.shownWrite < write
  · simp only [newer, if_true]
    refine ⟨⟨below.1, ?_, saving, alone, newest, ?_⟩, stored, ?_, ?_⟩
    · intro w entry found
      obtain ⟨other, old⟩ := get?_popped found
      exact ⟨(inv.numbered w entry old).1, other⟩
    · intro behind
      dsimp only at behind ⊢
      obtain ⟨entry, found⟩ := inv.awaited (newer.trans behind)
      exact ⟨entry, by rw [Dict.get?_pop, if_neg (by omega), found]⟩
    · intro final data shown
      cases shown
      rcases ordered with behind | loading | current
      · exact absurd (.inl behind) final
      · exact absurd (.inr loading) final
      · exact current body next here
    · intro absent; cases absent
  · simp only [newer, if_false]
    refine ⟨⟨inv.shown_le, ?_, saving, alone, newest, ?_⟩, stored, inv.shown, inv.opening⟩
    · intro w entry found
      exact inv.numbered w entry (get?_popped found).2
    · intro behind
      dsimp only at behind ⊢
      obtain ⟨entry, found⟩ := inv.awaited behind
      exact ⟨entry, by rw [Dict.get?_pop, if_neg (by omega), found]⟩

theorem inv_reload (inv : Inv s) (taken : step s .reload = some s') : Inv s' := by
  obtain rfl := Option.some.inj taken
  exact { inv with shown := fun final => absurd (.inr rfl) final, opening := fun _ => rfl }

theorem inv_readPage (inv : Inv s) (taken : step s .readPage = some s') : Inv s' := by
  rw [step] at taken
  split at taken
  · obtain rfl := Option.some.inj taken
    exact { inv with shown := fun final => absurd (.inr rfl) final, opening := fun _ => rfl }
  · cases taken

theorem inv_showPage (inv : Inv s) (ordered : InOrder s .showPage) (taken : step s .showPage = some s') : Inv s' := by
  rw [step] at taken
  split at taken
  · rename_i r loaded
    obtain rfl := Option.some.inj taken
    refine { inv with shown := fun final data shown => ?_, opening := fun absent => nomatch absent }
    cases shown
    rcases ordered with behind | current
    · exact absurd (.inl behind) final
    · exact current r loaded
  · cases taken

theorem inv_step {e : Event site} (inv : Inv s) (ordered : InOrder s e) (taken : step s e = some s') : Inv s' := by
  cases e with
  | override body => exact inv_override inv body taken
  | store write => exact inv_store inv ordered taken
  | read write => exact inv_read inv taken
  | answer write => exact inv_answer inv ordered taken
  | reload => exact inv_reload inv taken
  | readPage => exact inv_readPage inv taken
  | showPage => exact inv_showPage inv ordered taken

end

/-- The server has not read the matrix for the write sent last. -/
def Unread (s : State site) : Prop :=
  ∃ body, s.flights.get? s.page.lastWrite = some (body, .sent) ∨ s.flights.get? s.page.lastWrite = some (body, .stored)

/-- Every write is stored before the matrix is read for the write sent last. -/
def Early (s : State site) : Event site → Prop
  | .store write => Unread s ∨
      ∀ body stage, s.flights.get? write = some (body, stage) → s.overrides.get? body.cell = body.present
  | .showPage => s.page.shownWrite < s.page.lastWrite ∨ ∀ r, s.loading = some (some r) → r = load site s.overrides
  | _ => True

/-- The answer of the write sent last, once read, is current. -/
def Coming (s : State site) : Prop :=
  ∀ body next, s.flights.get? s.page.lastWrite = some (body, .read next) → next = load site s.overrides

section
variable {s s' : State site} {e : Event site}

theorem renewed_of_unread (tracked : Tracked s) (unread : Unread s) : Renewed s := by
  obtain ⟨entry, found⟩ : ∃ entry, s.flights.get? s.page.lastWrite = some entry := by
    obtain ⟨body, sent | stored⟩ := unread
    · exact ⟨_, sent⟩
    · exact ⟨_, stored⟩
  exact .inl (tracked.shown_le.lt_of_ne (fun same => (tracked.numbered _ entry found).2 same.symm))

theorem inOrder_of_early (tracked : Tracked s) (coming : Coming s) (early : Early s e) : InOrder s e := by
  cases e with
  | store write => exact early.imp_left (renewed_of_unread tracked)
  | answer write =>
    by_cases last : write = s.page.lastWrite
    · exact .inr (.inr (last ▸ coming))
    · by_cases behind : write < s.page.lastWrite
      · exact .inl behind
      · refine .inr (.inr (fun body next found => ?_))
        have known := (tracked.numbered write _ found).1
        omega
  | showPage => exact early
  | override | read | reload | readPage => trivial

theorem coming_step (coming : Coming s) (early : Early s e) (taken : step s e = some s') : Coming s' := by
  cases e with
  | override body =>
    rw [step] at taken
    split at taken
    · obtain rfl := Option.some.inj taken; exact coming
    · obtain rfl := Option.some.inj taken
      intro body' next found
      rw [Dict.get?_set, if_pos rfl] at found
      cases found
  | store write =>
    rw [step] at taken
    split at taken
    swap
    · cases taken
    rename_i body here
    obtain rfl := Option.some.inj taken
    intro body' next found
    rcases (get?_staged here found).1 with ⟨-, same⟩ | ⟨-, old⟩
    · cases same
    · rcases early with ⟨body'', sent | stored⟩ | unchanged
      · cases old.symm.trans sent
      · cases old.symm.trans stored
      · dsimp only
        rw [setOverride_of_get? (unchanged body .sent here)]
        exact coming body' next old
  | read write =>
    rw [step] at taken
    split at taken
    swap
    · cases taken
    rename_i body here
    obtain rfl := Option.some.inj taken
    intro body' next found
    rcases (get?_staged here found).1 with ⟨-, same⟩ | ⟨-, old⟩
    · cases same; rfl
    · exact coming body' next old
  | answer write =>
    rw [step] at taken
    split at taken
    swap
    · cases taken
    obtain rfl := Option.some.inj taken
    intro body' next found
    have still : s.flights.get? s.page.lastWrite = some (body', .read next) := by
      have old := (get?_popped found).2
      dsimp only at old
      split_ifs at old <;> exact old
    exact coming body' next still
  | reload => obtain rfl := Option.some.inj taken; exact coming
  | readPage =>
    rw [step] at taken
    split at taken
    · obtain rfl := Option.some.inj taken; exact coming
    · cases taken
  | showPage =>
    rw [step] at taken
    split at taken
    · obtain rfl := Option.some.inj taken; exact coming
    · cases taken

end

theorem inv_of_reached {overrides : Overrides} {s : State site} (reached : Reached step InOrder (opened site overrides) s) :
    Inv s :=
  reached.invariant (inv_opened overrides) (fun _ _ _ inv ordered taken => inv_step inv ordered taken)

/-- Writes that are stored early enough come in order. -/
theorem reached_of_early {overrides : Overrides} {s : State site} (reached : Reached step Early (opened site overrides) s) :
    Reached step InOrder (opened site overrides) s := by
  have both : Reached step InOrder (opened site overrides) s ∧ Coming s := by
    refine reached.invariant (P := fun s => Reached step InOrder (opened site overrides) s ∧ Coming s)
      ⟨.start, fun body next found => (by cases found)⟩ ?_
    rintro s e s' ⟨reached, coming⟩ early taken
    have ordered := inOrder_of_early (inv_of_reached reached).toTracked coming early
    exact ⟨.next reached ordered taken, coming_step coming early taken⟩
  exact both.1

/-! ### Two writes -/

def twoRows : Site where
  lower := id
  rows := []
  banks := ["tbank"]
  catalog := [⟨"accounts", "g", "Accounts", none, none, none⟩, ⟨"statement", "g", "Statement", none, none, none⟩]

def accounts : OverrideIn twoRows where
  capability := "accounts"
  bank := "tbank"
  present := some true
  knownCapability := by simp [twoRows]
  knownBank := by simp [twoRows]

def statement : OverrideIn twoRows where
  capability := "statement"
  bank := "tbank"
  present := some true
  knownCapability := by simp [twoRows]
  knownBank := by simp [twoRows]

def accountsAgain : OverrideIn twoRows := { accounts with present := some false }

/-- The order of events, decided while the answer of the write sent last is to come. -/
def inOrder (s : State site) : Event site → Bool
  | .store _ => s.page.shownWrite < s.page.lastWrite
  | .answer write => write < s.page.lastWrite
  | .showPage => s.page.shownWrite < s.page.lastWrite
  | _ => true

theorem inOrder_sound {s : State site} {e : Event site} (ordered : inOrder s e = true) : InOrder s e := by
  cases e with
  | store write => exact .inl (.inl (of_decide_eq_true ordered))
  | answer write => exact .inl (of_decide_eq_true ordered)
  | showPage => exact .inl (of_decide_eq_true ordered)
  | override | read | reload | readPage => trivial

/-- Only the write sent last is in flight, and it is stored. -/
def lastStored (s : State site) : Bool := match s.flights.entries with
  | [(write, (_, .stored))] => write = s.page.lastWrite && s.loading.isNone
  | _ => false

theorem step_answer {s : State site} {write : Nat} {body : OverrideIn site} {next : Benchmark}
    (found : s.flights.get? write = some (body, .read next)) : ∃ s', step s (.answer write) = some s' ∧
      s'.flights = s.flights.pop write ∧ s'.loading = s.loading ∧ s'.sent = s.sent := by
  simp only [step, found]
  exact ⟨_, rfl, rfl, rfl, rfl⟩

/-- Its matrix is read and answered at once. -/
theorem reached_quiet {overrides : Overrides} {s : State site} (reached : Reached step InOrder (opened site overrides) s)
    (stored : lastStored s = true) : ∃ s', Reached step InOrder (opened site overrides) s' ∧ Quiet s' ∧ s'.sent = s.sent := by
  obtain ⟨write, body, entries, loaded⟩ :
      ∃ write body, s.flights.entries = [(write, (body, .stored))] ∧ s.loading.isNone = true := by
    unfold lastStored at stored
    split at stored
    · rename_i write body entries
      exact ⟨write, body, entries, ((Bool.and_eq_true _ _).mp stored).2⟩
    · cases stored
  have here : s.flights.get? write = some (body, .stored) :=
    Dict.get?_eq_some.mpr (by rw [entries]; exact List.mem_singleton_self _)
  set read : State site := { s with flights := s.flights.set write (body, .read (load site s.overrides)) } with readIs
  have step_read : step s (.read write) = some read := by simp [step, here, readIs]
  have found : read.flights.get? write = some (body, .read (load site s.overrides)) := by
    rw [readIs]; dsimp only; rw [Dict.get?_set, if_pos rfl]
  obtain ⟨s', answered, flights, loading, sent⟩ := step_answer found
  have reached_read : Reached step InOrder (opened site overrides) read := .next reached (e := .read write) trivial step_read
  have current : InOrder read (.answer write) := by
    refine .inr (.inr (fun body' next same => ?_))
    rw [found] at same
    cases same
    rfl
  refine ⟨s', .next reached_read current answered, ⟨?_, by rw [loading]; exact loaded⟩, sent⟩
  refine List.isEmpty_iff.mpr (List.eq_nil_iff_forall_not_mem.mpr (fun entry member => ?_))
  have left := Dict.get?_eq_some.mpr member
  rw [flights, Dict.get?_pop] at left
  split at left
  · cases left
  · rename_i other
    rw [readIs] at left
    dsimp only at left
    rw [Dict.get?_set, if_neg other, Dict.get?_eq_some, entries] at left
    exact other (congrArg Prod.fst (List.mem_singleton.mp left))

/-- The override that the page shows in a cell. -/
def shownOverride (s : State site) (capability bank : String) : Option (Option Bool) := do
  let data ← s.page.data
  let row ← data.rows.find? (fun row => row.capability.key = capability)
  let cell ← row.cells.get? bank
  return cell.override

theorem shownOverride_of_converged {s : State site} (converged : Converged s) {body : OverrideIn site}
    (last : lastFor s.sent body.cell = some body) : shownOverride s body.capability body.bank = some body.present := by
  obtain ⟨data, shown, all⟩ := converged
  obtain ⟨⟨row, member, named⟩, cells⟩ := all _ body last
  have found : (data.rows.find? (fun row => row.capability.key = body.capability)).isSome := by
    rw [List.find?_isSome]; exact ⟨row, member, by simpa using named⟩
  obtain ⟨row', here⟩ := Option.isSome_iff_exists.mp found
  obtain ⟨cell, known, same⟩ := cells row' (List.mem_of_find?_eq_some here) (by simpa using List.find?_some here)
  simp [shownOverride, shown, here, known, same]

/-- When what the page shows last is current, it shows the result of every write once
    no request is in flight. -/
theorem quiet_converged (site : Site) (overrides : Overrides) (s : State site)
    (reached : Reached step InOrder (opened site overrides) s) (quiet : Quiet s) : Converged s := by
  have inv := inv_of_reached reached
  have landed : ∀ write, s.flights.get? write = none := fun write => by
    rw [Dict.get?, List.isEmpty_iff.mp quiet.1]; rfl
  have unloading : s.loading = none := Option.isNone_iff_eq_none.mp quiet.2
  have final : ¬ Renewed s := by
    rintro (behind | loading)
    · obtain ⟨entry, found⟩ := inv.awaited behind
      cases (landed _).symm.trans found
    · rw [unloading] at loading; cases loading
  cases shown : s.page.data with
  | none =>
    have waiting := inv.opening shown
    rw [unloading] at waiting
    cases waiting
  | some data =>
    refine ⟨data, shown, fun cell body sent => ?_⟩
    rcases inv.stored cell body sent with stored | ⟨write, found⟩
    · rw [inv.shown final data shown]
      exact shows_load (cell_of_lastFor sent ▸ stored)
    · cases (landed write).symm.trans found

/-- The second write is read back before the first one is stored, and its answer is shown; a
    third write brings the table. -/
theorem quiet_converged_three : ∃ s : State twoRows, Reached step InOrder (opened twoRows Dict.empty) s ∧ Quiet s ∧
    s.sent = [accounts, statement, accountsAgain] ∧ Converged s := by
  obtain ⟨s, reached, tested⟩ := @exists_reached _ _ step InOrder (opened twoRows Dict.empty) inOrder
    (fun _ _ => inOrder_sound)
    [.readPage, .override accounts, .override statement, .showPage, .store 2, .read 2, .store 1, .read 1, .answer 1,
      .override accountsAgain, .answer 2, .store 3]
    (fun s => decide (lastStored s = true ∧ s.sent = [accounts, statement, accountsAgain])) (by decide)
  obtain ⟨stored, sent⟩ := of_decide_eq_true tested
  obtain ⟨s', reached', quiet, same⟩ := reached_quiet reached stored
  exact ⟨s', reached', quiet, same.trans sent, quiet_converged twoRows Dict.empty s' reached' quiet⟩

/-- The write sent last is read back before the other one is stored. -/
theorem overtaken_not_converged : ¬ ∀ s : State twoRows,
    Reached step always (opened twoRows Dict.empty) s → Quiet s → Converged s := by
  intro claim
  obtain ⟨s, reached, tested⟩ := @exists_reached _ _ step always (opened twoRows Dict.empty) (fun _ _ => true)
    (fun _ _ _ => trivial)
    [.readPage, .showPage, .override accounts, .override statement, .store 2, .read 2, .store 1, .read 1, .answer 2,
      .answer 1]
    (fun s => decide (Quiet s ∧ s.sent = [accounts, statement] ∧
      shownOverride s accounts.capability accounts.bank = some none)) (by decide)
  obtain ⟨quiet, sent, hidden⟩ := of_decide_eq_true tested
  have last : lastFor s.sent accounts.cell = some accounts := by rw [sent]; decide
  have shown := shownOverride_of_converged (claim s reached quiet) last
  rw [hidden] at shown
  cases shown

end ScanApi.BenchmarkPage
