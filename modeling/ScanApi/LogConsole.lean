import ScanApi.EventLog
import ScanApi.Machine

/-!
The log console (`useLogs.ts`) and the journal behind it (`list_events`,
`get_logs`). Polling puts the newest page on top of what is shown, or starts over
from it when there may be a gap; "load more" appends a page that was asked for by
the oldest event shown at that time. The list is without gaps as long as such a
page still joins the list when it arrives (`gapless`).
-/
namespace ScanApi.LogConsole
open ScanApi.EventLog ScanApi.Machine

structure LogEvent where
  id : Nat
  createdAt : Nat
  level : Level
  category : Category
  message : String
  details : Option String := none
deriving DecidableEq, Repr

/-- Newest first. -/
def Descending (events : List LogEvent) : Prop := events.Pairwise (fun a b => b.id < a.id)

/-! ### The journal -/

/-- The rows of `event_log` by id, and the greatest id ever given. -/
structure Journal where
  rows : List LogEvent
  lastId : Nat
  ascending : rows.Pairwise (fun a b => a.id < b.id)
  bounded : ∀ e ∈ rows, e.id ≤ lastId

def Journal.insert (journal : Journal) (event : LogEvent) (new : journal.lastId < event.id) : Journal where
  rows := journal.rows ++ [event]
  lastId := event.id
  ascending := List.pairwise_append.mpr ⟨journal.ascending, List.pairwise_singleton _ _, fun a member b here => by
    rw [List.mem_singleton.mp here]
    exact Nat.lt_of_le_of_lt (journal.bounded a member) new⟩
  bounded := by
    intro e member
    rcases List.mem_append.mp member with old | here
    · exact Nat.le_of_lt (Nat.lt_of_le_of_lt (journal.bounded e old) new)
    · rw [List.mem_singleton.mp here]

/-- `DELETE FROM event_log WHERE created_at < oldest`. -/
def Journal.prune (journal : Journal) (oldest : Nat) : Journal where
  rows := journal.rows.filter (fun e => oldest ≤ e.createdAt)
  lastId := journal.lastId
  ascending := journal.ascending.filter _
  bounded := fun e member => journal.bounded e (List.mem_filter.mp member).1

/-- Newest first: `ORDER BY id DESC` of rows by id. -/
def listEvents (journal : Journal) (level : Option Level) (category : Option Category) (beforeId : Option Nat)
    (limit : Nat) : List LogEvent :=
  ((journal.rows.filter (fun e => level.all (e.level = ·) && category.all (e.category = ·) &&
    beforeId.all (e.id < ·))).reverse).take limit

structure LogsResponse where
  events : List LogEvent
  hasMore : Bool
deriving DecidableEq, Repr

def getLogs (journal : Journal) (level : Option Level) (category : Option Category) (before : Option Nat) (limit : Nat) :
    LogsResponse :=
  let rows := listEvents journal level category before (limit + 1)
  ⟨rows.take limit, limit < rows.length⟩

/-! ### The console -/

def pageSize : Nat := 100

/-- The server's answer to `query(before)`. -/
def query (journal : Journal) (before : Option Nat) : LogsResponse := getLogs journal none none before pageSize

structure Merged where
  events : List LogEvent
  reset : Bool

def mergeFresh (fresh current : List LogEvent) : Merged := match fresh.getLast? with
  | none => ⟨current, false⟩
  | some oldestFresh =>
    let newestKnown := (current.head?.map LogEvent.id).getD 0
    if pageSize ≤ fresh.length ∧ newestKnown + 1 < oldestFresh.id then ⟨fresh, true⟩
    else ⟨fresh ++ current.filter (fun e => e.id < oldestFresh.id), false⟩

/-- A request in flight, and its answer once the server has read it. -/
abbrev Request := Option LogsResponse

structure State where
  journal : Journal
  events : List LogEvent := []
  hasMore : Bool := false
  /-- The request for the first page. -/
  first : Option Request := some none
  /-- The first page has arrived. -/
  arrived : Bool := false
  refreshes : List Request := []
  /-- The load-more in flight, and the id it was asked by. -/
  more : Option (Nat × Request) := none

inductive Event
  | insert (event : LogEvent)
  | prune (oldest : Nat)
  /-- The server reads the first page; it arrives; the request fails. -/
  | readFirst
  | showFirst
  | failFirst
  | refresh
  | readRefresh (place : Nat)
  | showRefresh (place : Nat)
  | failRefresh (place : Nat)
  | loadMore
  | readMore
  | showMore
  | failMore

def step (s : State) : Event → Option State
  | .insert event =>
    if new : s.journal.lastId < event.id then some { s with journal := s.journal.insert event new } else none
  | .prune oldest => some { s with journal := s.journal.prune oldest }
  | .readFirst => match s.first with
    | some none => some { s with first := some (some (query s.journal none)) }
    | _ => none
  | .showFirst => match s.first with
    | some (some r) => some { s with events := r.events, hasMore := r.hasMore, first := none, arrived := true }
    | _ => none
  | .failFirst => s.first.map (fun _ => { s with first := none })
  | .refresh => some { s with refreshes := s.refreshes ++ [none] }
  | .readRefresh place => match s.refreshes[place]? with
    | some none => some { s with refreshes := s.refreshes.set place (some (query s.journal none)) }
    | _ => none
  | .showRefresh place => match s.refreshes[place]? with
    | some (some r) =>
      let merged := mergeFresh r.events s.events
      some { s with
        events := merged.events
        hasMore := merged.reset || s.hasMore
        refreshes := s.refreshes.eraseIdx place }
    | _ => none
  | .failRefresh place => s.refreshes[place]?.map (fun _ => { s with refreshes := s.refreshes.eraseIdx place })
  | .loadMore => match s.events.getLast?, s.more with
    | some oldest, none => some { s with more := some (oldest.id, none) }
    | none, none => some s
    | _, _ => none
  | .readMore => match s.more with
    | some (oldest, none) => some { s with more := some (oldest, some (query s.journal (some oldest))) }
    | _ => none
  | .showMore => match s.more with
    | some (oldest, some r) => some { s with
        events := s.events ++ r.events.filter (fun e => e.id < oldest)
        hasMore := r.hasMore
        more := none }
    | _ => none
  | .failMore => s.more.map (fun _ => { s with more := none })

/-- The console is opened. -/
def opened (journal : Journal) : State := { journal }

/-! ### Lists without gaps -/

/-- The list has every event of the journal from its oldest to its newest. -/
def Contiguous (journal : Journal) (events : List LogEvent) : Prop :=
  ∀ e ∈ journal.rows, (∃ a ∈ events, a.id ≤ e.id) → (∃ b ∈ events, e.id ≤ b.id) → e ∈ events

/-- Once the first page has arrived, the list is strictly descending and has no gap. -/
def Good (s : State) : Prop := s.arrived = true → Descending s.events ∧ Contiguous s.journal s.events

/-- The page of older events joins the list: it is empty, or its newest event is older
    than the last one shown and the server has none between them. -/
def Joins (journal : Journal) (events older : List LogEvent) : Prop :=
  ∀ first ∈ older.head?, ∀ last ∈ events.getLast?,
    first.id < last.id ∧ ∀ e ∈ journal.rows, ¬ (first.id < e.id ∧ e.id < last.id)

instance (journal : Journal) (events older : List LogEvent) : Decidable (Joins journal events older) :=
  inferInstanceAs (Decidable (∀ first ∈ older.head?, ∀ last ∈ events.getLast?, _))

/-- The condition on a step: the older page that arrives joins the list. -/
def Joined (s : State) : Event → Prop
  | .showMore => s.arrived = true → ∀ oldest r, s.more = some (oldest, some r) → Joins s.journal s.events r.events
  | _ => True

/-! ### What the server answers -/

section
variable {journal journal' : Journal} {events page : List LogEvent} {before : Option Nat}

/-- The beginning of a descending list has everything newer than one of its events. -/
theorem mem_take_of_le {l : List LogEvent} (descending : Descending l) {n : Nat} {a e : LogEvent} (taken : a ∈ l.take n)
    (member : e ∈ l) (newer : a.id ≤ e.id) : e ∈ l.take n := by
  rw [← List.take_append_drop n l] at descending member
  rcases List.mem_append.mp member with early | late
  · exact early
  · have older := (List.pairwise_append.mp descending).2.2 a taken e late
    omega

/-- The rows that a query may return. -/
def candidates (journal : Journal) (before : Option Nat) : List LogEvent :=
  (journal.rows.filter (fun e => before.all (e.id < ·))).reverse

theorem events_query (journal : Journal) (before : Option Nat) :
    (query journal before).events = (candidates journal before).take pageSize := by
  simp [query, getLogs, listEvents, candidates, List.take_take]

theorem descending_candidates (journal : Journal) (before : Option Nat) : Descending (candidates journal before) :=
  List.pairwise_reverse.mpr (journal.ascending.filter _)

theorem mem_candidates {e : LogEvent} : e ∈ candidates journal before ↔ e ∈ journal.rows ∧ ∀ id ∈ before, e.id < id := by
  cases before <;> simp [candidates]

/-- The newest page: without gaps, and the whole journal when it is short. -/
structure Fresh (journal : Journal) (page : List LogEvent) : Prop where
  descending : Descending page
  known : ∀ e ∈ page, e.id ≤ journal.lastId
  contiguous : Contiguous journal page
  short : page.length < pageSize → ∀ e ∈ journal.rows, (∃ b ∈ page, e.id ≤ b.id) → e ∈ page

/-- A page of the events before an id. -/
structure Older (journal : Journal) (oldest : Nat) (page : List LogEvent) : Prop where
  descending : Descending page
  below : ∀ e ∈ page, e.id < oldest
  top : ∀ e ∈ journal.rows, e.id < oldest → (∃ a ∈ page, a.id ≤ e.id) → e ∈ page

theorem fresh_query (journal : Journal) : Fresh journal (query journal none).events := by
  rw [events_query]
  have descending := descending_candidates journal none
  refine ⟨descending.sublist (List.take_sublist _ _), fun e member => ?_, fun e row newer _ => ?_, fun short e row _ => ?_⟩
  · exact journal.bounded e (mem_candidates.mp (List.mem_of_mem_take member)).1
  · obtain ⟨a, taken, le⟩ := newer
    exact mem_take_of_le descending taken (mem_candidates.mpr ⟨row, by simp⟩) le
  · have all : (candidates journal none).length ≤ pageSize := by
      rw [List.length_take] at short
      omega
    rw [List.take_of_length_le all]
    exact mem_candidates.mpr ⟨row, by simp⟩

theorem older_query (journal : Journal) (oldest : Nat) : Older journal oldest (query journal (some oldest)).events := by
  rw [events_query]
  have descending := descending_candidates journal (some oldest)
  refine ⟨descending.sublist (List.take_sublist _ _), fun e member => ?_, fun e row below newer => ?_⟩
  · exact (mem_candidates.mp (List.mem_of_mem_take member)).2 oldest rfl
  · obtain ⟨a, taken, le⟩ := newer
    refine mem_take_of_le descending taken (mem_candidates.mpr ⟨row, fun id same => ?_⟩) le
    cases same
    exact below

/-! ### The journal moves on -/

/-- Events are deleted, and new ones have new ids. -/
def Follows (journal journal' : Journal) : Prop :=
  journal.lastId ≤ journal'.lastId ∧ ∀ e ∈ journal'.rows, e ∈ journal.rows ∨ journal.lastId < e.id

theorem follows_insert (journal : Journal) (event : LogEvent) (new : journal.lastId < event.id) :
    Follows journal (journal.insert event new) := by
  refine ⟨Nat.le_of_lt new, fun e member => ?_⟩
  rcases List.mem_append.mp member with old | here
  · exact .inl old
  · rw [List.mem_singleton.mp here]
    exact .inr new

theorem follows_prune (journal : Journal) (oldest : Nat) : Follows journal (journal.prune oldest) :=
  ⟨Nat.le_refl _, fun _ member => .inl (List.mem_filter.mp member).1⟩

theorem contiguous_follows (follows : Follows journal journal') (known : ∀ e ∈ events, e.id ≤ journal.lastId)
    (contiguous : Contiguous journal events) : Contiguous journal' events := by
  intro e row newer older
  rcases follows.2 e row with old | new
  · exact contiguous e old newer older
  · obtain ⟨b, member, le⟩ := older
    have := known b member
    omega

theorem fresh_follows (follows : Follows journal journal') (fresh : Fresh journal page) : Fresh journal' page := by
  refine ⟨fresh.descending, fun e member => (fresh.known e member).trans follows.1,
    contiguous_follows follows fresh.known fresh.contiguous, fun short e row older => ?_⟩
  rcases follows.2 e row with old | new
  · exact fresh.short short e old older
  · obtain ⟨b, member, le⟩ := older
    have := fresh.known b member
    omega

theorem older_follows {oldest : Nat} (follows : Follows journal journal') (known : oldest ≤ journal.lastId)
    (older : Older journal oldest page) : Older journal' oldest page := by
  refine ⟨older.descending, older.below, fun e row below newer => ?_⟩
  rcases follows.2 e row with old | new
  · exact older.top e old below newer
  · omega

/-! ### Merging -/

theorem mem_mergeFresh {fresh current : List LogEvent} {e : LogEvent} (member : e ∈ (mergeFresh fresh current).events) :
    e ∈ fresh ∨ e ∈ current := by
  rw [mergeFresh] at member
  split at member
  · exact .inr member
  · dsimp only at member
    split at member
    · exact .inl member
    · exact (List.mem_append.mp member).imp_right (fun inside => (List.mem_filter.mp inside).1)

/-- The oldest of a descending list. -/
theorem getLast?_le {l : List LogEvent} (descending : Descending l) {last : LogEvent} (ends : l.getLast? = some last) :
    last ∈ l ∧ ∀ e ∈ l, last.id ≤ e.id := by
  obtain ⟨before, rfl⟩ := List.getLast?_eq_some_iff.mp ends
  refine ⟨by simp, fun e member => ?_⟩
  rcases List.mem_append.mp member with early | here
  · exact Nat.le_of_lt ((List.pairwise_append.mp descending).2.2 e early last (by simp))
  · rw [List.mem_singleton.mp here]

/-- The newest of a descending list. -/
theorem le_head? {l : List LogEvent} (descending : Descending l) {first : LogEvent} (starts : l.head? = some first) :
    first ∈ l ∧ ∀ e ∈ l, e.id ≤ first.id := by
  obtain ⟨rest, rfl⟩ := List.head?_eq_some_iff.mp starts
  refine ⟨List.mem_cons_self, fun e member => ?_⟩
  rcases List.mem_cons.mp member with rfl | later
  · exact Nat.le_refl _
  · exact Nat.le_of_lt ((List.pairwise_cons.mp descending).1 e later)

/-- The newest page on top of a list without gaps is a list without gaps. -/
theorem mergeFresh_good {fresh current : List LogEvent} (isFresh : Fresh journal fresh) (descending : Descending current)
    (contiguous : Contiguous journal current) : Descending (mergeFresh fresh current).events ∧
      Contiguous journal (mergeFresh fresh current).events := by
  rw [mergeFresh]
  split
  · exact ⟨descending, contiguous⟩
  rename_i oldestFresh ends
  obtain ⟨oldestIn, oldest⟩ := getLast?_le isFresh.descending ends
  dsimp only
  split
  · exact ⟨isFresh.descending, isFresh.contiguous⟩
  rename_i noGap
  refine ⟨List.pairwise_append.mpr ⟨isFresh.descending, descending.filter _, fun a member b kept => ?_⟩, ?_⟩
  · have := of_decide_eq_true (List.mem_filter.mp kept).2
    have := oldest a member
    omega
  intro e row newer older
  -- An event from the fresh page on is in that page.
  by_cases inFresh : oldestFresh.id ≤ e.id
  · obtain ⟨b, member, le⟩ := older
    rcases List.mem_append.mp member with top | kept
    · exact List.mem_append_left _ (isFresh.contiguous e row ⟨oldestFresh, oldestIn, inFresh⟩ ⟨b, top, le⟩)
    · have := of_decide_eq_true (List.mem_filter.mp kept).2
      omega
  -- An older one is in the list shown before, unless it is newer than all of that list.
  obtain ⟨a, lower, le⟩ := newer
  have shown : a ∈ current := by
    rcases List.mem_append.mp lower with top | kept
    · have := oldest a top
      omega
    · exact (List.mem_filter.mp kept).1
  by_cases within : ∃ b ∈ current, e.id ≤ b.id
  · refine List.mem_append_right _ (List.mem_filter.mpr ⟨contiguous e row ⟨a, shown, le⟩ within, ?_⟩)
    exact decide_eq_true (by omega)
  · obtain ⟨newestKnown, rest, nonempty⟩ := List.exists_cons_of_ne_nil (List.ne_nil_of_mem shown)
    have starts : current.head? = some newestKnown := by rw [nonempty]; rfl
    have above : newestKnown.id < e.id := by
      by_contra reached
      exact within ⟨newestKnown, (le_head? descending starts).1, by omega⟩
    have short : fresh.length < pageSize := by
      by_contra full
      refine noGap ⟨by omega, ?_⟩
      rw [starts, Option.map_some, Option.getD_some]
      omega
    exact List.mem_append_left _ (isFresh.short short e row ⟨oldestFresh, oldestIn, by omega⟩)

/-- A page that joins a list without gaps leaves none, and only such a page. -/
theorem append_good_iff {oldest : Nat} {older : List LogEvent} (isOlder : Older journal oldest older)
    (descending : Descending events) (contiguous : Contiguous journal events) :
    Descending (events ++ older) ∧ Contiguous journal (events ++ older) ↔ Joins journal events older := by
  constructor
  · rintro ⟨descends, whole⟩ first starts last ends
    obtain ⟨firstIn, newest⟩ := le_head? isOlder.descending starts
    obtain ⟨lastIn, lowest⟩ := getLast?_le descending ends
    refine ⟨(List.pairwise_append.mp descends).2.2 last lastIn first firstIn, fun e row ⟨after, before⟩ => ?_⟩
    -- An event in between would have to be shown, but both lists end before it.
    rcases List.mem_append.mp (whole e row ⟨first, List.mem_append_right _ firstIn, Nat.le_of_lt after⟩
      ⟨last, List.mem_append_left _ lastIn, Nat.le_of_lt before⟩) with above | below
    · have := lowest e above
      omega
    · have := newest e below
      omega
  · intro joins
    cases starts : older.head? with
    | none =>
      rw [List.head?_eq_none_iff.mp starts, List.append_nil]
      exact ⟨descending, contiguous⟩
    | some first =>
      obtain ⟨firstIn, newest⟩ := le_head? isOlder.descending starts
      have beyond : ∀ e ∈ journal.rows, (∃ a ∈ older, a.id ≤ e.id) → e.id ≤ first.id → e ∈ older := by
        intro e row newer le
        exact isOlder.top e row (Nat.lt_of_le_of_lt le (isOlder.below first firstIn)) newer
      cases ends : events.getLast? with
      | none =>
        rw [List.getLast?_eq_none_iff.mp ends, List.nil_append]
        refine ⟨isOlder.descending, fun e row newer ⟨b, member, le⟩ => beyond e row newer (le.trans (newest b member))⟩
      | some last =>
        obtain ⟨lastIn, lowest⟩ := getLast?_le descending ends
        obtain ⟨apart, between⟩ := joins first starts last ends
        refine ⟨List.pairwise_append.mpr ⟨descending, isOlder.descending, fun a above b below => ?_⟩, ?_⟩
        · have := lowest a above
          have := newest b below
          omega
        rintro e row ⟨a, lower, le⟩ ⟨b, upper, le'⟩
        by_cases low : e.id ≤ first.id
        · rcases List.mem_append.mp lower with above | below
          · have := lowest a above
            omega
          · exact List.mem_append_right _ (beyond e row ⟨a, below, le⟩ low)
        · have high : last.id ≤ e.id := by
            by_contra lowId
            exact between e row ⟨by omega, by omega⟩
          rcases List.mem_append.mp upper with above | below
          · exact List.mem_append_left _ (contiguous e row ⟨last, lastIn, high⟩ ⟨b, above, le'⟩)
          · have := newest b below
            omega

/-- A page joins a list that still ends with the event it was asked by. -/
theorem joins_of_bottom {last : LogEvent} {older : List LogEvent} (isOlder : Older journal last.id older)
    (ends : events.getLast? = some last) : Joins journal events older := by
  intro first starts last' ends'
  obtain rfl : last = last' := Option.some.inj (ends.symm.trans ends')
  obtain ⟨firstIn, newest⟩ := le_head? isOlder.descending starts
  refine ⟨isOlder.below first firstIn, fun e row ⟨after, before⟩ => ?_⟩
  -- An event in between would be in the page, above its newest.
  have := newest e (isOlder.top e row before ⟨first, firstIn, Nat.le_of_lt after⟩)
  omega

end

/-! ### Runs -/

/-- What is shown and what is on its way. -/
structure Inv (s : State) : Prop where
  first : ∀ r, s.first = some (some r) → Fresh s.journal r.events
  refreshes : ∀ r, some r ∈ s.refreshes → Fresh s.journal r.events
  asked : ∀ oldest request, s.more = some (oldest, request) → oldest ≤ s.journal.lastId
  more : ∀ oldest r, s.more = some (oldest, some r) → Older s.journal oldest r.events
  known : ∀ e ∈ s.events, e.id ≤ s.journal.lastId
  good : Good s

theorem inv_opened (journal : Journal) : Inv (opened journal) where
  first := by simp [opened]
  refreshes := by simp [opened]
  asked := by simp [opened]
  more := by simp [opened]
  known := by simp [opened]
  good := by simp [Good, opened]

section
variable {s s' : State}

theorem inv_follows (inv : Inv s) {journal : Journal} (follows : Follows s.journal journal) : Inv { s with journal } where
  first := fun r found => fresh_follows follows (inv.first r found)
  refreshes := fun r member => fresh_follows follows (inv.refreshes r member)
  asked := fun oldest request found => (inv.asked oldest request found).trans follows.1
  more := fun oldest r found => older_follows follows (inv.asked oldest _ found) (inv.more oldest r found)
  known := fun e member => (inv.known e member).trans follows.1
  good := fun arrived => ⟨(inv.good arrived).1, contiguous_follows follows inv.known (inv.good arrived).2⟩

theorem inv_readRefresh {place : Nat} (inv : Inv s) (taken : step s (.readRefresh place) = some s') : Inv s' := by
  rw [step] at taken
  split at taken
  · obtain rfl := Option.some.inj taken
    refine { inv with refreshes := fun r member => ?_ }
    rcases List.mem_or_eq_of_mem_set member with old | same
    · exact inv.refreshes r old
    · cases same
      exact fresh_query s.journal
  · cases taken

theorem inv_showRefresh {place : Nat} (inv : Inv s) (taken : step s (.showRefresh place) = some s') : Inv s' := by
  rw [step] at taken
  split at taken
  · rename_i r found
    obtain rfl := Option.some.inj taken
    have fresh := inv.refreshes r (List.mem_of_getElem? found)
    refine { inv with
      refreshes := fun r member => inv.refreshes r (List.mem_of_mem_eraseIdx member)
      known := fun e member => ?_
      good := fun arrived => ?_ }
    · rcases mem_mergeFresh member with new | old
      · exact fresh.known e new
      · exact inv.known e old
    · exact mergeFresh_good fresh (inv.good arrived).1 (inv.good arrived).2
  · cases taken

theorem inv_loadMore (inv : Inv s) (taken : step s .loadMore = some s') : Inv s' := by
  rw [step] at taken
  split at taken
  · rename_i oldest ends _
    obtain rfl := Option.some.inj taken
    refine { inv with asked := fun id request same => ?_, more := nofun }
    cases same
    exact inv.known oldest (List.mem_of_getLast? ends)
  · obtain rfl := Option.some.inj taken
    exact inv
  · cases taken

theorem inv_readMore (inv : Inv s) (taken : step s .readMore = some s') : Inv s' := by
  rw [step] at taken
  split at taken
  · rename_i oldest found
    obtain rfl := Option.some.inj taken
    refine { inv with asked := fun id request same => ?_, more := fun id r same => ?_ }
    · cases same
      exact inv.asked oldest _ found
    · cases same
      exact older_query s.journal oldest
  · cases taken

/-- The filter of `loadMore` drops nothing: the server was asked for older events only. -/
theorem filter_older {journal : Journal} {oldest : Nat} {page : List LogEvent} (older : Older journal oldest page) :
    page.filter (fun e => e.id < oldest) = page :=
  List.filter_eq_self.mpr (fun e member => decide_eq_true (older.below e member))

theorem inv_showMore (inv : Inv s) (joined : Joined s .showMore) (taken : step s .showMore = some s') : Inv s' := by
  rw [step] at taken
  split at taken
  swap
  · cases taken
  rename_i oldest r found
  obtain rfl := Option.some.inj taken
  have older := inv.more oldest r found
  rw [filter_older older]
  refine { inv with asked := nofun, more := nofun, known := fun e member => ?_, good := fun arrived => ?_ }
  · rcases List.mem_append.mp member with shown | more
    · exact inv.known e shown
    · exact (Nat.le_of_lt (older.below e more)).trans (inv.asked oldest _ found)
  · obtain ⟨descending, contiguous⟩ := inv.good arrived
    exact (append_good_iff older descending contiguous).mpr (joined arrived oldest r found)

theorem inv_step {e : Event} (inv : Inv s) (joined : Joined s e) (taken : step s e = some s') : Inv s' := by
  cases e with
  | insert event =>
    rw [step] at taken
    split at taken
    · rename_i new
      obtain rfl := Option.some.inj taken
      exact inv_follows inv (follows_insert s.journal event new)
    · cases taken
  | prune oldest =>
    obtain rfl := Option.some.inj taken
    exact inv_follows inv (follows_prune s.journal oldest)
  | readFirst =>
    rw [step] at taken
    split at taken
    · obtain rfl := Option.some.inj taken
      refine { inv with first := fun r same => ?_ }
      cases same
      exact fresh_query s.journal
    · cases taken
  | showFirst =>
    rw [step] at taken
    split at taken
    · rename_i r found
      obtain rfl := Option.some.inj taken
      have fresh := inv.first r found
      exact { inv with
        first := nofun
        known := fresh.known
        good := fun _ => ⟨fresh.descending, fresh.contiguous⟩ }
    · cases taken
  | failFirst =>
    obtain ⟨_, -, rfl⟩ := Option.map_eq_some_iff.mp taken
    exact { inv with first := nofun }
  | refresh =>
    obtain rfl := Option.some.inj taken
    refine { inv with refreshes := fun r member => inv.refreshes r ?_ }
    simpa using member
  | readRefresh place => exact inv_readRefresh inv taken
  | showRefresh place => exact inv_showRefresh inv taken
  | failRefresh place =>
    obtain ⟨_, -, rfl⟩ := Option.map_eq_some_iff.mp taken
    exact { inv with refreshes := fun r member => inv.refreshes r (List.mem_of_mem_eraseIdx member) }
  | loadMore => exact inv_loadMore inv taken
  | readMore => exact inv_readMore inv taken
  | showMore => exact inv_showMore inv joined taken
  | failMore =>
    obtain ⟨_, -, rfl⟩ := Option.map_eq_some_iff.mp taken
    exact { inv with asked := nofun, more := nofun }

theorem inv_reached {journal : Journal} (reached : Reached step Joined (opened journal) s) : Inv s :=
  reached.invariant (inv_opened journal) (fun _ _ _ inv joined taken => inv_step inv joined taken)

/-- An older page joins the list as long as the event it was asked by is the last one shown. -/
theorem joined_of_bottom {journal : Journal} (reached : Reached step Joined (opened journal) s)
    (kept : ∀ oldest r, s.more = some (oldest, some r) → ∃ last ∈ s.events.getLast?, last.id = oldest) :
    Joined s .showMore := by
  intro _ oldest r found
  obtain ⟨last, ends, rfl⟩ := kept oldest r found
  exact joins_of_bottom ((inv_reached reached).more last.id r found) ends

end

/-- While every older page joins the list when it arrives, the list is strictly
    descending and has every event between its newest and its oldest; a page that
    does not join it spoils the list. -/
theorem gapless (journal : Journal) (s : State) (reached : Reached step Joined (opened journal) s) :
    Good s ∧ ∀ e s', step s e = some s' → ¬ Joined s e → ¬ Good s' := by
  have inv := inv_reached reached
  refine ⟨inv.good, fun e s' taken apart good => apart ?_⟩
  cases e with
  | showMore =>
    intro arrived oldest r found
    have older := inv.more oldest r found
    simp only [step, found, filter_older older, Option.some.injEq] at taken
    subst taken
    exact (append_good_iff older (inv.good arrived).1 (inv.good arrived).2).mp (good arrived)
  | insert | prune | readFirst | showFirst | failFirst | refresh | readRefresh | showRefresh | failRefresh | loadMore
  | readMore | failMore => trivial

/-! ### An older page after a reset -/

/-- The condition on a step, decided. -/
def joined (s : State) : Event → Bool
  | .showMore => match s.more with
    | some (_, some r) => Joins s.journal s.events r.events
    | _ => true
  | _ => true

theorem joined_sound {s : State} {e : Event} (checked : joined s e = true) : Joined s e := by
  cases e with
  | showMore =>
    intro _ oldest r found
    simpa only [joined, found, decide_eq_true_eq] using checked
  | insert | prune | readFirst | showFirst | failFirst | refresh | readRefresh | showRefresh | failRefresh | loadMore
  | readMore | failMore => trivial

def row (id : Nat) : LogEvent := ⟨id, 0, .info, .parser, "Сбор завершён", none⟩

/-- The events 1 to 101. -/
def twoPages : Journal where
  rows := (List.range 101).map (fun n => row (n + 1))
  lastId := 101
  ascending := List.pairwise_map.mpr (List.pairwise_lt_range.imp (fun below => Nat.succ_lt_succ below))
  bounded := by
    intro e member
    obtain ⟨n, listed, rfl⟩ := List.mem_map.mp member
    exact List.mem_range.mp listed

/-- The second page is on its way. -/
def secondPage : List Event := [.readFirst, .showFirst, .loadMore, .readMore]

/-- The older page arrives after a refresh that did not change the end of the list. -/
theorem gapless_two_pages : ∃ s : State, Reached step Joined (opened twoPages) s ∧ s.arrived = true ∧
    row 1 ∈ s.events ∧ row 103 ∈ s.events ∧ Good s := by
  obtain ⟨s, reached, tested⟩ := @exists_reached _ _ step Joined (opened twoPages) joined (fun _ _ => joined_sound)
    (secondPage ++ [.insert (row 103), .refresh, .readRefresh 0, .showRefresh 0, .showMore])
    (fun s => decide (s.arrived = true ∧ row 1 ∈ s.events ∧ row 103 ∈ s.events)) (by decide +kernel)
  obtain ⟨arrived, below, above⟩ := of_decide_eq_true tested
  exact ⟨s, reached, arrived, below, above, (gapless twoPages s reached).1⟩

/-- A hundred new events start the list over before the older page arrives. -/
theorem reset_leaves_gap : ¬ ∀ s : State, Reached step always (opened twoPages) s → Good s := by
  intro claim
  obtain ⟨s, reached, tested⟩ := @exists_reached _ _ step always (opened twoPages) (fun _ _ => true) (fun _ _ _ => trivial)
    (secondPage ++ (List.range 100).map (fun n => .insert (row (n + 103))) ++
      [.refresh, .readRefresh 0, .showRefresh 0, .showMore])
    (fun s => decide (s.arrived = true ∧ row 1 ∈ s.events ∧ row 103 ∈ s.events ∧ row 50 ∈ s.journal.rows ∧
      row 50 ∉ s.events)) (by decide +kernel)
  obtain ⟨arrived, below, above, kept, absent⟩ := of_decide_eq_true tested
  exact absent ((claim s reached arrived).2 (row 50) kept ⟨row 1, below, by decide⟩ ⟨row 103, above, by decide⟩)

end ScanApi.LogConsole
