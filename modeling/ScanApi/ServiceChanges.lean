import ScanApi.VisibleChanges

/-!
What the service changes of `computeChanges` say of the services that the dashboard
shows. A service is announced where it comes or goes; one that stays is not, even
when all of its methods become hidden or one is visible again.
-/
namespace ScanApi.ServiceChanges
open ScanApi.Diff ScanApi.VisibleChanges

/-- The service is in the snapshot and not all of its methods are hidden. -/
def Public (state : SnapshotState) (name : String) : Prop :=
  name ∈ state.1.keys ∧ serviceIsHidden ((state.2.filter (fun m => m.service = name)).map MethodRecord.hidden) = false

/-- A service change that is not hidden names the service. -/
def Announces (changes : List Change) (action : Action) (name : String) : Prop :=
  ∃ c ∈ changes, c.changeType = .service ∧ c.action = action ∧ c.hidden = false ∧ c.entityName = name

/-- The names in the service changes. -/
def serviceNames (changes : List Change) : List String :=
  (changes.filter (fun c => c.changeType = .service)).map Change.entityName

/-- Announced are the public services that are new, and those that were public and are gone. -/
structure ComeAndGone (prev new : SnapshotState) (changes : List Change) : Prop where
  added : ∀ name, Announces changes .added name ↔ Public new name ∧ name ∉ prev.1.keys
  removed : ∀ name, Announces changes .removed name ↔ Public prev name ∧ name ∉ new.1.keys
  /-- No service change is about a service of both snapshots, and none is told twice. -/
  others : ∀ name ∈ serviceNames changes, name ∉ prev.1.keys ∨ name ∉ new.1.keys
  once : (serviceNames changes).Nodup

section
variable {prev new : SnapshotState} {name : String}

theorem public_iff {state : SnapshotState} : Public state name ↔ name ∈ state.1.keys ∧ name ∉ hiddenServiceNames state.2 := by
  rw [Public, mem_hiddenServiceNames, Bool.not_eq_true]

/-- The service changes of two states. -/
def serviceChangesOf (prev new : SnapshotState) : List Change :=
  serviceChanges prev.1 new.1 (hiddenServiceNames prev.2) (hiddenServiceNames new.2)

/-- The change about one service. -/
def serviceChange (action : Action) (name url : String) (hidden : Finset String) : Change where
  changeType := .service
  action := action
  entityName := name
  entityPath := name
  url := url
  hidden := name ∈ hidden

theorem mem_serviceChangesOf {c : Change} : c ∈ serviceChangesOf prev new ↔
    (∃ n url, new.1.get? n = some url ∧ n ∉ prev.1.keys ∧ c = serviceChange .added n url (hiddenServiceNames new.2)) ∨
    (∃ n url, prev.1.get? n = some url ∧ n ∉ new.1.keys ∧ c = serviceChange .removed n url (hiddenServiceNames prev.2)) := by
  simp only [serviceChangesOf, serviceChanges, List.mem_append, List.mem_filterMap, mem_sorted, Finset.mem_sdiff,
    Option.map_eq_some_iff]
  constructor
  · rintro (⟨n, ⟨_, absent⟩, url, found, rfl⟩ | ⟨n, ⟨_, absent⟩, url, found, rfl⟩)
    · exact .inl ⟨n, url, found, absent, rfl⟩
    · exact .inr ⟨n, url, found, absent, rfl⟩
  · rintro (⟨n, url, found, absent, rfl⟩ | ⟨n, url, found, absent, rfl⟩)
    · exact .inl ⟨n, ⟨Dict.mem_keys.mpr ⟨url, found⟩, absent⟩, url, found, rfl⟩
    · exact .inr ⟨n, ⟨Dict.mem_keys.mpr ⟨url, found⟩, absent⟩, url, found, rfl⟩

/-- Only the first part of the list is about services. -/
theorem serviceChanges_computeChanges :
    (computeChanges (some prev) new.1 new.2).filter (fun c => c.changeType = .service) = serviceChangesOf prev new := by
  have own : (serviceChangesOf prev new).filter (fun c => c.changeType = .service) = serviceChangesOf prev new :=
    List.filter_eq_self.mpr (fun c member => decide_eq_true (serviceChanges_changeType member))
  have noServices : ∀ changes : List Change, (∀ c ∈ changes, c.changeType ≠ .service) →
      changes.filter (fun c => c.changeType = .service) = [] := by
    intro changes others
    exact List.filter_eq_nil_iff.mpr (fun c member same => others c member (of_decide_eq_true same))
  have methods := noServices (methodChanges (index prev.2) (index new.2)) (fun _ => methodChanges_not_service)
  have flips := noServices (flipChanges (index prev.2) (index new.2)) (fun _ => flipChanges_not_service)
  have fields := noServices (fieldChanges (index prev.2) (index new.2)) (fun _ => fieldChanges_not_service)
  rw [computeChanges, List.filter_append, List.filter_append, List.filter_append, methods, flips, fields,
    List.append_nil, List.append_nil, List.append_nil]
  exact own

theorem announces_iff {action : Action} : Announces (computeChanges (some prev) new.1 new.2) action name ↔
    ∃ c ∈ serviceChangesOf prev new, c.action = action ∧ c.hidden = false ∧ c.entityName = name := by
  rw [← serviceChanges_computeChanges]
  simp only [Announces, List.mem_filter, decide_eq_true_eq, and_assoc]

theorem announces_added : Announces (computeChanges (some prev) new.1 new.2) .added name ↔
    Public new name ∧ name ∉ prev.1.keys := by
  rw [announces_iff, public_iff]
  constructor
  · rintro ⟨c, member, isAdded, shown, named⟩
    rcases mem_serviceChangesOf.mp member with ⟨n, url, found, absent, rfl⟩ | ⟨n, url, found, absent, rfl⟩
    · subst named
      exact ⟨⟨Dict.mem_keys.mpr ⟨url, found⟩, of_decide_eq_false shown⟩, absent⟩
    · cases isAdded
  · rintro ⟨⟨inNew, shown⟩, absent⟩
    obtain ⟨url, found⟩ := Dict.mem_keys.mp inNew
    exact ⟨_, mem_serviceChangesOf.mpr (.inl ⟨name, url, found, absent, rfl⟩), rfl, decide_eq_false shown, rfl⟩

theorem announces_removed : Announces (computeChanges (some prev) new.1 new.2) .removed name ↔
    Public prev name ∧ name ∉ new.1.keys := by
  rw [announces_iff, public_iff]
  constructor
  · rintro ⟨c, member, isRemoved, shown, named⟩
    rcases mem_serviceChangesOf.mp member with ⟨n, url, found, absent, rfl⟩ | ⟨n, url, found, absent, rfl⟩
    · cases isRemoved
    · subst named
      exact ⟨⟨Dict.mem_keys.mpr ⟨url, found⟩, of_decide_eq_false shown⟩, absent⟩
  · rintro ⟨⟨inPrev, shown⟩, absent⟩
    obtain ⟨url, found⟩ := Dict.mem_keys.mp inPrev
    exact ⟨_, mem_serviceChangesOf.mpr (.inr ⟨name, url, found, absent, rfl⟩), rfl, decide_eq_false shown, rfl⟩

/-- Added services by name, then removed ones by name. -/
theorem serviceNames_eq : serviceNames (computeChanges (some prev) new.1 new.2) =
    sorted (new.1.keys \ prev.1.keys) ++ sorted (prev.1.keys \ new.1.keys) := by
  have named : ∀ (d : Dict String String) (s : Finset String) (change : String → String → Change), s ⊆ d.keys →
      (∀ n url, (change n url).entityName = n) →
      ((sorted s).filterMap (fun n => (d.get? n).map (change n))).map Change.entityName = sorted s := by
    intro d s change inside names
    rw [List.map_filterMap]
    have same : ∀ n ∈ sorted s, ((d.get? n).map (change n)).map Change.entityName = some n := by
      intro n member
      obtain ⟨url, found⟩ := Dict.mem_keys.mp (inside (mem_sorted.mp member))
      rw [found, Option.map_some, Option.map_some, names]
    rw [List.filterMap_congr same, List.filterMap_some]
  rw [serviceNames, serviceChanges_computeChanges, serviceChangesOf, serviceChanges, List.map_append,
    named new.1 _ _ Finset.sdiff_subset (fun _ _ => rfl), named prev.1 _ _ Finset.sdiff_subset (fun _ _ => rfl)]

end

/-- The public service changes of two states name exactly what has come and gone. -/
theorem service_changes_exact (prev new : SnapshotState) :
    ComeAndGone prev new (computeChanges (some prev) new.1 new.2) where
  added _ := announces_added
  removed _ := announces_removed
  others name member := by
    rw [serviceNames_eq, List.mem_append, mem_sorted, mem_sorted, Finset.mem_sdiff, Finset.mem_sdiff] at member
    exact member.imp And.right And.right
  once := by
    rw [serviceNames_eq]
    refine List.nodup_append.mpr ⟨sorted_nodup _, sorted_nodup _, fun n added n' removed same => ?_⟩
    subst same
    exact (Finset.mem_sdiff.mp (mem_sorted.mp added)).2 (Finset.mem_sdiff.mp (mem_sorted.mp removed)).1

/-! ### Services that stay -/

/-- The public service changes follow the dashboard. -/
def FollowsDashboard (prev new : SnapshotState) (changes : List Change) : Prop :=
  (∀ name, Announces changes .added name ↔ Public new name ∧ ¬ Public prev name) ∧
    ∀ name, Announces changes .removed name ↔ Public prev name ∧ ¬ Public new name

/-- They do so exactly when no service that stays appears on the dashboard or leaves it. -/
theorem followsDashboard_iff (prev new : SnapshotState) :
    FollowsDashboard prev new (computeChanges (some prev) new.1 new.2) ↔
      ∀ name, name ∈ prev.1.keys → name ∈ new.1.keys → (Public prev name ↔ Public new name) := by
  simp only [FollowsDashboard, announces_added, announces_removed]
  constructor
  · rintro ⟨come, gone⟩ name inPrev inNew
    constructor
    · intro before
      by_contra now
      exact ((gone name).mpr ⟨before, now⟩).2 inNew
    · intro now
      by_contra before
      exact ((come name).mpr ⟨now, before⟩).2 inPrev
  · intro kept
    constructor
    · intro name
      constructor
      · rintro ⟨now, absent⟩; exact ⟨now, fun before => absent before.1⟩
      · rintro ⟨now, hidden⟩; exact ⟨now, fun inPrev => hidden ((kept name inPrev now.1).mpr now)⟩
    · intro name
      constructor
      · rintro ⟨before, absent⟩; exact ⟨before, fun now => absent now.1⟩
      · rintro ⟨before, hidden⟩; exact ⟨before, fun inNew => hidden ((kept name before.1 inNew).mp before)⟩

/-- A service with one method. -/
def oneService (hidden : Bool) : SnapshotState :=
  (Dict.ofEntries [("Accounts", "/portal")], [
    { service := "Accounts", httpMethod := "GET", path := "/accounts", name := "list", url := "", fields := ∅, hidden }])

/-- The only method becomes hidden: the service leaves the dashboard and is not told removed. -/
theorem hidden_service_not_removed : ¬ FollowsDashboard (oneService false) (oneService true)
    (computeChanges (some (oneService false)) (oneService true).1 (oneService true).2) := by
  rintro ⟨-, removed⟩
  have before : Public (oneService false) "Accounts" := ⟨by decide, by decide⟩
  have now : ¬ Public (oneService true) "Accounts" := fun shown => absurd shown.2 (by decide)
  have told := (removed "Accounts").mpr ⟨before, now⟩
  exact (announces_removed.mp told).2 (by decide)

end ScanApi.ServiceChanges
