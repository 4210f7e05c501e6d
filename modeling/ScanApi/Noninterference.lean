import ScanApi.PublicQueries
import ScanApi.VisibleChanges

/-!
What hidden methods can change of what is public. Two snapshots with the same
public part (`publicServices`) are imported into the same database. What the
caller is told and what the public queries answer is the same exactly when the
snapshots agree on four things that hidden methods take part in (`HiddenAgree`):
the links of the public services, which services that were public are still
there, which keys have a visible first method, and the order of the lost keys.
-/
namespace ScanApi.Noninterference
open ScanApi.Diff ScanApi.Database ScanApi.Repository ScanApi.SnapshotImport ScanApi.ImportEffect ScanApi.Stored
  ScanApi.ImportStep ScanApi.ReadBack ScanApi.ImportRuns ScanApi.VisibleChanges ScanApi.PublicQueries

/-! ### The public part of a parsed snapshot -/

def isPublic (e : String × List ApiMethod) : Bool := !serviceIsHidden (e.2.map ApiMethod.hidden)

/-- The services with a visible method or with none at all, with their visible
    methods. -/
def publicServices (snapshot : ParseSnapshot) : List (String × List ApiMethod) :=
  (snapshot.services.entries.filter isPublic).map (fun e => (e.1, e.2.filter (fun m => !m.hidden)))

/-- The links under which the public services are stored. -/
def publicLinks (snapshot : ParseSnapshot) : List (String × String) :=
  (snapshot.services.entries.filter isPublic).map (fun e => (e.1, serviceUrl e.2))

/-- The first method of the key, if it is visible. -/
def firstShown (methods : List MethodRecord) (k : String) : Option MethodRecord :=
  ((index methods).get? k).filter (fun m => !m.hidden)

/-- Keys shown before that the new methods do not have at all. -/
def lostAbsent (prev new : List MethodRecord) : Finset String :=
  (index prev).keys.filter (fun k => k ∉ (index new).keys ∧ (firstShown prev k).isSome)

/-- Keys on both sides that are shown on one of them. -/
def turned (prev new : List MethodRecord) : Finset String :=
  ((index new).keys ∩ (index prev).keys).filter (fun k => (firstShown prev k).isSome ≠ (firstShown new k).isSome)

/-- The keys whose showing ends or begins again, in the order of their changes. -/
def lostOrder (prev new : List MethodRecord) : List String := sorted (lostAbsent prev new) ++ sorted (turned prev new)

/-- The methods of a parsed snapshot as the diff sees them. -/
abbrev methodsIn (snapshot : ParseSnapshot) : List MethodRecord := (snapshotToRecords snapshot).2

/-- What the hidden methods of two snapshots have to agree on. -/
structure HiddenAgree (previous : Option SnapshotState) (snapshot snapshot' : ParseSnapshot) : Prop where
  links : publicLinks snapshot = publicLinks snapshot'
  services : ∀ prev ∈ previous, ∀ name ∈ prev.1.keys, name ∉ hiddenServiceNames prev.2 →
    (name ∈ snapshot.services.keys ↔ name ∈ snapshot'.services.keys)
  firsts : ∀ prev ∈ previous, ∀ k, FirstVisible (methodsIn snapshot) k ↔ FirstVisible (methodsIn snapshot') k
  order : ∀ prev ∈ previous, lostOrder prev.2 (methodsIn snapshot) = lostOrder prev.2 (methodsIn snapshot')

/-! ### Lookups in the public part -/

/-- The methods of a service among all methods of the snapshot. -/
theorem methodsIn_service (snapshot : ParseSnapshot) (name : String) :
    (methodsIn snapshot).filter (fun m => m.service = name) =
      ((snapshot.services.get? name).getD []).map (methodRecord name) := by
  have blocks : ∀ e : String × List ApiMethod, (e.2.map (methodRecord e.1)).filter (fun m => m.service = name) =
      if e.1 = name then e.2.map (methodRecord name) else [] := by
    intro e
    by_cases own : e.1 = name
    · simp [own, methodRecord]
    · simp [own, methodRecord]
  have entries := Dict.filter_entries snapshot.services name
  simp only [methodsIn, snapshotToRecords, List.filter_flatMap, blocks, flatMap_ite, entries]
  cases snapshot.services.get? name <;> simp

theorem hidden_service {snapshot : ParseSnapshot} {name : String} {methods : List ApiMethod}
    (found : snapshot.services.get? name = some methods) : name ∈ hiddenServiceNames (methodsIn snapshot) ↔
      serviceIsHidden (methods.map ApiMethod.hidden) = true := by
  rw [mem_hiddenServiceNames, methodsIn_service, found, Option.getD_some, List.map_map]
  rfl

theorem services_get? (snapshot : ParseSnapshot) (name : String) :
    (snapshotToRecords snapshot).1.get? name = (snapshot.services.get? name).map serviceUrl :=
  Dict.get?_mapValues snapshot.services (fun _ methods => serviceUrl methods) name

/-- A public service has its link there. -/
theorem mem_publicLinks {snapshot : ParseSnapshot} {name url : String} : (name, url) ∈ publicLinks snapshot ↔
    (snapshotToRecords snapshot).1.get? name = some url ∧ name ∉ hiddenServiceNames (methodsIn snapshot) := by
  simp only [publicLinks, List.mem_map, List.mem_filter, services_get?, Option.map_eq_some_iff, Prod.mk.injEq]
  constructor
  · rintro ⟨e, ⟨member, isPublicEntry⟩, rfl, rfl⟩
    have found := Dict.get?_eq_some.mpr member
    refine ⟨⟨e.2, found, rfl⟩, ?_⟩
    rw [hidden_service found]
    simpa [isPublic] using isPublicEntry
  · rintro ⟨⟨methods, found, rfl⟩, shown⟩
    rw [hidden_service found] at shown
    exact ⟨(name, methods), ⟨Dict.get?_eq_some.mp found, by simpa [isPublic] using shown⟩, rfl, rfl⟩

/-- The visible methods are those of the public part, in its order. -/
theorem visible_methodsIn (snapshot : ParseSnapshot) : (methodsIn snapshot).filter (fun m => !m.hidden) =
    (publicServices snapshot).flatMap (fun e => e.2.map (methodRecord e.1)) := by
  have blocks : ∀ e : String × List ApiMethod, (e.2.map (methodRecord e.1)).filter (fun m => !m.hidden) =
      (e.2.filter (fun m => !m.hidden)).map (methodRecord e.1) := by
    intro e
    rw [List.filter_map]; rfl
  have none : ∀ e : String × List ApiMethod, isPublic e = false → e.2.filter (fun m => !m.hidden) = [] := by
    intro e notPublic
    simp only [isPublic, serviceIsHidden, Bool.not_eq_false', Bool.and_eq_true, List.all_eq_true, List.mem_map] at notPublic
    rw [List.filter_eq_nil_iff]
    intro m member shown
    have isHidden : m.hidden = true := notPublic.2 m.hidden ⟨m, member, rfl⟩
    simp [isHidden] at shown
  have kept : snapshot.services.entries.filter isPublic = snapshot.services.entries.filter (fun e => isPublic e = true) :=
    List.filter_congr (fun e _ => by simp)
  simp only [methodsIn, snapshotToRecords, publicServices, List.filter_flatMap, List.flatMap_map, blocks]
  rw [kept, ← flatMap_ite]
  apply List.flatMap_congr
  intro e _
  cases shown : isPublic e with
  | true => simp
  | false => simp [none e shown]

/-! ### First methods -/

theorem firstVisible_iff {methods : List MethodRecord} {k : String} :
    FirstVisible methods k ↔ (firstShown methods k).isSome = true := by
  rw [FirstVisible, firstShown]
  cases (index methods).get? k with
  | none => simp
  | some m => cases shown : m.hidden <;> simp [shown]

/-- A first method that is visible is the first of the visible ones. -/
theorem firstShown_eq {methods : List MethodRecord} {k : String} {m : MethodRecord}
    (found : firstShown methods k = some m) :
    (methods.filter (fun m => !m.hidden)).find? (fun m => methodKey m = k) = some m := by
  obtain ⟨first, shown⟩ := Option.filter_eq_some_iff.mp found
  rw [index_get?] at first
  rw [List.find?_filter]
  obtain ⟨key, before, after, split, others⟩ := List.find?_eq_some_iff_append.mp first
  rw [List.find?_eq_some_iff_append]
  refine ⟨by simp [shown, of_decide_eq_true key], before, after, split, fun a inside => ?_⟩
  have other := others a inside
  simp only [Bool.not_eq_true', decide_eq_false_iff_not] at other
  simp [other]

section
variable {snapshot snapshot' : ParseSnapshot}

/-- Snapshots with the same public part show the same methods first for keys that
    both of them show. -/
theorem firstShown_same (same : publicServices snapshot = publicServices snapshot')
    (firsts : ∀ k, FirstVisible (methodsIn snapshot) k ↔ FirstVisible (methodsIn snapshot') k) (k : String) :
    firstShown (methodsIn snapshot) k = firstShown (methodsIn snapshot') k := by
  have agree := firsts k
  rw [firstVisible_iff, firstVisible_iff] at agree
  cases found : firstShown (methodsIn snapshot) k with
  | none =>
    cases found' : firstShown (methodsIn snapshot') k with
    | none => rfl
    | some m' => simp [found, found'] at agree
  | some m =>
    cases found' : firstShown (methodsIn snapshot') k with
    | none => simp [found, found'] at agree
    | some m' =>
      have first := firstShown_eq found
      have first' := firstShown_eq found'
      rw [visible_methodsIn, ← same, ← visible_methodsIn, first] at first'
      exact first'

end

/-! ### The public changes, part by part -/

/-- The changes that the caller gets. -/
def publicChanges (changes : List Change) : List Change := changes.filter (fun c => !c.hidden)

def serviceChange (action : Action) (name url : String) : Change where
  changeType := .service
  action
  entityName := name
  entityPath := name
  url

/-- The change of a key that is shown on one side only. -/
def turn (prev new : List MethodRecord) (k : String) : Option Change :=
  match firstShown prev k, firstShown new k with
  | some o, none => some (methodChange .removed o false)
  | none, some n => some (methodChange .added n false)
  | _, _ => none

/-- The link of a service unless it is hidden. -/
def shownLink (services : Dict String String) (methods : List MethodRecord) (name : String) : Option String :=
  if name ∈ hiddenServiceNames methods then none else services.get? name

def addedServices (prev : SnapshotState) (services : Dict String String) (new : List MethodRecord) : List Change :=
  (sorted (services.keys \ prev.1.keys)).filterMap (fun n => (shownLink services new n).map (serviceChange .added n))

def removedServices (prev : SnapshotState) (services : Dict String String) : List Change :=
  (sorted (prev.1.keys \ services.keys)).filterMap (fun n => (shownLink prev.1 prev.2 n).map (serviceChange .removed n))

def addedMethods (prev new : List MethodRecord) : List Change :=
  (sorted ((index new).keys \ (index prev).keys)).filterMap (fun k =>
    (firstShown new k).map (fun m => methodChange .added m false))

def changedFields (prev new : List MethodRecord) : List Change :=
  (sorted ((index new).keys ∩ (index prev).keys)).filterMap (fun k =>
    (firstShown prev k).bind (fun o => (firstShown new k).bind (fun n => fieldChange o n)))

theorem firstShown_absent {methods : List MethodRecord} {k : String} (absent : k ∉ (index methods).keys) :
    firstShown methods k = none := by
  rw [firstShown, Dict.get?_eq_none.mpr absent]; rfl

theorem firstShown_get? {methods : List MethodRecord} {k : String} {m : MethodRecord}
    (found : (index methods).get? k = some m) : firstShown methods k = if m.hidden then none else some m := by
  rw [firstShown, found]
  cases shown : m.hidden <;> simp [shown]

theorem public_serviceChanges (prev : SnapshotState) (services : Dict String String) (new : List MethodRecord) :
    publicChanges (serviceChanges prev.1 services (hiddenServiceNames prev.2) (hiddenServiceNames new)) =
      addedServices prev services new ++ removedServices prev services := by
  have one : ∀ (d : Dict String String) (hiddenNames : Finset String) (action : Action) (n : String),
      ((d.get? n).map (fun url => Change.mk .service action n n url "" "" (n ∈ hiddenNames))).filter
        (fun c => !c.hidden) =
          (if n ∈ hiddenNames then none else d.get? n).map (serviceChange action n) := by
    intro d hiddenNames action n
    by_cases isHidden : n ∈ hiddenNames
    · cases d.get? n <;> simp [isHidden]
    · cases d.get? n <;> simp [isHidden, serviceChange]
  simp only [publicChanges, serviceChanges, List.filter_append, List.filter_filterMap, one]
  rfl

/-- The keys that are lost without being in the new methods. -/
theorem public_removedMethods (prev new : List MethodRecord) :
    (sorted ((index prev).keys \ (index new).keys)).filterMap (fun k =>
      (firstShown prev k).map (fun m => methodChange .removed m false)) =
        (sorted (lostAbsent prev new)).filterMap (turn prev new) := by
  apply filterMap_sorted_congr
  intro k
  by_cases inNew : k ∈ (index new).keys
  · simp [inNew, lostAbsent]
  · cases shown : firstShown prev k with
    | none => simp [shown, lostAbsent]
    | some o =>
      have inPrev : k ∈ (index prev).keys := by
        by_contra absent
        rw [firstShown_absent absent] at shown; cases shown
      simp [inPrev, inNew, shown, lostAbsent, turn, firstShown_absent inNew]

theorem public_methodChanges (prev new : List MethodRecord) :
    publicChanges (methodChanges (index prev) (index new)) =
      addedMethods prev new ++ (sorted (lostAbsent prev new)).filterMap (turn prev new) := by
  have one : ∀ (methods : List MethodRecord) (action : Action) (k : String),
      (((index methods).get? k).map (fun m => methodChange action m m.hidden)).filter (fun c => !c.hidden) =
        (firstShown methods k).map (fun m => methodChange action m false) := by
    intro methods action k
    cases found : (index methods).get? k with
    | none => simp [firstShown, found]
    | some m => cases shown : m.hidden <;> simp [firstShown_get? found, shown]
  rw [← public_removedMethods]
  simp only [publicChanges, methodChanges, onlyIn, List.filter_append, List.map_filterMap, List.filter_filterMap, one]
  rfl

theorem public_flipChanges (prev new : List MethodRecord) :
    publicChanges (flipChanges (index prev) (index new)) = (sorted (turned prev new)).filterMap (turn prev new) := by
  simp only [publicChanges, flipChanges, common, List.filterMap_filterMap, List.filter_filterMap]
  apply filterMap_sorted_congr
  intro k
  by_cases both : k ∈ (index new).keys ∩ (index prev).keys
  · obtain ⟨inNew, inPrev⟩ := Finset.mem_inter.mp both
    obtain ⟨n, newFound⟩ := Dict.mem_keys.mp inNew
    obtain ⟨o, oldFound⟩ := Dict.mem_keys.mp inPrev
    have oldShown := firstShown_get? oldFound
    have newShown := firstShown_get? newFound
    cases oldFlag : o.hidden <;> cases newFlag : n.hidden <;>
      simp [both, turned, turn, oldFound, newFound, oldShown, newShown, oldFlag, newFlag, flipChange]
  · simp [both, turned]

theorem public_fieldChanges (prev new : List MethodRecord) :
    publicChanges (fieldChanges (index prev) (index new)) = changedFields prev new := by
  simp only [publicChanges, fieldChanges, common, List.filterMap_filterMap, List.filter_filterMap]
  apply List.filterMap_congr
  intro k both
  obtain ⟨inNew, inPrev⟩ := Finset.mem_inter.mp (mem_sorted.mp both)
  obtain ⟨n, newFound⟩ := Dict.mem_keys.mp inNew
  obtain ⟨o, oldFound⟩ := Dict.mem_keys.mp inPrev
  have oldShown := firstShown_get? oldFound
  have newShown := firstShown_get? newFound
  have flag : ∀ c, fieldChange o n = some c → c.hidden = n.hidden := fun c changed => (fieldChange_some changed).2.2.1
  cases oldFlag : o.hidden <;> cases newFlag : n.hidden <;> cases changed : fieldChange o n <;>
    simp_all [keptFieldChange]

/-- What the caller is told. -/
theorem public_computeChanges (prev : SnapshotState) (services : Dict String String) (new : List MethodRecord) :
    publicChanges (computeChanges (some prev) services new) =
      (addedServices prev services new ++ removedServices prev services) ++ addedMethods prev.2 new ++
        (lostOrder prev.2 new).filterMap (turn prev.2 new) ++ changedFields prev.2 new := by
  have split : ∀ a b c d : List Change, publicChanges (a ++ b ++ c ++ d) =
      publicChanges a ++ publicChanges b ++ publicChanges c ++ publicChanges d := by
    intro a b c d; simp [publicChanges]
  rw [computeChanges, split, public_serviceChanges, public_methodChanges, public_flipChanges, public_fieldChanges,
    lostOrder, List.filterMap_append]
  simp only [List.append_assoc]

/-! ### When the caller is told the same -/

theorem turn_entityName {prev new : List MethodRecord} {k : String} {c : Change} (turned : turn prev new k = some c) :
    c.entityName = k := by
  have key : ∀ {methods : List MethodRecord} {m : MethodRecord}, firstShown methods k = some m → methodKey m = k := by
    intro methods m shown
    exact (index_some (Option.filter_eq_some_iff.mp shown).1).2
  unfold turn at turned
  split at turned
  · rename_i o oldShown _; cases turned; exact key oldShown
  · rename_i n _ newShown; cases turned; exact key newShown
  · cases turned

/-- Every key in the order has its change. -/
theorem lostOrder_names (prev new : List MethodRecord) :
    ((lostOrder prev new).filterMap (turn prev new)).map Change.entityName = lostOrder prev new := by
  have named : ∀ k ∈ lostOrder prev new, (turn prev new k).map Change.entityName = some k := by
    intro k member
    have some : ∃ c, turn prev new k = some c := by
      rcases List.mem_append.mp member with lost | both
      · obtain ⟨_, absent, shown⟩ := Finset.mem_filter.mp (mem_sorted.mp lost)
        obtain ⟨o, oldShown⟩ := Option.isSome_iff_exists.mp shown
        exact ⟨methodChange .removed o false, by rw [turn, oldShown, firstShown_absent absent]⟩
      · obtain ⟨_, differ⟩ := Finset.mem_filter.mp (mem_sorted.mp both)
        cases oldShown : firstShown prev k <;> cases newShown : firstShown new k <;>
          simp_all [turn]
    obtain ⟨c, found⟩ := some
    rw [found, Option.map_some, turn_entityName found]
  rw [List.map_filterMap, List.filterMap_congr named, List.filterMap_some]

theorem public_reports {changes : List Change} {action : Action} {k : String} :
    Reports (publicChanges changes) action k ↔ Reports changes action k := by
  simp only [Reports, publicChanges, List.mem_filter, Bool.not_eq_true']
  constructor
  · rintro ⟨c, ⟨member, _⟩, rest⟩; exact ⟨c, member, rest⟩
  · rintro ⟨c, member, isMethod, isAction, shown, name⟩; exact ⟨c, ⟨member, shown⟩, isMethod, isAction, shown, name⟩

/-- A public service is told removed when the new snapshot does not have it. -/
theorem public_service_removed {prev : SnapshotState} {services : Dict String String} {new : List MethodRecord}
    {name : String} : (∃ c ∈ publicChanges (computeChanges (some prev) services new), c.changeType = .service ∧
      c.action = .removed ∧ c.entityName = name) ↔
        name ∈ prev.1.keys ∧ name ∉ services.keys ∧ name ∉ hiddenServiceNames prev.2 := by
  constructor
  · rintro ⟨c, member, isService, isRemoved, rfl⟩
    obtain ⟨inside, shown⟩ := List.mem_filter.mp member
    rcases mem_computeChanges.mp inside with inService | inMethod | inFlip | inField
    · simp only [serviceChanges, List.mem_append, List.mem_filterMap, Option.map_eq_some_iff] at inService
      rcases inService with ⟨n, _, url, _, rfl⟩ | ⟨n, keys, url, _, rfl⟩
      · cases isRemoved
      · obtain ⟨inPrev, absent⟩ := Finset.mem_sdiff.mp (mem_sorted.mp keys)
        exact ⟨inPrev, absent, by simpa using shown⟩
    · rcases mem_methodChanges.mp inMethod with ⟨_, _, _, _, rfl⟩ | ⟨_, _, _, _, rfl⟩ <;> cases isService
    · obtain ⟨_, o, n, _, _, flip⟩ := mem_flipChanges.mp inFlip
      rcases flipChange_some flip with ⟨_, _, rfl⟩ | ⟨_, _, rfl⟩ <;> cases isService
    · obtain ⟨_, _, _, _, _, _, changed⟩ := mem_fieldChanges.mp inField
      rw [(fieldChange_some changed).1] at isService; cases isService
  · rintro ⟨inPrev, absent, shown⟩
    obtain ⟨url, found⟩ := Dict.mem_keys.mp inPrev
    refine ⟨serviceChange .removed name url, ?_, rfl, rfl, rfl⟩
    rw [public_computeChanges]
    simp only [List.mem_append, removedServices, List.mem_filterMap, mem_sorted, Finset.mem_sdiff]
    exact .inl (.inl (.inl (.inr ⟨name, ⟨inPrev, absent⟩, by simp [shownLink, shown, found]⟩)))

section
variable {prev : SnapshotState} {snapshot snapshot' : ParseSnapshot}

theorem services_keys (snapshot : ParseSnapshot) : (snapshotToRecords snapshot).1.keys = snapshot.services.keys :=
  Dict.keys_mapValues snapshot.services (fun _ methods => serviceUrl methods)

theorem shownLink_same (links : publicLinks snapshot = publicLinks snapshot') (name : String) :
    shownLink (snapshotToRecords snapshot).1 (methodsIn snapshot) name =
      shownLink (snapshotToRecords snapshot').1 (methodsIn snapshot') name := by
  have found : ∀ (snapshot : ParseSnapshot) url,
      shownLink (snapshotToRecords snapshot).1 (methodsIn snapshot) name = some url ↔
        (name, url) ∈ publicLinks snapshot := by
    intro snapshot url
    rw [mem_publicLinks, shownLink]
    by_cases isHidden : name ∈ hiddenServiceNames (methodsIn snapshot)
    · simp [isHidden]
    · simp [isHidden]
  apply Option.ext
  intro url
  rw [found, found, links]

/-- Added services come with their links. -/
theorem addedServices_same (links : publicLinks snapshot = publicLinks snapshot') :
    addedServices prev (snapshotToRecords snapshot).1 (methodsIn snapshot) =
      addedServices prev (snapshotToRecords snapshot').1 (methodsIn snapshot') := by
  apply filterMap_sorted_congr
  intro n
  have absent : ∀ snapshot : ParseSnapshot, n ∉ (snapshotToRecords snapshot).1.keys →
      shownLink (snapshotToRecords snapshot).1 (methodsIn snapshot) n = none := by
    intro snapshot outside
    rw [shownLink, Dict.get?_eq_none.mpr outside, ite_self]
  have whole : ∀ snapshot : ParseSnapshot, (if n ∈ (snapshotToRecords snapshot).1.keys \ prev.1.keys then
      (shownLink (snapshotToRecords snapshot).1 (methodsIn snapshot) n).map (serviceChange .added n) else none) =
        if n ∈ prev.1.keys then none
        else (shownLink (snapshotToRecords snapshot).1 (methodsIn snapshot) n).map (serviceChange .added n) := by
    intro snapshot
    by_cases old : n ∈ prev.1.keys
    · simp [old]
    · by_cases inside : n ∈ (snapshotToRecords snapshot).1.keys
      · simp [old, inside]
      · simp [inside, absent snapshot inside]
  rw [whole, whole, shownLink_same links]

theorem removedServices_same (services : ∀ name ∈ prev.1.keys, name ∉ hiddenServiceNames prev.2 →
    (name ∈ snapshot.services.keys ↔ name ∈ snapshot'.services.keys)) :
    removedServices prev (snapshotToRecords snapshot).1 = removedServices prev (snapshotToRecords snapshot').1 := by
  apply filterMap_sorted_congr
  intro n
  simp only [Finset.mem_sdiff, services_keys]
  by_cases inPrev : n ∈ prev.1.keys
  · by_cases isHidden : n ∈ hiddenServiceNames prev.2
    · simp [shownLink, isHidden]
    · simp only [inPrev, services n inPrev isHidden]
  · simp [inPrev]

theorem addedMethods_same (shown : ∀ k, firstShown (methodsIn snapshot) k = firstShown (methodsIn snapshot') k) :
    addedMethods prev.2 (methodsIn snapshot) = addedMethods prev.2 (methodsIn snapshot') := by
  apply filterMap_sorted_congr
  intro k
  have whole : ∀ snapshot : ParseSnapshot, (if k ∈ (index (methodsIn snapshot)).keys \ (index prev.2).keys then
      (firstShown (methodsIn snapshot) k).map (fun m => methodChange .added m false) else none) =
        if k ∈ (index prev.2).keys then none
        else (firstShown (methodsIn snapshot) k).map (fun m => methodChange .added m false) := by
    intro snapshot
    by_cases old : k ∈ (index prev.2).keys
    · simp [old]
    · by_cases inside : k ∈ (index (methodsIn snapshot)).keys
      · simp [old, inside]
      · simp [inside, firstShown_absent inside]
  rw [whole, whole, shown]

theorem changedFields_same (shown : ∀ k, firstShown (methodsIn snapshot) k = firstShown (methodsIn snapshot') k) :
    changedFields prev.2 (methodsIn snapshot) = changedFields prev.2 (methodsIn snapshot') := by
  apply filterMap_sorted_congr
  intro k
  have whole : ∀ snapshot : ParseSnapshot, (if k ∈ (index (methodsIn snapshot)).keys ∩ (index prev.2).keys then
      (firstShown prev.2 k).bind (fun o => (firstShown (methodsIn snapshot) k).bind (fun n => fieldChange o n)) else none) =
        (firstShown prev.2 k).bind (fun o => (firstShown (methodsIn snapshot) k).bind (fun n => fieldChange o n)) := by
    intro snapshot
    by_cases inside : k ∈ (index (methodsIn snapshot)).keys
    · by_cases old : k ∈ (index prev.2).keys
      · simp [inside, old]
      · simp [old, firstShown_absent old]
    · simp [inside, firstShown_absent inside]
  rw [whole, whole, shown]

theorem turn_same (shown : ∀ k, firstShown (methodsIn snapshot) k = firstShown (methodsIn snapshot') k) (k : String) :
    turn prev.2 (methodsIn snapshot) k = turn prev.2 (methodsIn snapshot') k := by
  rw [turn, turn, shown]

/-- With the same links, the caller is told the same exactly when the hidden
    methods agree. -/
theorem public_computeChanges_iff (same : publicServices snapshot = publicServices snapshot')
    (links : publicLinks snapshot = publicLinks snapshot') :
    publicChanges (computeChanges (some prev) (snapshotToRecords snapshot).1 (methodsIn snapshot)) =
      publicChanges (computeChanges (some prev) (snapshotToRecords snapshot').1 (methodsIn snapshot')) ↔
    HiddenAgree (some prev) snapshot snapshot' := by
  constructor
  · intro told
    have services : ∀ name ∈ prev.1.keys, name ∉ hiddenServiceNames prev.2 →
        (name ∈ snapshot.services.keys ↔ name ∈ snapshot'.services.keys) := by
      intro name inPrev shown
      have gone := @public_service_removed prev (snapshotToRecords snapshot).1 (methodsIn snapshot) name
      have gone' := @public_service_removed prev (snapshotToRecords snapshot').1 (methodsIn snapshot') name
      rw [told, gone'] at gone
      simp only [inPrev, shown, services_keys, true_and, not_false_eq_true, and_true] at gone
      exact not_iff_not.mp gone.symm
    have firsts : ∀ k, FirstVisible (methodsIn snapshot) k ↔ FirstVisible (methodsIn snapshot') k := by
      intro k
      have reported : ∀ action, Reports (computeChanges (some prev) (snapshotToRecords snapshot).1 (methodsIn snapshot))
          action k ↔ Reports (computeChanges (some prev) (snapshotToRecords snapshot').1 (methodsIn snapshot')) action k := by
        intro action
        rw [← public_reports, told, public_reports]
      have added := reported .added
      have removed := reported .removed
      rw [change_added_iff, change_added_iff] at added
      rw [change_removed_iff, change_removed_iff] at removed
      tauto
    have shown := firstShown_same same firsts
    have parts := told
    rw [public_computeChanges, public_computeChanges, addedServices_same links, removedServices_same services,
      addedMethods_same shown, changedFields_same shown, List.append_left_inj, List.append_right_inj] at parts
    have names := congrArg (List.map Change.entityName) parts
    rw [lostOrder_names, lostOrder_names] at names
    refine ⟨links, ?_, ?_, ?_⟩
    · rintro _ ⟨⟩; exact services
    · rintro _ ⟨⟩; exact firsts
    · rintro _ ⟨⟩; exact names
  · intro agree
    have shown := firstShown_same same (agree.firsts prev rfl)
    rw [public_computeChanges, public_computeChanges, addedServices_same links,
      removedServices_same (agree.services prev rfl), addedMethods_same shown, changedFields_same shown,
      agree.order prev rfl]
    congr 2
    exact List.filterMap_congr (fun k _ => turn_same shown k)

end

/-! ### What is stored -/

/-- A public service as it is stored, without its hidden methods. -/
def publicContent (name url : String) (methods : List ApiMethod) : StoredService where
  name
  url := some url
  hidden := false
  methods := methods.map methodContent

theorem visiblePart_content (snapshot : ParseSnapshot) : visiblePart (content snapshot) =
    (publicLinks snapshot).zipWith (fun link e => publicContent link.1 link.2 e.2) (publicServices snapshot) := by
  rw [publicLinks, publicServices, List.zipWith_map, List.zipWith_self, visiblePart, content, List.filter_map,
    List.map_map]
  have kept : snapshot.services.entries.filter ((fun s => !s.hidden) ∘ serviceContent) =
      snapshot.services.entries.filter isPublic := rfl
  rw [kept]
  apply List.map_congr_left
  intro e inside
  have shown : serviceIsHidden (e.2.map ApiMethod.hidden) = false := by
    simpa [isPublic] using (List.mem_filter.mp inside).2
  simp only [Function.comp_apply, visibleService, serviceContent, shown, publicContent, visibleMethods, List.filter_map]
  rfl

theorem visiblePart_links (snapshot : ParseSnapshot) :
    (visiblePart (content snapshot)).map (fun s => (s.name, s.url)) =
      (publicLinks snapshot).map (fun l => (l.1, some l.2)) := by
  rw [visiblePart, content, List.filter_map, List.map_map, List.map_map, publicLinks, List.map_map]
  rfl

theorem links_names (snapshot : ParseSnapshot) :
    (publicLinks snapshot).map Prod.fst = (publicServices snapshot).map Prod.fst := by
  rw [publicLinks, publicServices, List.map_map, List.map_map]
  rfl

theorem links_distinct (snapshot : ParseSnapshot) : ((publicLinks snapshot).map Prod.fst).Nodup := by
  rw [publicLinks, List.map_map]
  exact snapshot.services.distinct.sublist (List.filter_sublist.map Prod.fst)

/-- Permuted pairs with the same names in the same order are equal. -/
theorem eq_of_perm_of_names {α β : Type} : ∀ {l l' : List (α × β)}, l.Perm l' → l.map Prod.fst = l'.map Prod.fst →
    (l.map Prod.fst).Nodup → l = l' := by
  intro l
  induction l with
  | nil => intro l' perm _ _; exact (List.nil_perm.mp perm).symm
  | cons a rest ih =>
    intro l' perm names distinct
    cases l' with
    | nil => cases names
    | cons b rest' =>
      obtain ⟨sameName, restNames⟩ := List.cons_eq_cons.mp names
      have split : a.1 ∉ rest.map Prod.fst ∧ (rest.map Prod.fst).Nodup := List.nodup_cons.mp distinct
      have same : a = b := by
        rcases List.mem_cons.mp (perm.mem_iff.mp List.mem_cons_self) with same | later
        · exact same
        · refine absurd (List.mem_map_of_mem (f := Prod.fst) later) ?_
          rw [← restNames]; exact split.1
      subst same
      rw [ih (List.Perm.cons_inv perm) restNames split.2]

/-! ### Two imports into the same database -/

/-- Two calls that differ in their snapshots at most, and in what decides only
    whether they return. -/
structure SameCall (c c' : ImportCall) : Prop where
  bank : c.bank = c'.bank
  order : c.order = c'.order
  keep : c.keep = c'.keep
  now : c.now = c'.now

theorem applied_snapshots {c : ImportCall} {db : Db} : (c.applied db).snapshots =
    (c.stored db).snapshots.filter (fun r => r.id ∉ c.oldIds (c.stored db)) := rfl

theorem applied_snapshots_same {c c' : ImportCall} {db : Db} (consistent : Consistent db) (same : SameCall c c') :
    (c.applied db).snapshots = (c'.applied db).snapshots := by
  have rows : (c.stored db).snapshots = (c'.stored db).snapshots := by
    rw [(stored_adds consistent).2.2.1, (stored_adds consistent).2.2.1, same.bank, same.now]
  have old : c.oldIds (c.stored db) = c'.oldIds (c'.stored db) := by
    simp only [ImportCall.oldIds, snapshotsForCleanup, rows, same.bank, same.keep]
  rw [applied_snapshots, applied_snapshots, rows, old]

/-- What a snapshot row that is left refers to. -/
theorem applied_services {c : ImportCall} {db : Db} (consistent : Consistent db) {r : SnapshotRow}
    (inside : r ∈ (c.applied db).snapshots) : servicesOf (c.applied db) r.id =
      if r.id = db.sequences.snapshots then content c.snapshot else servicesOf db r.id := by
  obtain ⟨sound, _, _, _, services⟩ := @stored_adds c db consistent
  have kept : r.id ∉ c.oldIds (c.stored db) := of_decide_eq_true (List.mem_filter.mp inside).2
  rw [ImportCall.applied, deleteSnapshots_services sound, if_neg kept, services]

section
variable {db : Db} {c c' : ImportCall}

/-- The snapshot that was added is the current one of its bank. -/
theorem applied_latest (consistent : Consistent db) : ∃ r, latestSnapshot (c.applied db) c.bank = some r ∧
    r ∈ (c.applied db).snapshots ∧ r.id = db.sequences.snapshots := by
  have imported := applied_imported (c := c) consistent
  have found := latestSnapshot_stored imported.consistent c.bank
  rw [imported.own, keepLast_concat_getLast?] at found
  obtain ⟨r, latest, image⟩ := Option.map_eq_some_iff.mp found
  exact ⟨r, latest, ((latestSnapshot_iff imported.consistent).mp latest).1, congrArg StoredSnapshot.id image⟩

/-- The services query of the bank gives the links of the public services. -/
theorem bankServices_links (consistent : Consistent db) :
    ((getBankServices (c.applied db) c.bank false).map (fun s => (s.name, s.url))).Perm
      ((publicLinks c.snapshot).map (fun l => (l.1, some l.2))) := by
  have imported := applied_imported (c := c) consistent
  obtain ⟨r, latest, inside, isNew⟩ := applied_latest (c := c) consistent
  have part := applied_services consistent inside
  rw [if_pos isNew] at part
  have rows : getBankServices (c.applied db) c.bank false =
      orderBy ServiceRow.name (visibleServiceRows (c.applied db) r.id) := by
    rw [getBankServices_eq imported.consistent, latest]; rfl
  rw [rows, ← visiblePart_links, ← part, visiblePart_rows, List.map_map]
  exact (List.perm_insertionSort _ _).map _

/-- What the caller is told and what the public queries answer depends on hidden
    methods exactly as far as the snapshots do not agree on them. -/
theorem import_public_iff (consistent : Consistent db) (same : SameCall c c')
    (samePublic : publicServices c.snapshot = publicServices c'.snapshot) {visible visible' : List Change}
    (returned : (c.run db).1 = .ok visible) (returned' : (c'.run db).1 = .ok visible') :
    (visible = visible' ∧ SameQueries (c.run db).2 (c'.run db).2) ↔
      HiddenAgree (c.previous db) c.snapshot c'.snapshot := by
  have ran : c.run db = (.ok visible, (c.run db).2) := Prod.ext returned rfl
  have ran' : c'.run db = (.ok visible', (c'.run db).2) := Prod.ext returned' rfl
  obtain ⟨-, told, after⟩ := run_ok ran
  obtain ⟨-, told', after'⟩ := run_ok ran'
  have previous : c'.previous db = c.previous db := by
    rw [ImportCall.previous, ImportCall.previous, same.bank, same.order]
  rw [after, after', told, told', ImportCall.changes, ImportCall.changes, previous]
  have changesIff : publicLinks c.snapshot = publicLinks c'.snapshot →
      (publicChanges (computeChanges (c.previous db) (snapshotToRecords c.snapshot).1 (methodsIn c.snapshot)) =
        publicChanges (computeChanges (c.previous db) (snapshotToRecords c'.snapshot).1 (methodsIn c'.snapshot)) ↔
          HiddenAgree (c.previous db) c.snapshot c'.snapshot) := by
    intro links
    cases c.previous db with
    | none => exact ⟨fun _ => ⟨links, by simp, by simp, by simp⟩, fun _ => rfl⟩
    | some prev => exact public_computeChanges_iff samePublic links
  constructor
  · rintro ⟨changes, queries⟩
    have links : publicLinks c.snapshot = publicLinks c'.snapshot := by
      have names := congrArg (List.map (fun s : ServiceRow => (s.name, s.url))) (queries.services c.bank)
      rw [List.map_map, List.map_map] at names
      have perm := bankServices_links (c := c) consistent
      have perm' := bankServices_links (c := c') consistent
      rw [← same.bank] at perm'
      have sameRows := perm.symm.trans ((List.Perm.of_eq names).trans perm')
      have injective : Function.Injective (fun l : String × String => (l.1, some l.2)) := by
        rintro ⟨a, b⟩ ⟨a', b'⟩ equal
        simpa using equal
      refine eq_of_perm_of_names ((List.map_perm_map_iff injective).mp sameRows) ?_ (links_distinct _)
      rw [links_names, links_names, samePublic]
    exact (changesIff links).mp changes
  · intro agree
    refine ⟨(changesIff agree.links).mpr agree, ?_⟩
    refine sameQueries_of_visible (applied_imported consistent).consistent (applied_imported consistent).consistent
      ⟨applied_snapshots_same consistent same, fun r inside => ?_⟩
    have inside' : r ∈ (c'.applied db).snapshots := applied_snapshots_same consistent same ▸ inside
    rw [applied_services consistent inside, applied_services consistent inside']
    split
    · rw [visiblePart_content, visiblePart_content, agree.links, samePublic]
    · rfl

end

/-- A service whose first method is hidden, and the same service without it. -/
def hiddenFirst : ImportCall where
  bank := "sber"
  snapshot := { services := Dict.ofEntries [
    ("Accounts", [
      { httpMethod := "GET", path := some "/v1/accounts", summary := "old", urlOnPortal := "/old", hidden := true,
        hiddenReason := some "superseded" },
      { httpMethod := "GET", path := some "/v2/accounts", summary := "new", urlOnPortal := "/new" }])] }
  minRatio := 1 / 2
  keep := 2

def hiddenNone : ImportCall where
  bank := "sber"
  snapshot := { services := Dict.ofEntries [
    ("Accounts", [
      { httpMethod := "GET", path := some "/v2/accounts", summary := "new", urlOnPortal := "/new" }])] }
  minRatio := 1 / 2
  keep := 2

theorem import_public_iff_hiddenFirst :
    (([] : List Change) = [] ∧ SameQueries (hiddenFirst.run {}).2 (hiddenNone.run {}).2) ↔
      HiddenAgree (hiddenFirst.previous {}) hiddenFirst.snapshot hiddenNone.snapshot := by
  have returned : (hiddenFirst.run {}).1 = .ok [] := by decide +kernel
  have returned' : (hiddenNone.run {}).1 = .ok [] := by decide +kernel
  have sameCall : SameCall hiddenFirst hiddenNone := ⟨rfl, rfl, rfl, rfl⟩
  have samePublic : publicServices hiddenFirst.snapshot = publicServices hiddenNone.snapshot := rfl
  exact import_public_iff consistent_empty sameCall samePublic returned returned'

/-- The services query shows the link of the hidden method. -/
theorem import_public_differs : SameCall hiddenFirst hiddenNone ∧
    publicServices hiddenFirst.snapshot = publicServices hiddenNone.snapshot ∧
    (hiddenFirst.run {}).1 = .ok [] ∧ (hiddenNone.run {}).1 = .ok [] ∧
    ¬ SameQueries (hiddenFirst.run {}).2 (hiddenNone.run {}).2 := by
  refine ⟨⟨rfl, rfl, rfl, rfl⟩, rfl, by decide +kernel, by decide +kernel, fun same => ?_⟩
  have services := same.services "sber"
  revert services
  decide +kernel

end ScanApi.Noninterference
