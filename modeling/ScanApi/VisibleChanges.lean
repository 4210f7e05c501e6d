import Mathlib.Tactic.Tauto
import ScanApi.Diff

/-!
What the method and field changes of `computeChanges` say. Every key is
represented by its first method on either side, so whether a change is reported
depends on the first methods alone (`change_added_iff`, `change_removed_iff`).
With one method a key that is exactly the visible surface; with several, a
visible method behind a hidden one (`Shadowed`) is lost from sight.
-/
namespace ScanApi.VisibleChanges
open ScanApi.Diff

/-- Some visible method has the key. -/
def Visible (methods : List MethodRecord) (k : String) : Prop :=
  ∃ m ∈ methods, methodKey m = k ∧ m.hidden = false

/-- The first method of the key is visible. -/
def FirstVisible (methods : List MethodRecord) (k : String) : Prop :=
  ∃ m, (index methods).get? k = some m ∧ m.hidden = false

/-- A visible method of the key stands behind a hidden one. -/
def Shadowed (methods : List MethodRecord) (k : String) : Prop :=
  Visible methods k ∧ ¬ FirstVisible methods k

/-- A public method change with this action names the key. -/
def Reports (changes : List Change) (action : Action) (k : String) : Prop :=
  ∃ c ∈ changes, c.changeType = .method ∧ c.action = action ∧ c.hidden = false ∧ c.entityName = k

/-- The names in the method and field changes. -/
def methodNames (changes : List Change) : List String :=
  (changes.filter (fun c => c.changeType ≠ .service)).map Change.entityName

/-- The public method changes are exactly the differences of the visible
    surfaces, and no key has two method or field changes. -/
structure Complete (prev new : List MethodRecord) (changes : List Change) : Prop where
  added : ∀ k, Reports changes .added k ↔ Visible new k ∧ ¬ Visible prev k
  removed : ∀ k, Reports changes .removed k ↔ Visible prev k ∧ ¬ Visible new k
  once : (methodNames changes).Nodup

/-! ### The index -/

theorem index_get? (methods : List MethodRecord) (k : String) :
    (index methods).get? k = methods.find? (fun m => methodKey m = k) := Dict.get?_firstBy methodKey methods k

theorem mem_index_keys {methods : List MethodRecord} {k : String} :
    k ∈ (index methods).keys ↔ ∃ m ∈ methods, methodKey m = k := Dict.mem_keys_firstBy

theorem index_some {methods : List MethodRecord} {k : String} {m : MethodRecord}
    (found : (index methods).get? k = some m) : m ∈ methods ∧ methodKey m = k := by
  rw [index_get?] at found
  exact ⟨List.mem_of_find?_eq_some found, by simpa using List.find?_some found⟩

theorem firstVisible_visible {methods : List MethodRecord} {k : String} (first : FirstVisible methods k) :
    Visible methods k := by
  obtain ⟨m, found, shown⟩ := first
  obtain ⟨member, key⟩ := index_some found
  exact ⟨m, member, key, shown⟩

theorem firstVisible_found {methods : List MethodRecord} {k : String} {m : MethodRecord}
    (found : (index methods).get? k = some m) : FirstVisible methods k ↔ m.hidden = false := by
  simp [FirstVisible, found]

theorem not_firstVisible_absent {methods : List MethodRecord} {k : String}
    (absent : (index methods).get? k = none) : ¬ FirstVisible methods k := by
  simp [FirstVisible, absent]

theorem visible_iff (methods : List MethodRecord) (k : String) :
    Visible methods k ↔ FirstVisible methods k ∨ Shadowed methods k := by
  constructor
  · intro visible
    by_cases first : FirstVisible methods k
    · exact .inl first
    · exact .inr ⟨visible, first⟩
  · rintro (first | shadowed)
    · exact firstVisible_visible first
    · exact shadowed.1

/-- Every key of the dictionary is the key of its method. -/
def Keyed (d : Dict String MethodRecord) : Prop := ∀ k m, d.get? k = some m → methodKey m = k

theorem index_keyed (methods : List MethodRecord) : Keyed (index methods) := fun _ _ found => (index_some found).2

/-! ### The four parts of the list -/

theorem mem_onlyIn {a b : Dict String MethodRecord} {m : MethodRecord} :
    m ∈ onlyIn a b ↔ ∃ k, a.get? k = some m ∧ b.get? k = none := by
  simp only [onlyIn, List.mem_filterMap, mem_sorted, Finset.mem_sdiff, Dict.get?_eq_none]
  constructor
  · rintro ⟨k, ⟨_, absent⟩, found⟩; exact ⟨k, found, absent⟩
  · rintro ⟨k, found, absent⟩; exact ⟨k, ⟨Dict.mem_keys.mpr ⟨m, found⟩, absent⟩, found⟩

theorem mem_common {old new : Dict String MethodRecord} {o n : MethodRecord} :
    (o, n) ∈ common old new ↔ ∃ k, old.get? k = some o ∧ new.get? k = some n := by
  simp only [common, List.mem_filterMap, mem_sorted, Finset.mem_inter, Option.bind_eq_some_iff,
    Option.map_eq_some_iff, Prod.mk.injEq]
  constructor
  · rintro ⟨k, _, o', oldFound, n', newFound, rfl, rfl⟩; exact ⟨k, oldFound, newFound⟩
  · rintro ⟨k, oldFound, newFound⟩
    exact ⟨k, ⟨Dict.mem_keys.mpr ⟨n, newFound⟩, Dict.mem_keys.mpr ⟨o, oldFound⟩⟩, o, oldFound, n, newFound, rfl, rfl⟩

@[simp] theorem methodChange_changeType (action : Action) (m : MethodRecord) (hidden : Bool) :
    (methodChange action m hidden).changeType = .method := rfl
@[simp] theorem methodChange_hidden (action : Action) (m : MethodRecord) (hidden : Bool) :
    (methodChange action m hidden).hidden = hidden := rfl

theorem mem_hiddenServiceNames {methods : List MethodRecord} {name : String} : name ∈ hiddenServiceNames methods ↔
    serviceIsHidden ((methods.filter (fun m => m.service = name)).map MethodRecord.hidden) = true := by
  obtain ⟨values, members⟩ := Dict.get?_groupBy MethodRecord.service MethodRecord.hidden methods name
  simp only [hiddenServiceNames, List.mem_toFinset, List.mem_map, List.mem_filter]
  constructor
  · rintro ⟨e, ⟨member, isHidden⟩, rfl⟩
    rw [← values, Dict.get?_eq_some.mpr member]
    exact isHidden
  · intro isHidden
    have present : name ∈ (Dict.groupBy MethodRecord.service MethodRecord.hidden methods).keys := by
      rw [members]
      by_contra none
      push Not at none
      have empty : methods.filter (fun m => m.service = name) = [] := by
        rw [List.filter_eq_nil_iff]
        intro m member
        simpa using none m member
      rw [empty] at isHidden
      cases isHidden
    obtain ⟨flags, found⟩ := Dict.mem_keys.mp present
    rw [found, Option.getD_some] at values
    exact ⟨(name, flags), ⟨Dict.get?_eq_some.mp found, by rw [values]; exact isHidden⟩, rfl⟩

theorem serviceChanges_changeType {prev new : Dict String String} {hiddenOld hiddenNew : Finset String} {c : Change}
    (member : c ∈ serviceChanges prev new hiddenOld hiddenNew) : c.changeType = .service := by
  simp only [serviceChanges, List.mem_append, List.mem_filterMap, Option.map_eq_some_iff] at member
  rcases member with ⟨n, _, url, _, rfl⟩ | ⟨n, _, url, _, rfl⟩ <;> rfl

theorem fieldChange_some {old new : MethodRecord} {c : Change} (found : fieldChange old new = some c) :
    c.changeType = .field ∧ c.entityName = methodKey new ∧ c.hidden = new.hidden ∧ c.action = .modified := by
  simp only [fieldChange] at found
  split at found
  · cases found
  · cases found; exact ⟨rfl, rfl, rfl, rfl⟩

theorem flipChange_some {old new : MethodRecord} {c : Change} (found : flipChange old new = some c) :
    (old.hidden = false ∧ new.hidden = true ∧ c = methodChange .removed old false) ∨
      (old.hidden = true ∧ new.hidden = false ∧ c = methodChange .added new false) := by
  unfold flipChange at found
  cases oldFlag : old.hidden <;> cases newFlag : new.hidden <;> simp_all

theorem keptFieldChange_some {old new : MethodRecord} {c : Change} (found : keptFieldChange old new = some c) :
    old.hidden = new.hidden ∧ fieldChange old new = some c := by
  unfold keptFieldChange at found
  split at found
  · exact ⟨‹_›, found⟩
  · cases found

theorem mem_methodChanges {old new : Dict String MethodRecord} {c : Change} :
    c ∈ methodChanges old new ↔
      (∃ k m, new.get? k = some m ∧ old.get? k = none ∧ c = methodChange .added m m.hidden) ∨
      (∃ k m, old.get? k = some m ∧ new.get? k = none ∧ c = methodChange .removed m m.hidden) := by
  simp only [methodChanges, List.mem_append, List.mem_map, mem_onlyIn]
  constructor
  · rintro (⟨m, ⟨k, here, absent⟩, rfl⟩ | ⟨m, ⟨k, here, absent⟩, rfl⟩)
    · exact .inl ⟨k, m, here, absent, rfl⟩
    · exact .inr ⟨k, m, here, absent, rfl⟩
  · rintro (⟨k, m, here, absent, rfl⟩ | ⟨k, m, here, absent, rfl⟩)
    · exact .inl ⟨m, ⟨k, here, absent⟩, rfl⟩
    · exact .inr ⟨m, ⟨k, here, absent⟩, rfl⟩

theorem mem_flipChanges {old new : Dict String MethodRecord} {c : Change} :
    c ∈ flipChanges old new ↔
      ∃ k o n, old.get? k = some o ∧ new.get? k = some n ∧ flipChange o n = some c := by
  simp only [flipChanges, List.mem_filterMap, Prod.exists]
  constructor
  · rintro ⟨o, n, member, flip⟩
    obtain ⟨k, oldFound, newFound⟩ := mem_common.mp member
    exact ⟨k, o, n, oldFound, newFound, flip⟩
  · rintro ⟨k, o, n, oldFound, newFound, flip⟩
    exact ⟨o, n, mem_common.mpr ⟨k, oldFound, newFound⟩, flip⟩

theorem mem_fieldChanges {old new : Dict String MethodRecord} {c : Change} :
    c ∈ fieldChanges old new ↔
      ∃ k o n, old.get? k = some o ∧ new.get? k = some n ∧ o.hidden = n.hidden ∧ fieldChange o n = some c := by
  simp only [fieldChanges, List.mem_filterMap, Prod.exists]
  constructor
  · rintro ⟨o, n, member, kept⟩
    obtain ⟨k, oldFound, newFound⟩ := mem_common.mp member
    exact ⟨k, o, n, oldFound, newFound, keptFieldChange_some kept⟩
  · rintro ⟨k, o, n, oldFound, newFound, same, changed⟩
    exact ⟨o, n, mem_common.mpr ⟨k, oldFound, newFound⟩, by simp [keptFieldChange, same, changed]⟩

/-- The changes between two states, part by part. -/
theorem mem_computeChanges {prev : SnapshotState} {services : Dict String String} {new : List MethodRecord}
    {c : Change} : c ∈ computeChanges (some prev) services new ↔
      c ∈ serviceChanges prev.1 services (hiddenServiceNames prev.2) (hiddenServiceNames new) ∨
      c ∈ methodChanges (index prev.2) (index new) ∨ c ∈ flipChanges (index prev.2) (index new) ∨
      c ∈ fieldChanges (index prev.2) (index new) := by
  simp only [computeChanges, List.mem_append, or_assoc]

/-! ### When two states do not differ -/

theorem fieldChange_eq_none {old new : MethodRecord} : fieldChange old new = none ↔ old.fields = new.fields := by
  simp only [fieldChange, sorted_eq_nil, Finset.sdiff_eq_empty_iff_subset]
  constructor
  · intro none
    split at none
    · rename_i same; exact Finset.Subset.antisymm same.2 same.1
    · cases none
  · intro same
    simp [same]

theorem flipChange_eq_none {old new : MethodRecord} : flipChange old new = none ↔ old.hidden = new.hidden := by
  unfold flipChange
  cases old.hidden <;> cases new.hidden <;> simp

/-- No changes where the services and the method keys are the same and methods of
    one key agree. -/
theorem computeChanges_eq_nil_of {prev : SnapshotState} {services : Dict String String} {new : List MethodRecord}
    (serviceKeys : prev.1.keys = services.keys)
    (sameKeys : ∀ k, (∃ m ∈ prev.2, methodKey m = k) ↔ ∃ m ∈ new, methodKey m = k)
    (uniform : ∀ o ∈ prev.2, ∀ n ∈ new, methodKey o = methodKey n → o.hidden = n.hidden ∧ o.fields = n.fields) :
    computeChanges (some prev) services new = [] := by
  have keys : (index prev.2).keys = (index new).keys := by
    ext k
    rw [mem_index_keys, mem_index_keys, sameKeys]
  have agree : ∀ k o n, (index prev.2).get? k = some o → (index new).get? k = some n →
      o.hidden = n.hidden ∧ o.fields = n.fields := by
    intro k o n oldFound newFound
    obtain ⟨oldMember, oldKey⟩ := index_some oldFound
    obtain ⟨newMember, newKey⟩ := index_some newFound
    exact uniform o oldMember n newMember (oldKey.trans newKey.symm)
  have noServices : serviceChanges prev.1 services (hiddenServiceNames prev.2) (hiddenServiceNames new) = [] := by
    simp [serviceChanges, serviceKeys]
  have noMethods : methodChanges (index prev.2) (index new) = [] := by
    simp [methodChanges, onlyIn, keys]
  have noFlips : flipChanges (index prev.2) (index new) = [] := by
    rw [List.eq_nil_iff_forall_not_mem]
    intro c member
    obtain ⟨k, o, n, oldFound, newFound, flip⟩ := mem_flipChanges.mp member
    rw [flipChange_eq_none.mpr (agree k o n oldFound newFound).1] at flip
    cases flip
  have noFields : fieldChanges (index prev.2) (index new) = [] := by
    rw [List.eq_nil_iff_forall_not_mem]
    intro c member
    obtain ⟨k, o, n, oldFound, newFound, _, changed⟩ := mem_fieldChanges.mp member
    rw [fieldChange_eq_none.mpr (agree k o n oldFound newFound).2] at changed
    cases changed
  simp [computeChanges, noServices, noMethods, noFlips, noFields]

/-! ### What is reported -/

section
variable {prev : SnapshotState} {services : Dict String String} {new : List MethodRecord} {k : String}

/-- A public method change tells that the first method of the key is visible now
    and was not before, or the other way around. -/
theorem reports_cases {action : Action} (reported : Reports (computeChanges (some prev) services new) action k) :
    (action = .added ∧ FirstVisible new k ∧ ¬ FirstVisible prev.2 k) ∨
    (action = .removed ∧ FirstVisible prev.2 k ∧ ¬ FirstVisible new k) := by
  obtain ⟨c, member, isMethod, rfl, shown, rfl⟩ := reported
  rcases mem_computeChanges.mp member with inService | inMethod | inFlip | inField
  · rw [serviceChanges_changeType inService] at isMethod; cases isMethod
  · rcases mem_methodChanges.mp inMethod with ⟨k', m, here, absent, rfl⟩ | ⟨k', m, here, absent, rfl⟩
    · obtain rfl : methodKey m = k' := index_keyed new k' m here
      exact .inl ⟨rfl, (firstVisible_found here).mpr shown, not_firstVisible_absent absent⟩
    · obtain rfl : methodKey m = k' := index_keyed prev.2 k' m here
      exact .inr ⟨rfl, (firstVisible_found here).mpr shown, not_firstVisible_absent absent⟩
  · obtain ⟨k', o, n, oldFound, newFound, flip⟩ := mem_flipChanges.mp inFlip
    rcases flipChange_some flip with ⟨wasVisible, isHidden, rfl⟩ | ⟨wasHidden, isVisible, rfl⟩
    · obtain rfl : methodKey o = k' := index_keyed prev.2 k' o oldFound
      refine .inr ⟨rfl, (firstVisible_found oldFound).mpr wasVisible, fun visible => ?_⟩
      cases isHidden.symm.trans ((firstVisible_found newFound).mp visible)
    · obtain rfl : methodKey n = k' := index_keyed new k' n newFound
      refine .inl ⟨rfl, (firstVisible_found newFound).mpr isVisible, fun visible => ?_⟩
      cases wasHidden.symm.trans ((firstVisible_found oldFound).mp visible)
  · obtain ⟨_, _, _, _, _, _, changed⟩ := mem_fieldChanges.mp inField
    rw [(fieldChange_some changed).1] at isMethod; cases isMethod

/-- A public addition is reported exactly when the first method of the key is
    visible now and was not before. -/
theorem change_added_iff : Reports (computeChanges (some prev) services new) .added k ↔
    FirstVisible new k ∧ ¬ FirstVisible prev.2 k := by
  constructor
  · intro reported
    rcases reports_cases reported with ⟨_, appeared⟩ | ⟨impossible, _⟩
    · exact appeared
    · cases impossible
  · rintro ⟨⟨n, newFound, isVisible⟩, notBefore⟩
    have key := index_keyed new k n newFound
    cases oldFound : (index prev.2).get? k with
    | none =>
      refine ⟨methodChange .added n n.hidden, ?_, rfl, rfl, isVisible, key⟩
      exact mem_computeChanges.mpr (.inr (.inl (mem_methodChanges.mpr (.inl ⟨k, n, newFound, oldFound, rfl⟩))))
    | some o =>
      have wasHidden : o.hidden = true := by simpa [firstVisible_found oldFound] using notBefore
      refine ⟨methodChange .added n false, ?_, rfl, rfl, rfl, key⟩
      have flip : flipChange o n = some (methodChange .added n false) := by simp [flipChange, wasHidden, isVisible]
      exact mem_computeChanges.mpr (.inr (.inr (.inl (mem_flipChanges.mpr ⟨k, o, n, oldFound, newFound, flip⟩))))

/-- A public removal is reported exactly when the first method of the key was
    visible and is not any more. -/
theorem change_removed_iff : Reports (computeChanges (some prev) services new) .removed k ↔
    FirstVisible prev.2 k ∧ ¬ FirstVisible new k := by
  constructor
  · intro reported
    rcases reports_cases reported with ⟨impossible, _⟩ | ⟨_, gone⟩
    · cases impossible
    · exact gone
  · rintro ⟨⟨o, oldFound, wasVisible⟩, notNow⟩
    have key := index_keyed prev.2 k o oldFound
    cases newFound : (index new).get? k with
    | none =>
      refine ⟨methodChange .removed o o.hidden, ?_, rfl, rfl, wasVisible, key⟩
      exact mem_computeChanges.mpr (.inr (.inl (mem_methodChanges.mpr (.inr ⟨k, o, oldFound, newFound, rfl⟩))))
    | some n =>
      have isHidden : n.hidden = true := by simpa [firstVisible_found newFound] using notNow
      refine ⟨methodChange .removed o false, ?_, rfl, rfl, rfl, key⟩
      have flip : flipChange o n = some (methodChange .removed o false) := by
        simp [flipChange, wasVisible, isHidden]
      exact mem_computeChanges.mpr (.inr (.inr (.inl (mem_flipChanges.mpr ⟨k, o, n, oldFound, newFound, flip⟩))))

end

/-! ### One change a key -/

theorem map_methodKey_onlyIn {a b : Dict String MethodRecord} (keyed : Keyed a) :
    (onlyIn a b).map methodKey = sorted (a.keys \ b.keys) := by
  have held : ∀ k ∈ sorted (a.keys \ b.keys), (a.get? k).map methodKey = some k := by
    intro k member
    obtain ⟨m, found⟩ := Dict.mem_keys.mp (Finset.mem_sdiff.mp (mem_sorted.mp member)).1
    simp [found, keyed k m found]
  rw [onlyIn, List.map_filterMap, List.filterMap_congr held, List.filterMap_some]

/-- Both methods of a common key have that key. -/
theorem common_keys {old new : Dict String MethodRecord} (keyedOld : Keyed old) (keyedNew : Keyed new)
    {p : MethodRecord × MethodRecord} (member : p ∈ common old new) :
    methodKey p.1 = methodKey p.2 ∧ methodKey p.2 ∈ new.keys ∩ old.keys := by
  obtain ⟨k, oldFound, newFound⟩ := mem_common.mp member
  rw [keyedOld k _ oldFound, keyedNew k _ newFound]
  exact ⟨rfl, Finset.mem_inter.mpr ⟨Dict.mem_keys.mpr ⟨_, newFound⟩, Dict.mem_keys.mpr ⟨_, oldFound⟩⟩⟩

theorem map_methodKey_common {old new : Dict String MethodRecord} (keyedNew : Keyed new) :
    (common old new).map (fun p => methodKey p.2) = sorted (new.keys ∩ old.keys) := by
  have held : ∀ k ∈ sorted (new.keys ∩ old.keys),
      ((old.get? k).bind (fun o => (new.get? k).map (fun n => (o, n)))).map (fun p => methodKey p.2) = some k := by
    intro k member
    obtain ⟨inNew, inOld⟩ := Finset.mem_inter.mp (mem_sorted.mp member)
    obtain ⟨n, newFound⟩ := Dict.mem_keys.mp inNew
    obtain ⟨o, oldFound⟩ := Dict.mem_keys.mp inOld
    simp [oldFound, newFound, keyedNew k n newFound]
  rw [common, List.map_filterMap, List.filterMap_congr held, List.filterMap_some]

/-- Names that a selection keeps come in the order of the keys selected from. -/
theorem filterMap_names_sublist {α : Type} (select : α → Option Change) (key : α → String) (l : List α)
    (named : ∀ a ∈ l, ∀ c, select a = some c → c.entityName = key a) :
    ((l.filterMap select).map Change.entityName).Sublist (l.map key) := by
  induction l with
  | nil => simp
  | cons a rest ih =>
    have tail := ih (fun b member => named b (List.mem_cons_of_mem _ member))
    cases chosen : select a with
    | none => simpa [chosen] using tail.cons (key a)
    | some c =>
      have name := named a List.mem_cons_self c chosen
      simpa [chosen, name] using tail.cons_cons (key a)

section
variable {old now : Dict String MethodRecord}

/-- A flip is named after the key of its pair. -/
theorem flipChange_name (keyedOld : Keyed old) (keyedNow : Keyed now) {p : MethodRecord × MethodRecord}
    (member : p ∈ common old now) {c : Change} (flip : flipChange p.1 p.2 = some c) :
    c.entityName = methodKey p.2 := by
  have keys := (common_keys keyedOld keyedNow member).1
  rcases flipChange_some flip with ⟨_, _, rfl⟩ | ⟨_, _, rfl⟩
  · exact keys
  · rfl

theorem common_keys_nodup (keyedNow : Keyed now) :
    ((common old now).map (fun p => methodKey p.2)).Nodup := by
  rw [map_methodKey_common keyedNow]
  exact sorted_nodup _

theorem flipNames_sublist (keyedOld : Keyed old) (keyedNow : Keyed now) :
    ((flipChanges old now).map Change.entityName).Sublist ((common old now).map (fun p => methodKey p.2)) :=
  filterMap_names_sublist _ _ _ fun _ member _ flip => flipChange_name keyedOld keyedNow member flip

theorem keptFieldChange_name {old new : MethodRecord} {c : Change} (kept : keptFieldChange old new = some c) :
    c.entityName = methodKey new :=
  (fieldChange_some (keptFieldChange_some kept).2).2.1

theorem fieldNames_sublist : ((fieldChanges old now).map Change.entityName).Sublist
    ((common old now).map (fun p => methodKey p.2)) :=
  filterMap_names_sublist _ _ _ fun _ _ _ kept => keptFieldChange_name kept

/-- A pair of the common keys flips its visibility or keeps it, so no key has
    both a flip and a field change. -/
theorem flipNames_fieldNames_disjoint (keyedOld : Keyed old) (keyedNow : Keyed now) {x : String}
    (inFlip : x ∈ (flipChanges old now).map Change.entityName) :
    x ∉ (fieldChanges old now).map Change.entityName := by
  intro inField
  obtain ⟨c, flipMember, rfl⟩ := List.mem_map.mp inFlip
  obtain ⟨d, fieldMember, sameName⟩ := List.mem_map.mp inField
  obtain ⟨p, pMember, flip⟩ := List.mem_filterMap.mp flipMember
  obtain ⟨q, qMember, kept⟩ := List.mem_filterMap.mp fieldMember
  have sameKey : methodKey p.2 = methodKey q.2 := by
    rw [← flipChange_name keyedOld keyedNow pMember flip, ← keptFieldChange_name kept, sameName]
  have same : p = q := List.inj_on_of_nodup_map (common_keys_nodup keyedNow) pMember qMember sameKey
  subst same
  have equal := (keptFieldChange_some kept).1
  rcases flipChange_some flip with ⟨was, now, _⟩ | ⟨was, now, _⟩ <;> rw [was, now] at equal <;> cases equal

theorem methodChanges_names (keyedOld : Keyed old) (keyedNow : Keyed now) :
    (methodChanges old now).map Change.entityName =
    sorted (now.keys \ old.keys) ++ sorted (old.keys \ now.keys) := by
  rw [← map_methodKey_onlyIn keyedNow, ← map_methodKey_onlyIn keyedOld, methodChanges, List.map_append,
    List.map_map, List.map_map]
  rfl

theorem methodChanges_not_service {c : Change} (member : c ∈ methodChanges old now) :
    c.changeType ≠ .service := by
  rcases mem_methodChanges.mp member with ⟨_, _, _, _, rfl⟩ | ⟨_, _, _, _, rfl⟩ <;> simp

theorem flipChanges_not_service {c : Change} (member : c ∈ flipChanges old now) :
    c.changeType ≠ .service := by
  obtain ⟨_, o, n, _, _, flip⟩ := mem_flipChanges.mp member
  rcases flipChange_some flip with ⟨_, _, rfl⟩ | ⟨_, _, rfl⟩ <;> simp

theorem fieldChanges_not_service {c : Change} (member : c ∈ fieldChanges old now) :
    c.changeType ≠ .service := by
  obtain ⟨_, _, _, _, _, _, changed⟩ := mem_fieldChanges.mp member
  simp [(fieldChange_some changed).1]

end

/-- The names of the method and field changes: the keys of one side only, then
    the flipped keys, then those with changed fields. -/
theorem methodNames_computeChanges (prev : SnapshotState) (services : Dict String String)
    (new : List MethodRecord) : methodNames (computeChanges (some prev) services new) =
      (sorted ((index new).keys \ (index prev.2).keys) ++ sorted ((index prev.2).keys \ (index new).keys)) ++
        ((flipChanges (index prev.2) (index new)).map Change.entityName ++
          (fieldChanges (index prev.2) (index new)).map Change.entityName) := by
  have noServices : (serviceChanges prev.1 services (hiddenServiceNames prev.2) (hiddenServiceNames new)).filter
      (fun c => c.changeType ≠ .service) = [] := by
    rw [List.filter_eq_nil_iff]
    intro c member
    simp [serviceChanges_changeType member]
  have onlyMethods : ∀ {l : List Change}, (∀ c ∈ l, c.changeType ≠ .service) →
      l.filter (fun c => c.changeType ≠ .service) = l := fun all => List.filter_eq_self.mpr (by simpa using all)
  simp only [methodNames, computeChanges, List.filter_append, noServices, List.nil_append, List.map_append,
    onlyMethods (fun _ => methodChanges_not_service), onlyMethods (fun _ => flipChanges_not_service),
    onlyMethods (fun _ => fieldChanges_not_service),
    methodChanges_names (index_keyed prev.2) (index_keyed new), List.append_assoc]

/-- Every key has at most one method or field change. -/
theorem methodNames_nodup (prev : SnapshotState) (services : Dict String String) (new : List MethodRecord) :
    (methodNames (computeChanges (some prev) services new)).Nodup := by
  have keyedOld : Keyed (index prev.2) := index_keyed prev.2
  have keyedNow : Keyed (index new) := index_keyed new
  have flipSub := flipNames_sublist keyedOld keyedNow
  have fieldSub := @fieldNames_sublist (index prev.2) (index new)
  have commonNodup := @common_keys_nodup (index prev.2) _ keyedNow
  rw [methodNames_computeChanges]
  -- The three groups of keys are disjoint, and none repeats a key.
  refine List.nodup_append.mpr ⟨List.nodup_append.mpr ⟨sorted_nodup _, sorted_nodup _, ?_⟩,
    List.nodup_append.mpr ⟨flipSub.nodup commonNodup, fieldSub.nodup commonNodup, ?_⟩, ?_⟩
  · rintro a inNew b inOld rfl
    exact (Finset.mem_sdiff.mp (mem_sorted.mp inNew)).2 (Finset.mem_sdiff.mp (mem_sorted.mp inOld)).1
  · rintro a inFlip b inField rfl
    exact flipNames_fieldNames_disjoint keyedOld keyedNow inFlip inField
  · rintro a inOnly b inCommon rfl
    have both : a ∈ (index new).keys ∩ (index prev.2).keys := by
      rw [← mem_sorted, ← map_methodKey_common keyedNow]
      rcases List.mem_append.mp inCommon with inFlip | inField
      · exact flipSub.subset inFlip
      · exact fieldSub.subset inField
    obtain ⟨inNow, inOld⟩ := Finset.mem_inter.mp both
    rcases List.mem_append.mp inOnly with only | only
    · exact (Finset.mem_sdiff.mp (mem_sorted.mp only)).2 inOld
    · exact (Finset.mem_sdiff.mp (mem_sorted.mp only)).2 inNow

/-! ### Completeness -/

/-- The changes are complete for the visible surfaces exactly when the same keys
    are shadowed on both sides. -/
theorem computeChanges_complete_iff (prev : SnapshotState) (services : Dict String String)
    (new : List MethodRecord) : Complete prev.2 new (computeChanges (some prev) services new) ↔
      ∀ k, Shadowed prev.2 k ↔ Shadowed new k := by
  have hiddenFirst : ∀ (methods : List MethodRecord) k, Shadowed methods k → ¬ FirstVisible methods k :=
    fun _ _ shadowed => shadowed.2
  constructor
  · intro complete k
    have added := complete.added k
    have removed := complete.removed k
    rw [change_added_iff, visible_iff, visible_iff] at added
    rw [change_removed_iff, visible_iff, visible_iff] at removed
    have oldApart := hiddenFirst prev.2 k
    have newApart := hiddenFirst new k
    tauto
  · intro agree
    refine ⟨fun k => ?_, fun k => ?_, methodNames_nodup prev services new⟩
    all_goals
      have same := agree k
      have oldApart := hiddenFirst prev.2 k
      have newApart := hiddenFirst new k
      simp only [change_added_iff, change_removed_iff, visible_iff]
      tauto

/-- A hidden copy of a method before its visible one, as in a portal with a
    closed space that repeats a public method under another service. -/
def hiddenCopyFirst : List MethodRecord :=
  [{ service := "A", httpMethod := "GET", path := "/y", name := "y", url := "p", fields := ∅, hidden := true,
     hiddenReason := some "private" },
   { service := "B", httpMethod := "GET", path := "/y", name := "y", url := "u", fields := ∅ }]

/-- A visible method whose hidden copy comes first appears without a public
    change. -/
theorem computeChanges_incomplete : ¬ Complete [] hiddenCopyFirst
    (computeChanges (some (Dict.empty, [])) (Dict.ofEntries [("A", "p"), ("B", "u")]) hiddenCopyFirst) := by
  intro complete
  have visible : Visible hiddenCopyFirst "GET /y" := ⟨_, List.mem_cons_of_mem _ List.mem_cons_self, by decide, rfl⟩
  obtain ⟨c, member, isMethod, isAdded, shown, -⟩ := (complete.added "GET /y").mpr ⟨visible, by simp [Visible]⟩
  revert c
  decide

end ScanApi.VisibleChanges
