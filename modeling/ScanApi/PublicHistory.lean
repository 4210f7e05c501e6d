import ScanApi.ImportRuns
import ScanApi.VisibleChanges

/-!
The public history of a bank, replayed. Starting from the visible methods of the
first accepted import and applying every stored public method change in order
gives the visible methods of the current snapshot; every addition names a key
that was absent and every removal one that was present
(`execute_replays`). Each snapshot has one method a key.
-/
namespace ScanApi.PublicHistory
open ScanApi.Diff ScanApi.Database ScanApi.Repository ScanApi.SnapshotImport ScanApi.ImportEffect ScanApi.Stored
  ScanApi.ImportStep ScanApi.ReadBack ScanApi.ImportRuns ScanApi.VisibleChanges

/-! ### Replay -/

/-- One public method change applied to the surface; none where it does not fit. -/
def applyChange (surface : Finset String) (c : Change) : Option (Finset String) :=
  match c.action with
  | .added => if c.entityName ∈ surface then none else some (insert c.entityName surface)
  | .removed => if c.entityName ∈ surface then some (surface.erase c.entityName) else none
  | .modified => some surface

def replay (surface : Finset String) (changes : List Change) : Option (Finset String) :=
  changes.foldlM applyChange surface

/-- Changes that fit the surface, each under a name of its own. -/
structure Fits (surface : Finset String) (changes : List Change) : Prop where
  once : (changes.map Change.entityName).Nodup
  added : ∀ c ∈ changes, c.action = .added → c.entityName ∉ surface
  removed : ∀ c ∈ changes, c.action = .removed → c.entityName ∈ surface

theorem applyChange_fits {surface : Finset String} {c : Change} {rest : List Change} (fits : Fits surface (c :: rest)) :
    ∃ next, applyChange surface c = some next ∧
      (∀ k, k ∈ next ↔ (k ∈ surface ∧ ¬ (c.action = .removed ∧ c.entityName = k)) ∨
        (c.action = .added ∧ c.entityName = k)) := by
  have added := fits.added c List.mem_cons_self
  have removed := fits.removed c List.mem_cons_self
  cases action : c.action with
  | added =>
    refine ⟨insert c.entityName surface, by simp [applyChange, action, added action], fun k => ?_⟩
    simp only [Finset.mem_insert, reduceCtorEq, false_and, not_false_eq_true, and_true, true_and]
    rw [or_comm, eq_comm (a := k)]
  | removed =>
    refine ⟨surface.erase c.entityName, by simp [applyChange, action, removed action], fun k => ?_⟩
    simp only [Finset.mem_erase, true_and, reduceCtorEq, false_and, or_false, ne_eq]
    rw [and_comm, eq_comm (a := k)]
  | modified => exact ⟨surface, by simp [applyChange, action], fun k => by simp⟩

/-- Changes that fit can all be applied, and their order does not matter. -/
theorem replay_fits {changes : List Change} : ∀ {surface : Finset String}, Fits surface changes →
    ∃ after, replay surface changes = some after ∧
      ∀ k, k ∈ after ↔ (k ∈ surface ∧ ¬ ∃ c ∈ changes, c.action = .removed ∧ c.entityName = k) ∨
        ∃ c ∈ changes, c.action = .added ∧ c.entityName = k := by
  induction changes with
  | nil => intro surface _; exact ⟨surface, rfl, fun k => by simp⟩
  | cons c rest ih =>
    intro surface fits
    obtain ⟨next, applied, members⟩ := applyChange_fits fits
    have split : c.entityName ∉ rest.map Change.entityName ∧ (rest.map Change.entityName).Nodup :=
      List.nodup_cons.mp fits.once
    have other : ∀ d ∈ rest, c.entityName ≠ d.entityName := fun d member same =>
      split.1 (same ▸ List.mem_map_of_mem member)
    have untouched : ∀ d ∈ rest, (d.entityName ∈ next ↔ d.entityName ∈ surface) := by
      intro d member
      rw [members]
      simp [other d member]
    have restFits : Fits next rest := ⟨split.2,
      fun d member action => (untouched d member).not.mpr (fits.added d (List.mem_cons_of_mem _ member) action),
      fun d member action => (untouched d member).mpr (fits.removed d (List.mem_cons_of_mem _ member) action)⟩
    obtain ⟨after, replayed, afterMembers⟩ := ih restFits
    refine ⟨after, ?_, fun k => ?_⟩
    · rw [replay, List.foldlM_cons, applied]; exact replayed
    · have notBoth : (c.action = .added ∧ c.entityName = k) →
          ¬ ∃ d ∈ rest, d.action = .removed ∧ d.entityName = k := by
        rintro ⟨_, name⟩ ⟨d, member, _, name'⟩
        exact other d member (name.trans name'.symm)
      rw [afterMembers, members]
      simp only [List.exists_mem_cons_iff]
      generalize (∃ d ∈ rest, d.action = .removed ∧ d.entityName = k) = removedLater at notBoth ⊢
      generalize (∃ d ∈ rest, d.action = .added ∧ d.entityName = k) = addedLater
      generalize (c.action = .added ∧ c.entityName = k) = addedHere at notBoth ⊢
      generalize (c.action = .removed ∧ c.entityName = k) = removedHere
      tauto

theorem replay_append (surface : Finset String) (first second : List Change) :
    replay surface (first ++ second) = (replay surface first).bind (fun s => replay s second) := by
  rw [replay, List.foldlM_append]; rfl

/-! ### One import -/

/-- The keys of the visible methods. -/
def visibleKeys (methods : List MethodRecord) : Finset String :=
  ((methods.filter (fun m => !m.hidden)).map methodKey).toFinset

/-- No two methods have the same key. -/
def DistinctKeys (methods : List MethodRecord) : Prop := (methods.map methodKey).Nodup

/-- A change of the public method history. -/
def isPublicMethod (c : Change) : Bool := c.changeType = .method && !c.hidden

theorem mem_visibleKeys {methods : List MethodRecord} {k : String} : k ∈ visibleKeys methods ↔ Visible methods k := by
  simp only [visibleKeys, List.mem_toFinset, List.mem_map, List.mem_filter, Bool.not_eq_true', Visible]
  constructor
  · rintro ⟨m, ⟨member, shown⟩, key⟩; exact ⟨m, member, key, shown⟩
  · rintro ⟨m, member, key, shown⟩; exact ⟨m, ⟨member, shown⟩, key⟩

theorem visibleKeys_perm {l l' : List MethodRecord} (perm : l.Perm l') : visibleKeys l = visibleKeys l' := by
  ext k
  rw [mem_visibleKeys, mem_visibleKeys]
  simp only [Visible, perm.mem_iff]

/-- With one method a key, the first of a key is the visible one. -/
theorem visible_firstVisible {methods : List MethodRecord} (distinct : DistinctKeys methods) {k : String} :
    Visible methods k ↔ FirstVisible methods k := by
  constructor
  · rintro ⟨m, member, key, shown⟩
    obtain ⟨first, found⟩ := Dict.mem_keys.mp (mem_index_keys.mpr ⟨m, member, key⟩)
    obtain ⟨inside, sameKey⟩ := index_some found
    have same : first = m := List.inj_on_of_nodup_map distinct inside member (sameKey.trans key.symm)
    exact ⟨first, found, same ▸ shown⟩
  · exact firstVisible_visible

/-- The public method changes between two states lead from the visible keys of
    one to those of the other. -/
theorem replay_computeChanges {prev : SnapshotState} (services : Dict String String) {new : List MethodRecord}
    (distinctPrev : DistinctKeys prev.2) (distinctNew : DistinctKeys new) :
    replay (visibleKeys prev.2) ((computeChanges (some prev) services new).filter isPublicMethod) =
      some (visibleKeys new) := by
  set changes := computeChanges (some prev) services new with changesAre
  have reports : ∀ action k, (∃ c ∈ changes.filter isPublicMethod, c.action = action ∧ c.entityName = k) ↔
      Reports changes action k := by
    intro action k
    simp only [Reports, List.mem_filter, isPublicMethod, Bool.and_eq_true, decide_eq_true_eq, Bool.not_eq_true']
    constructor
    · rintro ⟨c, ⟨member, isMethod, shown⟩, isAction, name⟩; exact ⟨c, member, isMethod, isAction, shown, name⟩
    · rintro ⟨c, member, isMethod, isAction, shown, name⟩; exact ⟨c, ⟨member, isMethod, shown⟩, isAction, name⟩
  have added : ∀ k, Reports changes .added k ↔ Visible new k ∧ ¬ Visible prev.2 k := by
    intro k
    rw [visible_firstVisible distinctPrev, visible_firstVisible distinctNew]
    exact change_added_iff
  have removed : ∀ k, Reports changes .removed k ↔ Visible prev.2 k ∧ ¬ Visible new k := by
    intro k
    rw [visible_firstVisible distinctPrev, visible_firstVisible distinctNew]
    exact change_removed_iff
  have publicSub : (changes.filter isPublicMethod).Sublist (changes.filter (fun c => c.changeType ≠ .service)) := by
    have isMethod : changes.filter isPublicMethod =
        (changes.filter (fun c => c.changeType ≠ .service)).filter isPublicMethod := by
      rw [List.filter_filter]
      apply List.filter_congr
      intro c _
      cases kind : c.changeType <;> simp [isPublicMethod, kind]
    rw [isMethod]
    exact List.filter_sublist
  have fits : Fits (visibleKeys prev.2) (changes.filter isPublicMethod) := by
    refine ⟨?_, fun c member action => ?_, fun c member action => ?_⟩
    · exact (publicSub.map Change.entityName).nodup (methodNames_nodup prev services new)
    · rw [mem_visibleKeys]
      exact ((added c.entityName).mp ((reports _ _).mp ⟨c, member, action, rfl⟩)).2
    · rw [mem_visibleKeys]
      exact ((removed c.entityName).mp ((reports _ _).mp ⟨c, member, action, rfl⟩)).1
  obtain ⟨after, replayed, members⟩ := replay_fits fits
  rw [replayed]
  congr 1
  ext k
  rw [members, reports, reports, added, removed, mem_visibleKeys, mem_visibleKeys]
  tauto

/-! ### The history of a bank -/

/-- The public method changes of a bank among the rows. -/
def publicOf (bank : String) (rows : List ChangeRow) : List Change :=
  ((rows.filter (fun r => r.bank = bank)).map ChangeRow.change).filter isPublicMethod
/-- The stored public method changes of a bank, in the order of import. -/
def publicMethodChanges (db : Db) (bank : String) : List Change := publicOf bank db.changes

/-- The visible keys of the first accepted import of a bank. -/
def World.start (w : World) (bank : String) : Option (Finset String) :=
  (w.acceptedOf bank).head?.map (fun a => visibleKeys (snapshotToRecords a.call.snapshot).2)

/-- The visible keys of the current snapshot of a bank, as it is read back. -/
def World.surface (order : StateOrder) (w : World) (bank : String) : Option (Finset String) :=
  (latestSnapshot w.db bank).map (fun r => visibleKeys (snapshotState order w.db r.id).2)

theorem publicOf_append (bank : String) (rows rows' : List ChangeRow) :
    publicOf bank (rows ++ rows') = publicOf bank rows ++ publicOf bank rows' := by
  simp [publicOf]

theorem publicOf_forgotten (bank : String) (rows : List ChangeRow) :
    publicOf bank (rows.map forgotten) = publicOf bank rows := by
  have kept : (rows.map forgotten).filter (fun r => r.bank = bank) =
      (rows.filter (fun r => r.bank = bank)).map forgotten := by rw [List.filter_map]; rfl
  rw [publicOf, kept, List.map_map]
  rfl

theorem changeRows_change (first snapshotId : Nat) (bank : String) (now : Nat) (changes : List Change) :
    (changeRows first snapshotId bank now changes).map ChangeRow.change = changes := by
  rw [changeRows, List.map_map]
  exact List.zipIdx_map_fst 0 changes

/-- An accepted import adds its public changes to the history of its bank. -/
theorem imported_publicMethodChanges {c : ImportCall} {db db' : Db} (imported : Imported c db db') (bank : String) :
    publicMethodChanges db' bank = publicMethodChanges db bank ++
      if c.bank = bank then (c.changes db).filter isPublicMethod else [] := by
  by_cases own : c.bank = bank
  · subst own
    have ownRows : (addedChanges c db).filter (fun r => r.bank = c.bank) = addedChanges c db :=
      List.filter_eq_self.mpr (fun r member => decide_eq_true (mem_changeRows_bank member).1)
    calc publicMethodChanges db' c.bank
        = publicOf c.bank (db'.changes.map forgotten) := (publicOf_forgotten c.bank _).symm
      _ = publicOf c.bank (db.changes ++ addedChanges c db) := by rw [imported.history, publicOf_forgotten]
      _ = publicMethodChanges db c.bank ++ publicOf c.bank (addedChanges c db) := publicOf_append c.bank _ _
      _ = publicMethodChanges db c.bank ++ if c.bank = c.bank then (c.changes db).filter isPublicMethod else [] := by
        rw [publicOf, ownRows, addedChanges, changeRows_change, if_pos rfl]
  · rw [publicMethodChanges, publicOf, imported.otherChanges bank (fun same => own same.symm), if_neg own,
      List.append_nil]
    rfl

/-- The history of the bank leads from its first accepted import to its last. -/
structure Replays (bank : String) (w : World) : Prop where
  distinct : ∀ a ∈ w.acceptedOf bank, DistinctKeys (snapshotToRecords a.call.snapshot).2
  none : w.acceptedOf bank = [] → publicMethodChanges w.db bank = []
  last : ∀ first last, (w.acceptedOf bank).head? = some first → (w.acceptedOf bank).getLast? = some last →
    replay (visibleKeys (snapshotToRecords first.call.snapshot).2) (publicMethodChanges w.db bank) =
      some (visibleKeys (snapshotToRecords last.call.snapshot).2)

theorem step_replays {bank : String} {w : World} (invariant : Invariant w) (replays : Replays bank w) {c : ImportCall}
    (distinct : c.bank = bank → DistinctKeys (snapshotToRecords c.snapshot).2) : Replays bank (w.step c) := by
  rcases step_cases w c invariant.consistent with ⟨_, _, imported, accepted⟩ | ⟨_, tables, _, accepted⟩
  · have entry := acceptedOf_step accepted bank
    have history := imported_publicMethodChanges imported bank
    by_cases own : c.bank = bank
    · subst own
      rw [if_pos rfl] at entry history
      refine ⟨fun a member => ?_, fun empty => ?_, fun first last isFirst isLast => ?_⟩
      · rw [entry] at member
        rcases List.mem_append.mp member with old | new
        · exact replays.distinct a old
        · rw [List.mem_singleton.mp new]; exact distinct rfl
      · rw [entry] at empty; simp at empty
      · rw [entry, List.getLast?_concat, Option.some.injEq] at isLast
        subst isLast
        rw [history]
        rcases previous_cases invariant c with ⟨empty, previous⟩ | ⟨a, state, isLast, previous, reads⟩
        · -- The first import of the bank is a baseline without changes.
          rw [entry, empty, List.nil_append, List.head?_cons, Option.some.injEq] at isFirst
          subst isFirst
          rw [replays.none empty, ImportCall.changes, previous]
          rfl
        · have sameFirst : (w.acceptedOf c.bank).head? = some first := by
            rw [entry] at isFirst
            cases before : w.acceptedOf c.bank with
            | nil => rw [before] at isLast; cases isLast
            | cons b rest => rw [before] at isFirst; exact isFirst
          have member : a ∈ w.acceptedOf c.bank := List.mem_of_getLast? isLast
          have distinctState : DistinctKeys state.2 :=
            (reads.2.map methodKey).nodup_iff.mpr (replays.distinct a member)
          rw [replay_append, replays.last first a sameFirst isLast, Option.bind_some, ImportCall.changes, previous,
            ← visibleKeys_perm reads.2]
          exact replay_computeChanges _ distinctState (distinct rfl)
    · rw [if_neg own, List.append_nil] at entry history
      exact ⟨by rw [entry]; exact replays.distinct, by rw [entry, history]; exact replays.none,
        by rw [entry, history]; exact replays.last⟩
  · have entry : (w.step c).acceptedOf bank = w.acceptedOf bank := by rw [World.acceptedOf, accepted]; rfl
    have history : publicMethodChanges (w.step c).db bank = publicMethodChanges w.db bank := by
      rw [publicMethodChanges, tables]; rfl
    exact ⟨by rw [entry]; exact replays.distinct, by rw [entry, history]; exact replays.none,
      by rw [entry, history]; exact replays.last⟩

/-- After any calls, for any banks and however they end, the bank has a current
    snapshot when one of its imports was accepted, and replaying its public history
    from the first accepted import gives the visible keys of the current snapshot. -/
theorem execute_replays (bank : String) (calls : List ImportCall) (order : StateOrder)
    (distinct : ∀ c ∈ calls, c.bank = bank → DistinctKeys (snapshotToRecords c.snapshot).2) :
    ((World.start (execute calls) bank).isSome = (World.surface order (execute calls) bank).isSome) ∧
      (World.start (execute calls) bank).bind (fun start =>
        replay start (publicMethodChanges (execute calls).db bank)) = World.surface order (execute calls) bank := by
  have invariant := execute_invariant calls
  have replays : Replays bank (execute calls) := by
    refine execute_induction (P := Replays bank) ⟨by simp [World.acceptedOf], fun _ => rfl, by simp [World.acceptedOf]⟩
      calls (fun w c member held kept => step_replays held kept (distinct c member))
  have found := latestSnapshot_stored invariant.consistent bank
  rw [invariant.last] at found
  cases accepted : (execute calls).acceptedOf bank using List.reverseRecOn with
  | nil =>
    rw [accepted] at found
    have none := Option.map_eq_none_iff.mp found
    simp [World.start, World.surface, accepted, none]
  | append_singleton earlier last =>
    rw [accepted, List.getLast?_concat] at found
    obtain ⟨r, latest, image⟩ := Option.map_eq_some_iff.mp found
    obtain ⟨first, isFirst⟩ : ∃ first, (earlier ++ [last]).head? = some first := by
      cases earlier with
      | nil => exact ⟨last, rfl⟩
      | cons a rest => exact ⟨a, rfl⟩
    have reads : ReadsAs (snapshotState order (execute calls).db r.id) last.call.snapshot :=
      readsAs_of_servicesOf invariant.consistent (congrArg StoredSnapshot.services image) order
    have replayed := replays.last first last (by rw [accepted, isFirst]) (by rw [accepted, List.getLast?_concat])
    simp [World.start, World.surface, accepted, isFirst, latest, replayed, visibleKeys_perm reads.2]

theorem execute_replays_twoDays :
    ((World.start (execute twoDays) "alfa").isSome = (World.surface {} (execute twoDays) "alfa").isSome) ∧
      (World.start (execute twoDays) "alfa").bind (fun start =>
        replay start (publicMethodChanges (execute twoDays).db "alfa")) = World.surface {} (execute twoDays) "alfa" :=
  execute_replays "alfa" twoDays {} (by simp only [DistinctKeys]; decide +kernel)

end ScanApi.PublicHistory
