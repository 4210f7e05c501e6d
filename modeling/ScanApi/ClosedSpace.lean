import ScanApi.Noninterference
import ScanApi.TBank

/-!
The closed space of T-Bank and what is public. A service shows its first link and its
visible methods (`Face`), and merging services that are all hidden changes no face
(`faces_merge_hidden`). So a snapshot of T-Bank has the same public part whatever the
closed space holds, and over any history of accepted imports the public lists, counts
and benchmark are the same (`closed_space_unseen`).
-/
namespace ScanApi.ClosedSpace
open ScanApi.Raising ScanApi.Yaml ScanApi.Python ScanApi.Refs ScanApi.OpenApi ScanApi.AlikeSpecs ScanApi.BankSpecs ScanApi.TBank
  ScanApi.MapM
open ScanApi.ReorderedSnapshots (asciiText)
open ScanApi.Diff ScanApi.Database ScanApi.SnapshotImport ScanApi.ImportEffect ScanApi.Stored ScanApi.ImportStep ScanApi.ImportRuns
  ScanApi.PublicQueries ScanApi.Noninterference

/-! ### What a service shows -/

section
variable {κ α : Type}

/-- What is shown of a service: its name, its first method and its visible ones. -/
structure Face (κ α : Type) where
  name : κ
  first : Option α
  visible : List α

variable (isHidden : α → Bool)

/-- A service is hidden if it has methods and all of them are. -/
def face (e : κ × List α) : Option (Face κ α) :=
  if serviceIsHidden (e.2.map isHidden) then none
  else some { name := e.1, first := e.2.head?, visible := e.2.filter (fun m => !isHidden m) }

theorem face_append {k : κ} {old added : List α} (nonempty : old ≠ []) (allHidden : ∀ m ∈ added, isHidden m = true) :
    face isHidden (k, old ++ added) = face isHidden (k, old) := by
  have more : added.all isHidden = true := List.all_eq_true.mpr allHidden
  have nothing : added.filter (fun m => !isHidden m) = [] := by
    rw [List.filter_eq_nil_iff]
    intro m inside
    simp [allHidden m inside]
  have shown : (old ++ added).filter (fun m => !isHidden m) = old.filter (fun m => !isHidden m) := by
    rw [List.filter_append, nothing, List.append_nil]
  have hidden : serviceIsHidden ((old ++ added).map isHidden) = serviceIsHidden (old.map isHidden) := by
    obtain ⟨a, rest, rfl⟩ := List.exists_cons_of_ne_nil nonempty
    simp only [serviceIsHidden, List.all_map, List.all_append, Function.id_comp, more, Bool.and_true]
    rfl
  simp only [face, hidden, shown, List.head?_append_of_ne_nil _ nonempty]

theorem face_hidden {k : κ} {added : List α} (nonempty : added ≠ []) (allHidden : ∀ m ∈ added, isHidden m = true) :
    face isHidden (k, added) = none := by
  obtain ⟨a, rest, rfl⟩ := List.exists_cons_of_ne_nil nonempty
  have all : (a :: rest).all isHidden = true := List.all_eq_true.mpr allHidden
  simpa [face, serviceIsHidden, List.all_map] using all

/-- Every service has a method. -/
def Filled (services : Dict κ (List α)) : Prop := ∀ e ∈ services.entries, e.2 ≠ []

/-- What all services show. -/
def faces (services : Dict κ (List α)) : List (Face κ α) := services.entries.filterMap (face isHidden)

variable [DecidableEq κ] {services extra : Dict κ (List α)}

theorem filled_extend (filled : Filled services) {k : κ} {added : List α} (nonempty : added ≠ []) :
    Filled (services.extend k added) := by
  intro e inside
  have found := Dict.get?_eq_some.mpr (show (e.1, e.2) ∈ _ from inside)
  rw [Dict.get?_extend] at found
  split at found
  · rw [← Option.some.inj found]
    exact List.append_ne_nil_of_right_ne_nil _ nonempty
  · exact filled e (Dict.get?_eq_some.mp found)

theorem faces_extend_hidden (filled : Filled services) {k : κ} {added : List α} (nonempty : added ≠ [])
    (allHidden : ∀ m ∈ added, isHidden m = true) : faces isHidden (services.extend k added) = faces isHidden services := by
  rw [faces, faces, Dict.extend, Dict.set]
  split
  · rw [Dict.mapValues, List.filterMap_map]
    refine List.filterMap_congr (fun e inside => ?_)
    by_cases here : e.1 = k
    · subst here
      have found : services.get? e.1 = some e.2 := Dict.get?_eq_some.mpr inside
      simp only [Function.comp_apply, if_true, found, Option.getD_some]
      exact face_append isHidden (filled e inside) allHidden
    · simp only [Function.comp_apply, here, if_false]
  · rename_i new
    rw [Dict.snoc, Dict.get?_eq_none.mpr new, Option.getD_none, List.nil_append, List.filterMap_append,
      List.filterMap_cons_none (face_hidden isHidden nonempty allHidden), List.filterMap_nil, List.append_nil]

theorem filled_merge (filled : Filled services) (more : Filled extra) : Filled (merge services extra) := by
  have nonempty : ∀ e ∈ extra.entries, e.2 ≠ [] := more
  rw [merge]
  generalize extra.entries = entries at nonempty
  induction entries generalizing services with
  | nil => exact filled
  | cons e rest ih =>
    obtain ⟨first, others⟩ := List.forall_mem_cons.mp nonempty
    exact ih (filled_extend filled first) others

/-- Services that are merged in and all hidden leave what is shown as it is. -/
theorem faces_merge_hidden (filled : Filled services)
    (hidden : ∀ e ∈ extra.entries, e.2 ≠ [] ∧ ∀ m ∈ e.2, isHidden m = true) :
    faces isHidden (merge services extra) = faces isHidden services := by
  rw [merge]
  generalize extra.entries = entries at hidden
  induction entries generalizing services with
  | nil => rfl
  | cons e rest ih =>
    obtain ⟨⟨nonempty, allHidden⟩, others⟩ := List.forall_mem_cons.mp hidden
    rw [List.foldl_cons, ih (filled_extend filled nonempty) others]
    exact faces_extend_hidden isHidden filled nonempty allHidden

end

/-! ### The services of T-Bank -/

theorem filled_groupBy {α κ ν : Type} [DecidableEq κ] (key : α → κ) (val : α → ν) (l : List α) :
    Filled (Dict.groupBy key val l) := by
  induction l using List.reverseRecOn with
  | nil => intro e inside; cases inside
  | append_singleton l a ih =>
    rw [Dict.groupBy_snoc]
    exact filled_extend ih (by simp)

theorem filled_mapValues {κ α β : Type} {services : Dict κ (List α)} (filled : Filled services) (f : α → β) :
    Filled (services.mapValues (fun _ methods => methods.map f)) := by
  intro e inside
  obtain ⟨e', member, rfl⟩ := List.mem_map.mp inside
  simpa using filled e' member

section
variable {src : Source (Except PyError)}

theorem filled_space {specUrl portalBase : String} {services : Dict Scalar (List RawMethod)}
    (parsed : parseSpace src specUrl portalBase = .ok services) : Filled services := by
  obtain ⟨spec, -, parsed⟩ := bind_ok.mp parsed
  obtain ⟨spec', -, parsed⟩ := bind_ok.mp parsed
  rw [parseOpenapiSpec, ← bind_pure_comp] at parsed
  obtain ⟨methods, -, parsed⟩ := bind_ok.mp parsed
  obtain rfl := pure_ok.mp parsed
  exact filled_groupBy _ _ _

theorem filled_shownSpaces {services : Dict Scalar (List ListedMethod)} (parsed : shownSpaces src = .ok services) :
    Filled services := by
  obtain ⟨tapi, first, parsed⟩ := bind_ok.mp parsed
  obtain ⟨partner, second, parsed⟩ := bind_ok.mp parsed
  obtain rfl := pure_ok.mp parsed
  have start : Filled (Dict.empty : Dict Scalar (List ListedMethod)) := fun e inside => nomatch inside
  exact filled_merge (filled_merge start (filled_mapValues (filled_space first) _)) (filled_mapValues (filled_space second) _)

/-- What is shown of T-Bank is what its two open spaces show. -/
theorem faces_parse {services : Dict Scalar (List ListedMethod)} (parsed : parse src = .ok services) :
    ∃ shown, shownSpaces src = .ok shown ∧ faces ListedMethod.hidden services = faces ListedMethod.hidden shown := by
  obtain ⟨shown, opened, parsed⟩ := bind_ok.mp parsed
  obtain ⟨closed, closing, parsed⟩ := bind_ok.mp parsed
  obtain rfl := pure_ok.mp parsed
  refine ⟨shown, opened, faces_merge_hidden _ (filled_shownSpaces opened) (fun e inside => ?_)⟩
  obtain ⟨e', member, rfl⟩ := List.mem_map.mp inside
  refine ⟨by simpa using filled_space closing e' member, fun m listed => ?_⟩
  obtain ⟨_, _, rfl⟩ := List.mem_map.mp listed
  rfl

end

/-! ### Snapshots of the declared types -/

/-- The method, where its names and texts are texts. -/
def declaredListed (m : ListedMethod) : Option ApiMethod :=
  (declaredMethod m.toRawMethod).map (fun method => { method with hidden := m.hidden, hiddenReason := m.hiddenReason })

def declaredServices (e : Scalar × List ListedMethod) : Option (String × List ApiMethod) := do
  let name ← scalarText e.1
  let methods ← e.2.mapM declaredListed
  return (name, methods)

/-- The snapshot of T-Bank, where all names and texts are texts. -/
def snapshot (src : Source (Except PyError)) : Option ParseSnapshot := do
  let services ← (parse src).toOption
  let entries ← services.entries.mapM declaredServices
  return ⟨Dict.ofEntries entries⟩

theorem scalarText_some {value : Scalar} {text : String} : scalarText value = some text ↔ value = .str text := by
  cases value <;> simp [scalarText]

theorem declaredListed_hidden {m : ListedMethod} {method : ApiMethod} (made : declaredListed m = some method) :
    method.hidden = m.hidden := by
  obtain ⟨_, _, rfl⟩ := Option.map_eq_some_iff.mp made
  rfl

/-- One face in the declared types. -/
structure DeclaredFace (f : Face Scalar ListedMethod) (f' : Face String ApiMethod) : Prop where
  name : scalarText f.name = some f'.name
  first : Option.Rel (fun m method => declaredListed m = some method) f.first f'.first
  visible : List.Forall₂ (fun m method => declaredListed m = some method) f.visible f'.visible

theorem declaredFace_unique {f : Face Scalar ListedMethod} {f' g' : Face String ApiMethod} (here : DeclaredFace f f')
    (there : DeclaredFace f g') : f' = g' := by
  have unique : Relator.RightUnique (fun m method => declaredListed m = some method) :=
    fun m method method' made made' => Option.some.inj (made.symm.trans made')
  obtain ⟨name, first, visible⟩ := here
  obtain ⟨name', first', visible'⟩ := there
  obtain ⟨n, a, l⟩ := f
  obtain ⟨n', a', l'⟩ := f'
  obtain ⟨n'', a'', l''⟩ := g'
  obtain rfl : n' = n'' := Option.some.inj (name.symm.trans name')
  obtain rfl : l' = l'' := List.right_unique_forall₂' unique visible visible'
  have same : a' = a'' := by
    cases first with
    | none => cases first'; rfl
    | some made =>
      cases first' with
      | some made' => rw [unique made made']
  rw [same]

section
variable {methods : List ListedMethod} {made : List ApiMethod}
  (each : List.Forall₂ (fun m method => declaredListed m = some method) methods made)
include each

theorem flags_declared : methods.map ListedMethod.hidden = made.map ApiMethod.hidden := by
  induction each with
  | nil => rfl
  | cons pair _ ih => rw [List.map_cons, List.map_cons, ih, declaredListed_hidden pair]

theorem visible_declared : List.Forall₂ (fun m method => declaredListed m = some method)
    (methods.filter (fun m => !m.hidden)) (made.filter (fun m => !m.hidden)) := by
  induction each with
  | nil => exact .nil
  | cons pair _ ih =>
    rw [List.filter_cons, List.filter_cons, declaredListed_hidden pair]
    split
    · exact .cons pair ih
    · exact ih

end

theorem declaredServices_face {e : Scalar × List ListedMethod} {e' : String × List ApiMethod}
    (made : declaredServices e = some e') : Option.Rel DeclaredFace (face ListedMethod.hidden e) (face ApiMethod.hidden e') := by
  obtain ⟨key, methods⟩ := e
  obtain ⟨name, named, made⟩ := Option.bind_eq_some_iff.mp made
  obtain ⟨methods', mapped, made⟩ := Option.bind_eq_some_iff.mp made
  obtain rfl := Option.some.inj made
  have each : List.Forall₂ (fun m method => declaredListed m = some method) methods methods' := forall₂_mapM mapped
  simp only [face, flags_declared each]
  split
  · exact .none
  · refine .some ⟨named, ?_, visible_declared each⟩
    cases each with
    | nil => exact .none
    | cons pair _ => exact .some pair

/-- Snapshots of services that show the same show the same. -/
theorem faces_declared {services services' : Dict Scalar (List ListedMethod)} {entries entries' : List (String × List ApiMethod)}
    (same : faces ListedMethod.hidden services = faces ListedMethod.hidden services')
    (declared : services.entries.mapM declaredServices = some entries)
    (declared' : services'.entries.mapM declaredServices = some entries') :
    entries.filterMap (face ApiMethod.hidden) = entries'.filterMap (face ApiMethod.hidden) := by
  have images := List.rel_filterMap (fun _ _ made => declaredServices_face made) (forall₂_mapM declared)
  have images' := List.rel_filterMap (fun _ _ made => declaredServices_face made) (forall₂_mapM declared')
  rw [faces, faces] at same
  rw [same] at images
  have unique : Relator.RightUnique DeclaredFace := fun _ _ _ => declaredFace_unique
  exact List.right_unique_forall₂' unique images images'

theorem entries_declared {services : Dict Scalar (List ListedMethod)} {entries : List (String × List ApiMethod)}
    (declared : services.entries.mapM declaredServices = some entries) : (Dict.ofEntries entries).entries = entries := by
  have names : services.entries.map Prod.fst = (entries.map Prod.fst).map .str := by
    have each := forall₂_mapM declared
    generalize services.entries = rows at each
    clear declared
    induction each with
    | nil => rfl
    | cons pair _ ih =>
      obtain ⟨name, named, pair⟩ := Option.bind_eq_some_iff.mp pair
      obtain ⟨methods, -, pair⟩ := Option.bind_eq_some_iff.mp pair
      obtain rfl := Option.some.inj pair
      rw [List.map_cons, List.map_cons, List.map_cons, ih, scalarText_some.mp named]
  refine Dict.entries_ofEntries (List.Nodup.of_map Scalar.str ?_)
  rw [← names]
  exact services.distinct

/-- The public part and the links of a snapshot are what its services show. -/
theorem public_faces (snapshot : ParseSnapshot) :
    publicServices snapshot = (faces ApiMethod.hidden snapshot.services).map (fun f => (f.name, f.visible)) ∧
      publicLinks snapshot = (faces ApiMethod.hidden snapshot.services).map
        (fun f => (f.name, (f.first.map ApiMethod.urlOnPortal).getD "")) := by
  rw [publicServices, publicLinks, faces]
  induction snapshot.services.entries with
  | nil => exact ⟨rfl, rfl⟩
  | cons e rest ih =>
    rw [List.filter_cons, List.filterMap_cons, isPublic, face]
    cases serviceIsHidden (e.2.map ApiMethod.hidden) with
    | true => exact ih
    | false => exact ⟨congrArg (_ :: ·) ih.1, congrArg (_ :: ·) ih.2⟩

/-- The same pages, but for the spec of the closed space. -/
def withClosed (src : Source (Except PyError)) (page : Except PyError String) : Source (Except PyError) :=
  { src with getCappedText := fun url => if url = specUrlPrivate then page else src.getCappedText url }

theorem shownSpaces_withClosed (src : Source (Except PyError)) (page : Except PyError String) :
    shownSpaces (withClosed src page) = shownSpaces src := by
  have tapi : specUrlTapi ≠ specUrlPrivate := by decide +kernel
  have partner : specUrlPartner ≠ specUrlPrivate := by decide +kernel
  have space : ∀ url base, url ≠ specUrlPrivate → parseSpace (withClosed src page) url base = parseSpace src url base := by
    intro url base other
    have fetched : fetchSpec (withClosed src page) url = fetchSpec src url := by
      simp only [fetchSpec, withClosed, if_neg other]
      rfl
    rw [parseSpace, fetched]
    rfl
  rw [shownSpaces, space _ _ tapi, space _ _ partner]
  rfl

theorem public_withClosed {src : Source (Except PyError)} {page : Except PyError String} {made made' : ParseSnapshot}
    (read : snapshot src = some made) (read' : snapshot (withClosed src page) = some made') :
    publicServices made = publicServices made' ∧ publicLinks made = publicLinks made' := by
  obtain ⟨services, parsed, read⟩ := Option.bind_eq_some_iff.mp read
  obtain ⟨entries, declared, read⟩ := Option.bind_eq_some_iff.mp read
  obtain ⟨services', parsed', read'⟩ := Option.bind_eq_some_iff.mp read'
  obtain ⟨entries', declared', read'⟩ := Option.bind_eq_some_iff.mp read'
  obtain rfl := Option.some.inj read
  obtain rfl := Option.some.inj read'
  obtain ⟨shown, opened, same⟩ := faces_parse (toOption_some.mp parsed)
  obtain ⟨shown', opened', same'⟩ := faces_parse (toOption_some.mp parsed')
  rw [shownSpaces_withClosed, opened, Except.ok.injEq] at opened'
  subst opened'
  have faced : faces ApiMethod.hidden (Dict.ofEntries entries) = faces ApiMethod.hidden (Dict.ofEntries entries') := by
    rw [faces, faces, entries_declared declared, entries_declared declared']
    exact faces_declared (same.trans same'.symm) declared declared'
  rw [(public_faces _).1, (public_faces _).1, (public_faces _).2, (public_faces _).2, faced]
  exact ⟨rfl, rfl⟩

/-! ### Two histories of imports -/

/-- Two imports with the same public part and the same links. -/
structure SamePublicCall (c c' : ImportCall) : Prop extends SameCall c c' where
  services : publicServices c.snapshot = publicServices c'.snapshot
  links : publicLinks c.snapshot = publicLinks c'.snapshot

/-- What two worlds have in common. -/
structure Twins (w w' : World) : Prop where
  sequence : w.db.sequences.snapshots = w'.db.sequences.snapshots
  visible : SameVisible w.db w'.db

theorem applied_snapshots_twins {c c' : ImportCall} {db db' : Db} (consistent : Consistent db) (consistent' : Consistent db')
    (same : SameCall c c') (rows : db.snapshots = db'.snapshots) (sequence : db.sequences.snapshots = db'.sequences.snapshots) :
    (c.applied db).snapshots = (c'.applied db').snapshots := by
  have stored : (c.stored db).snapshots = (c'.stored db').snapshots := by
    rw [(stored_adds consistent).2.2.1, (stored_adds consistent').2.2.1, rows, sequence, same.bank, same.now]
  have old : c.oldIds (c.stored db) = c'.oldIds (c'.stored db') := by
    simp only [ImportCall.oldIds, Repository.snapshotsForCleanup, stored, same.bank, same.keep]
  rw [applied_snapshots, applied_snapshots, stored, old]

theorem applied_twins {c c' : ImportCall} {db db' : Db} (consistent : Consistent db) (consistent' : Consistent db')
    (same : SamePublicCall c c') (visible : SameVisible db db') (sequence : db.sequences.snapshots = db'.sequences.snapshots) :
    SameVisible (c.applied db) (c'.applied db') := by
  have rows := applied_snapshots_twins consistent consistent' same.toSameCall visible.snapshots sequence
  refine ⟨rows, fun r inside => ?_⟩
  have inside' : r ∈ (c'.applied db').snapshots := rows ▸ inside
  rw [applied_services consistent inside, applied_services consistent' inside', ← sequence]
  split
  · rw [visiblePart_content, visiblePart_content, same.links, same.services]
  · rename_i old
    have added := (List.mem_filter.mp inside).1
    rw [(stored_adds consistent).2.2.1, List.mem_append, List.mem_singleton] at added
    rcases added with before | rfl
    · exact visible.services r before
    · exact absurd rfl old

theorem step_accepted_le (w : World) (c : ImportCall) : (w.step c).accepted.length ≤ w.accepted.length + 1 := by
  rw [World.step]
  split <;> simp

theorem accepted_le (calls : List ImportCall) : ∀ w : World,
    (calls.foldl World.step w).accepted.length ≤ w.accepted.length + calls.length := by
  induction calls with
  | nil => intro w; exact le_rfl
  | cons c rest ih =>
    intro w
    have first := step_accepted_le w c
    have others := ih (w.step c)
    rw [List.foldl_cons, List.length_cons]
    omega

/-- The step of a call that is accepted. -/
theorem step_accepted {w : World} {c : ImportCall} (invariant : Invariant w)
    (more : (w.step c).accepted.length = w.accepted.length + 1) :
    (w.step c).db = c.applied w.db ∧ (w.step c).db.sequences.snapshots = w.db.sequences.snapshots + 1 := by
  rcases outcome : c.run w.db with ⟨failure | visible, db⟩
  · rw [World.step, outcome] at more
    simp at more
  · obtain ⟨-, -, after⟩ := run_ok outcome
    have applied : (w.step c).db = c.applied w.db := by rw [World.step, outcome]; exact after
    exact ⟨applied, by rw [applied]; exact (applied_imported invariant.consistent).sequence⟩

theorem twins_run {calls calls' : List ImportCall} (pairs : List.Forall₂ SamePublicCall calls calls') :
    ∀ {w w' : World}, Invariant w → Invariant w' → Twins w w' →
      (calls.foldl World.step w).accepted.length = w.accepted.length + calls.length →
      (calls'.foldl World.step w').accepted.length = w'.accepted.length + calls'.length →
      Twins (calls.foldl World.step w) (calls'.foldl World.step w') := by
  induction pairs with
  | nil => intro w w' _ _ twins _ _; exact twins
  | @cons c c' rest rest' pair _ ih =>
    intro w w' invariant invariant' twins all all'
    rw [List.foldl_cons, List.length_cons] at all all'
    -- No call before the last is lost either.
    have first : (w.step c).accepted.length = w.accepted.length + 1 := by
      have bound := step_accepted_le w c
      have others := accepted_le rest (w.step c)
      omega
    have first' : (w'.step c').accepted.length = w'.accepted.length + 1 := by
      have bound := step_accepted_le w' c'
      have others := accepted_le rest' (w'.step c')
      omega
    obtain ⟨applied, next⟩ := step_accepted invariant first
    obtain ⟨applied', next'⟩ := step_accepted invariant' first'
    refine ih (step_invariant invariant c) (step_invariant invariant' c') ⟨?_, ?_⟩ (by omega) (by omega)
    · rw [next, next', twins.sequence]
    · rw [applied, applied']
      exact applied_twins invariant.consistent invariant'.consistent pair twins.visible twins.sequence

theorem execute_twins {calls calls' : List ImportCall} (pairs : List.Forall₂ SamePublicCall calls calls')
    (all : (execute calls).accepted.length = calls.length) (all' : (execute calls').accepted.length = calls'.length) :
    SameQueries (execute calls).db (execute calls').db := by
  have start : Twins {} {} := ⟨rfl, ⟨rfl, fun r member => nomatch member⟩⟩
  have twins : Twins (execute calls) (execute calls') :=
    twins_run pairs invariant_start invariant_start start (by simpa [execute] using all) (by simpa [execute] using all')
  exact sameQueries_of_visible (execute_invariant calls).consistent (execute_invariant calls').consistent twins.visible

/-- The same import, or imports of T-Bank that saw other specs of the closed space. -/
inductive ClosedDiffers : ImportCall → ImportCall → Prop
  | same (c : ImportCall) : ClosedDiffers c c
  | closed {c c' : ImportCall} (call : SameCall c c') (src : Source (Except PyError)) (page : Except PyError String)
      (read : snapshot src = some c.snapshot) (read' : snapshot (withClosed src page) = some c'.snapshot) : ClosedDiffers c c'

/-- Nothing of the closed space reaches the public lists, counts and benchmark: over
    accepted imports of any banks, of which those of T-Bank see whatever specs of its
    closed space, they are the same. -/
theorem closed_space_unseen {calls calls' : List ImportCall} (pairs : List.Forall₂ ClosedDiffers calls calls')
    (all : (execute calls).accepted.length = calls.length) (all' : (execute calls').accepted.length = calls'.length) :
    SameQueries (execute calls).db (execute calls').db := by
  refine execute_twins (pairs.imp (fun c c' differs => ?_)) all all'
  cases differs with
  | same => exact ⟨⟨rfl, rfl, rfl, rfl⟩, rfl, rfl⟩
  | closed call src page read read' =>
    obtain ⟨services, links⟩ := public_withClosed read read'
    exact ⟨call, services, links⟩

/-! ### A portal with two closed spaces -/

def closedSpec (path tag : String) : Entries := [
  (.str "paths", .map [(.str path, .map [(.str "post", .map [(.str "tags", .list [.scalar (.str tag)])])])])]

/-- Texts stand for the specs that they load as. -/
def portal : Source (Except PyError) where
  text := asciiText
  jsonLoads _ := .error .valueError
  yamlSafeLoad text := .ok (.map (
    if text = "open" then openSpec
    else if text = "closed" then closedSpec "/v1/internal" "Кредиты. Заявки" else closedSpec "/v2/internal" "Новое"))
  loadReason _ := ""
  getCappedText url := .ok (if url = specUrlPrivate then "closed" else "open")
  requestReason _ := .ok ""
  docs := noFiles (Except PyError)

def importOf (made : ParseSnapshot) : ImportCall where
  bank := "tbank"
  snapshot := made
  minRatio := 1 / 2
  keep := 2

/-- The import of a snapshot is accepted. -/
def isAccepted (made : ParseSnapshot) : Bool := (execute [importOf made]).accepted.length = 1

theorem closed_space_unseen_portal : ∃ made made', snapshot portal = some made ∧
    snapshot (withClosed portal (.ok "other")) = some made' ∧
      SameQueries (execute [importOf made]).db (execute [importOf made']).db := by
  have accepted : (snapshot portal).any isAccepted = true := by decide +kernel
  have accepted' : (snapshot (withClosed portal (.ok "other"))).any isAccepted = true := by decide +kernel
  obtain ⟨made, read, all⟩ := (Option.any_eq_true _ _).mp accepted
  obtain ⟨made', read', all'⟩ := (Option.any_eq_true _ _).mp accepted'
  refine ⟨made, made', read, read', ?_⟩
  have pair : ClosedDiffers (importOf made) (importOf made') :=
    .closed ⟨rfl, rfl, rfl, rfl⟩ portal (.ok "other") read read'
  exact closed_space_unseen (.cons pair .nil) (of_decide_eq_true all) (of_decide_eq_true all')

end ScanApi.ClosedSpace
