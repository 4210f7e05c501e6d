import ScanApi.AlikeSpecs
import ScanApi.Growth

/-!
A pass over the tags of a spec, which two parsers make before they parse it: the
tags of every operation are replaced, and a tag names the service that a method is
listed under. Nothing else reads the tags, so the pass renames services and leaves
every method as it is, whatever references the spec has and whatever is fetched for
them (`specMethods_retagged`).
-/
namespace ScanApi.TagPass
open ScanApi.Raising ScanApi.Coupling ScanApi.Yaml ScanApi.Python ScanApi.Refs ScanApi.OpenApi ScanApi.AlikeSpecs
open ScanApi.Growth (lookup_cons)

/-! ### The pass -/

/-- `operation["tags"] = tags`. -/
def withTags (operation : Entries) (tags : List Node) : Entries := setItem operation (.str "tags") (.list tags)

/-- An entry of a path: the operations of known verbs are tagged anew. -/
def retagEntry (newTags : Entries → Except PyError (List Node)) : Scalar × Node → Except PyError (Scalar × Node)
  | (.str verb, .map operation) =>
    if (upperVerb verb).isSome then do
      let tags ← newTags operation
      return (.str verb, .map (withTags operation tags))
    else return (.str verb, .map operation)
  | e => return e

def retagPath (newTags : Entries → Except PyError (List Node)) (e : Scalar × Node) : Except PyError (Scalar × Node) :=
  match e.2 with
  | .map pathItem => do
    let pathItem ← pathItem.mapM (retagEntry newTags)
    return (e.1, .map pathItem)
  | _ => return e

/-- The spec with the tags of all its operations replaced. -/
def retag (newTags : Entries → Except PyError (List Node)) (spec : Entries) : Except PyError Entries := do
  let paths ← get "paths" (.map []) (.map spec)
  let paths ← items paths
  let paths ← paths.mapM (retagPath newTags)
  return if (lookup spec "paths").isSome then setItem spec (.str "paths") (.map paths) else spec

/-! ### Tags that are texts -/

def textNode (name : String) : Node := .scalar (.str name)

/-- The operation has these tags, or none at all. -/
def HasTags (operation : Entries) (names : List String) : Prop :=
  lookup operation "tags" = some (.list (names.map textNode)) ∨
    (names = [] ∧ (lookup operation "tags" = none ∨ lookup operation "tags" = some pyNone))

/-- The services that an operation with these tags is listed under. -/
def serviceNames (names : List String) : List String := if names = [] then ["Без тега"] else names

/-- An entry of the spec that the parser reads as an operation. -/
def IsOperation (paths : Entries) (operation : Entries) : Prop :=
  ∃ path item verb, (path, Node.map item) ∈ paths ∧ (Scalar.str verb, Node.map operation) ∈ item ∧ (upperVerb verb).isSome

/-- No path is named like a keyword, and every operation says something and has texts as tags. -/
structure Plain (paths : Entries) : Prop where
  named : ∀ key ∈ readKeys, lookup paths key = none
  operations : ∀ operation, IsOperation paths operation → operation ≠ [] ∧ ∃ names, HasTags operation names

/-- The pass gives every operation the services under their new names. -/
def Renames (newTags : Entries → Except PyError (List Node)) (rename : String → String) : Prop :=
  ∀ operation names tags, HasTags operation names → newTags operation = .ok tags →
    ∃ names', tags = names'.map textNode ∧ serviceNames names' = (serviceNames names).map rename

/-- A method under the new name of its service. -/
def renamed (rename : String → String) (method : RawMethod) : RawMethod :=
  { method with serviceName := match method.serviceName with
    | .str name => .str (rename name)
    | other => other }

theorem tagsOf_hasTags {operation : Entries} {names : List String} (has : HasTags operation names) :
    tagsOf (.map operation) = .ok ((serviceNames names).map textNode) := by
  rcases has with listed | ⟨rfl, absent | null⟩
  · simp only [tagsOf, get?, Python.get, listed, Option.getD_some, ok_bind]
    cases names with
    | nil => rfl
    | cons name rest => rfl
  · simp only [tagsOf, get?, Python.get, absent, ok_bind]
    rfl
  · simp only [tagsOf, get?, Python.get, null, ok_bind]
    rfl

/-! ### Lookups -/

theorem keyOf_eq_str {value : Scalar} {key : String} (same : keyOf value = .str key) : value = .str key := by
  cases value with
  | float repr =>
    simp only [keyOf] at same
    cases whole : wholeFloat repr with
    | none => rw [whole] at same; cases same
    | some n => rw [whole] at same; cases same
  | _ => cases same <;> rfl

theorem lookup_setItem (entries : Entries) (key key' : String) (value : Node) :
    lookup (setItem entries (.str key) value) key' = if key' = key then some value else lookup entries key' := by
  have kept : ∀ l : Entries, lookup (l.map (fun e => if keyOf e.1 = keyOf (.str key) then (e.1, value) else e)) key' =
      if key' = key then (if hasKey l (.str key) then some value else none) else lookup l key' := by
    intro l
    induction l with
    | nil => simp [lookup, hasKey]
    | cons e rest ih =>
      rw [List.map_cons, lookup_cons, lookup_cons, ih]
      by_cases here : keyOf e.1 = keyOf (.str key)
      · obtain ⟨name, old⟩ := e
        obtain rfl := keyOf_eq_str here
        by_cases same : key' = key
        · subst same; simp [hasKey]
        · simp [same, Ne.symm same]
      · have other : e.1 ≠ .str key := fun same => here (by rw [same])
        by_cases same : key' = key
        · subst same
          simp only [here, other, if_false, if_true, hasKey, List.any_cons, decide_false, Bool.false_or]
          rfl
        · simp only [here, if_false, same]
  unfold setItem
  split
  · rename_i present
    rw [kept, present]
    rfl
  · rename_i absent
    rw [Growth.lookup_append, lookup_cons]
    by_cases same : key' = key
    · subst same
      have missing : lookup entries key' = none := by
        rw [lookup, Option.map_eq_none_iff, List.find?_eq_none]
        intro e member found
        refine absent (List.any_eq_true.mpr ⟨e, member, ?_⟩)
        rw [of_decide_eq_true found]
        simp
      simp [missing]
    · simp [same, Ne.symm same, lookup]

theorem setItem_ne_nil (entries : Entries) (key : Scalar) (value : Node) : (setItem entries key value).isEmpty = false := by
  unfold setItem
  split
  · rename_i present
    cases entries with
    | nil => cases present
    | cons e rest => rfl
  · cases entries <;> rfl

/-- Lists with the same keys, entry by entry. -/
theorem lookup_forall₂ {Q : Scalar × Node → Scalar × Node → Prop} (keys : ∀ e e', Q e e' → e.1 = e'.1) {l l' : Entries}
    (related : List.Forall₂ Q l l') (key : String) :
    (lookup l key = none ∧ lookup l' key = none) ∨
      ∃ value value', lookup l key = some value ∧ lookup l' key = some value' ∧ (Scalar.str key, value) ∈ l ∧
        Q (.str key, value) (.str key, value') := by
  induction related with
  | nil => exact .inl ⟨rfl, rfl⟩
  | @cons e e' _ _ pair _ ih =>
    rw [lookup_cons, lookup_cons, ← keys e e' pair]
    by_cases here : e.1 = .str key
    · obtain ⟨name, value⟩ := e
      obtain ⟨name', value'⟩ := e'
      obtain rfl : name = .str key := here
      obtain rfl : Scalar.str key = name' := keys _ _ pair
      exact .inr ⟨value, value', if_pos rfl, if_pos rfl, List.mem_cons_self, pair⟩
    · rw [if_neg here, if_neg here]
      rcases ih with ⟨absent, absent'⟩ | ⟨value, value', found, found', member, related⟩
      · exact .inl ⟨absent, absent'⟩
      · exact .inr ⟨value, value', found, found', List.mem_cons_of_mem _ member, related⟩

theorem forall₂_mapM_ok {α β : Type} {f : α → Except PyError β} : ∀ {l : List α} {l' : List β}, l.mapM f = .ok l' →
    List.Forall₂ (fun a b => f a = .ok b) l l' := by
  intro l
  induction l with
  | nil =>
    intro l' mapped
    obtain rfl := pure_ok.mp mapped
    exact .nil
  | cons a rest ih =>
    intro l' mapped
    rw [List.mapM_cons] at mapped
    obtain ⟨b, first, mapped⟩ := bind_ok.mp mapped
    obtain ⟨others, looped, mapped⟩ := bind_ok.mp mapped
    obtain rfl := pure_ok.mp mapped
    exact .cons first (ih looped)

theorem exists_of_forall₂ {α β : Type} {Q : α → β → Prop} {l : List α} {l' : List β} (related : List.Forall₂ Q l l') {b : β}
    (member : b ∈ l') : ∃ a, Q a b := by
  induction related with
  | nil => cases member
  | cons pair _ ih =>
    rcases List.mem_cons.mp member with rfl | inside
    · exact ⟨_, pair⟩
    · exact ih inside

theorem exists_mapM_ok {α β : Type} {f : α → Except PyError β} : ∀ {l : List α}, (∀ a ∈ l, ∃ b, f a = .ok b) →
    ∃ l', l.mapM f = .ok l' := by
  intro l
  induction l with
  | nil => intro _; exact ⟨[], rfl⟩
  | cons a rest ih =>
    intro all
    obtain ⟨⟨b, first⟩, others⟩ := List.forall_mem_cons.mp all
    obtain ⟨l', looped⟩ := ih others
    exact ⟨b :: l', by rw [List.mapM_cons, first, looped]; rfl⟩

/-! ### What the pass does to entries -/

section
variable {newTags : Entries → Except PyError (List Node)} {rename : String → String}

/-- An entry of a path that is read as an operation gets new tags; any other stays. -/
theorem retagEntry_cases {e e' : Scalar × Node} (passed : retagEntry newTags e = .ok e') :
    (∃ verb operation tags, e = (.str verb, .map operation) ∧ (upperVerb verb).isSome ∧ newTags operation = .ok tags ∧
      e' = (.str verb, .map (withTags operation tags))) ∨
    (e' = e ∧ ∀ verb operation, e = (.str verb, .map operation) → (upperVerb verb).isSome = false) := by
  unfold retagEntry at passed
  split at passed
  · rename_i verb operation
    split at passed
    · rename_i known
      obtain ⟨tags, made, passed⟩ := bind_ok.mp passed
      exact .inl ⟨verb, operation, tags, rfl, known, made, (pure_ok.mp passed).symm⟩
    · rename_i unknown
      refine .inr ⟨(pure_ok.mp passed).symm, fun verb' operation' same => ?_⟩
      obtain ⟨rfl⟩ : verb = verb' := by simpa using congrArg Prod.fst same
      simpa using unknown
  · rename_i other
    exact .inr ⟨(pure_ok.mp passed).symm, fun verb operation same => absurd same (other verb operation)⟩

theorem retagEntry_fst {e e' : Scalar × Node} (passed : retagEntry newTags e = .ok e') : e.1 = e'.1 := by
  rcases retagEntry_cases passed with ⟨_, _, _, rfl, _, _, rfl⟩ | ⟨rfl, _⟩ <;> rfl

/-- A path keeps its name, and its item is passed entry by entry. -/
theorem retagPath_cases {e e' : Scalar × Node} (passed : retagPath newTags e = .ok e') :
    (∃ item item', e = (e.1, .map item) ∧ e' = (e.1, .map item') ∧
      List.Forall₂ (fun o o' => retagEntry newTags o = .ok o') item item') ∨
    (e' = e ∧ ∀ item, e.2 ≠ .map item) := by
  obtain ⟨name, value⟩ := e
  unfold retagPath at passed
  split at passed
  · rename_i item isMap
    obtain ⟨item', mapped, passed⟩ := bind_ok.mp passed
    obtain rfl : value = .map item := isMap
    exact .inl ⟨item, item', rfl, (pure_ok.mp passed).symm, forall₂_mapM_ok mapped⟩
  · rename_i other
    exact .inr ⟨(pure_ok.mp passed).symm, other⟩

theorem retagPath_fst {e e' : Scalar × Node} (passed : retagPath newTags e = .ok e') : e.1 = e'.1 := by
  rcases retagPath_cases passed with ⟨_, _, _, rfl, _⟩ | ⟨rfl, _⟩ <;> rfl

/-- Every operation of the new spec has its new tags. -/
theorem retagged_operation {spec spec' paths' : Entries} (passed : retag newTags spec = .ok spec')
    (found : (lookup spec' "paths").getD (.map []) = .map paths') {operation : Entries} (read : IsOperation paths' operation) :
    ∃ old tags, newTags old = .ok tags ∧ operation = withTags old tags := by
  obtain ⟨value, -, passed⟩ := bind_ok.mp passed
  obtain ⟨paths, unpacked, passed⟩ := bind_ok.mp passed
  obtain ⟨new, mapped, passed⟩ := bind_ok.mp passed
  obtain rfl := pure_ok.mp passed
  obtain ⟨path, item', verb, listed, inside, known⟩ := read
  have present : new = paths' := by
    cases here : lookup spec "paths" with
    | none =>
      simp only [here, Option.isSome_none, Bool.false_eq_true, if_false, Option.getD_none, Node.map.injEq] at found
      subst found
      cases listed
    | some _ => simpa [here, lookup_setItem] using found
  subst present
  obtain ⟨e, passPath⟩ := exists_of_forall₂ (forall₂_mapM_ok mapped) listed
  rcases retagPath_cases passPath with ⟨item, item'', -, same', entries⟩ | ⟨rfl, other⟩
  · obtain ⟨-, ⟨rfl⟩⟩ := Prod.mk.inj same'
    obtain ⟨o, passEntry⟩ := exists_of_forall₂ entries inside
    rcases retagEntry_cases passEntry with ⟨verb', old, tags, -, -, made, same⟩ | ⟨rfl, unread⟩
    · obtain ⟨-, ⟨rfl⟩⟩ := Prod.mk.inj same
      exact ⟨old, tags, made, rfl⟩
    · rw [unread verb operation rfl] at known
      cases known
  · exact absurd rfl (other item')

/-- The pass raises only where new tags cannot be made. -/
theorem exists_retag {spec paths : Entries} (found : lookup spec "paths" = some (.map paths))
    (made : ∀ operation, IsOperation paths operation → ∃ tags, newTags operation = .ok tags) :
    ∃ spec', retag newTags spec = .ok spec' := by
  have entries : ∀ e ∈ paths, ∃ e', retagPath newTags e = .ok e' := by
    rintro ⟨name, value⟩ inside
    cases value with
    | scalar _ | list _ | set _ => exact ⟨_, rfl⟩
    | map item =>
      have operations : ∀ o ∈ item, ∃ o', retagEntry newTags o = .ok o' := by
        intro o member
        unfold retagEntry
        split
        · rename_i verb operation
          split
          · rename_i known
            obtain ⟨tags, new⟩ := made operation ⟨name, item, verb, inside, member, known⟩
            exact ⟨_, by rw [new]; rfl⟩
          · exact ⟨_, rfl⟩
        · exact ⟨_, rfl⟩
      obtain ⟨item', mapped⟩ := exists_mapM_ok operations
      exact ⟨_, by simp only [retagPath, mapped]; rfl⟩
  obtain ⟨paths', mapped⟩ := exists_mapM_ok entries
  refine ⟨setItem spec (.str "paths") (.map paths'), ?_⟩
  simp only [retag, Python.get, found, Option.getD_some, items, ok_bind, mapped, Option.isSome_some, if_true]
  rfl

/-! ### Pointers lead to nodes that are read alike -/

@[simp] theorem walk_empty : ∀ parts : List (List Char), walk parts (.map []) = .map []
  | [] => rfl
  | _ :: rest => walk_empty rest

theorem walk_other {n : Node} (other : ∀ entries, n ≠ .map entries) (parts : List (List Char)) : walk parts n = .map [] := by
  cases n with
  | map entries => exact absurd rfl (other entries)
  | scalar _ | list _ | set _ => cases parts <;> rfl

theorem not_tags {key : String} (read : key ∈ readKeys) : key ≠ "tags" := by
  rintro rfl
  revert read
  decide

theorem not_verb {key : String} (read : key ∈ readKeys) : (upperVerb key).isSome = false := by
  have unknown : ∀ key ∈ readKeys, (upperVerb key).isSome = false := by decide
  exact unknown key read

theorem alike_withTags {operation : Entries} (nonempty : operation ≠ []) (tags : List Node) :
    Alike (.map operation) (.map (withTags operation tags)) := by
  refine .map ?_ ?_
  · rw [withTags, setItem_ne_nil]
    cases operation with
    | nil => exact absurd rfl nonempty
    | cons => rfl
  · intro key read
    rw [withTags, lookup_setItem, if_neg (not_tags read)]

/-- Below an operation only the tags are other ones, and they lead nowhere. -/
theorem walk_operation {operation : Entries} (nonempty : operation ≠ []) {names : List String} (has : HasTags operation names)
    (tags : List Node) (parts : List (List Char)) :
    Alike (walk parts (.map operation)) (walk parts (.map (withTags operation tags))) := by
  cases parts with
  | nil => exact alike_withTags nonempty tags
  | cons part rest =>
    simp only [walk, withTags, lookup_setItem]
    split
    · rename_i isTags
      have nowhere : walk rest ((lookup operation (unescape part)).getD (.map [])) = .map [] := by
        rw [isTags]
        rcases has with listed | ⟨-, absent | null⟩
        · rw [listed]; exact walk_other (by simp) rest
        · rw [absent]; exact walk_empty rest
        · rw [null]; exact walk_other (by simp [pyNone]) rest
      rw [nowhere, Option.getD_some, walk_other (by simp) rest]
      exact .same _
    · exact .same _

theorem walk_item {item item' : Entries}
    (passed : List.Forall₂ (fun o o' => retagEntry newTags o = .ok o') item item')
    (plain : ∀ verb operation, (Scalar.str verb, Node.map operation) ∈ item → (upperVerb verb).isSome →
      operation ≠ [] ∧ ∃ names, HasTags operation names) (parts : List (List Char)) :
    Alike (walk parts (.map item)) (walk parts (.map item')) := by
  have keys : ∀ o o', retagEntry newTags o = .ok o' → o.1 = o'.1 := fun _ _ => retagEntry_fst
  cases parts with
  | nil =>
    refine .map ?_ ?_
    · cases passed <;> rfl
    · intro key read
      rcases lookup_forall₂ keys passed key with ⟨absent, absent'⟩ | ⟨value, value', found, found', -, pass⟩
      · rw [absent, absent']
      · rcases retagEntry_cases pass with ⟨verb, operation, tags, same, known, -, -⟩ | ⟨same, -⟩
        · obtain ⟨⟨rfl⟩, -⟩ := Prod.mk.inj same
          rw [not_verb read] at known
          cases known
        · rw [found, found', (Prod.mk.inj same).2]
  | cons part rest =>
    simp only [walk]
    rcases lookup_forall₂ keys passed (unescape part) with ⟨absent, absent'⟩ | ⟨value, value', found, found', member, pass⟩
    · rw [absent, absent']; exact .same _
    · rw [found, found', Option.getD_some, Option.getD_some]
      rcases retagEntry_cases pass with ⟨verb, operation, tags, same, known, -, same'⟩ | ⟨same, -⟩
      · obtain ⟨⟨rfl⟩, rfl⟩ := Prod.mk.inj same
        obtain ⟨-, rfl⟩ := Prod.mk.inj same'
        obtain ⟨nonempty, names, has⟩ := plain _ operation member known
        exact walk_operation nonempty has tags rest
      · rw [(Prod.mk.inj same).2]; exact .same _

theorem walk_paths {paths paths' : Entries} (passed : List.Forall₂ (fun e e' => retagPath newTags e = .ok e') paths paths')
    (plain : Plain paths) (parts : List (List Char)) : Alike (walk parts (.map paths)) (walk parts (.map paths')) := by
  have keys : ∀ e e', retagPath newTags e = .ok e' → e.1 = e'.1 := fun _ _ => retagPath_fst
  cases parts with
  | nil =>
    refine .map ?_ ?_
    · cases passed <;> rfl
    · intro key read
      rcases lookup_forall₂ keys passed key with ⟨absent, absent'⟩ | ⟨value, value', found, -⟩
      · rw [absent, absent']
      · rw [plain.named key read] at found
        cases found
  | cons part rest =>
    simp only [walk]
    rcases lookup_forall₂ keys passed (unescape part) with ⟨absent, absent'⟩ | ⟨value, value', found, found', member, pass⟩
    · rw [absent, absent']; exact .same _
    · rw [found, found', Option.getD_some, Option.getD_some]
      rcases retagPath_cases pass with ⟨item, item', same, same', entries⟩ | ⟨same, -⟩
      · obtain ⟨-, rfl⟩ := Prod.mk.inj same
        obtain ⟨-, rfl⟩ := Prod.mk.inj same'
        exact walk_item entries (fun verb operation inside known => plain.operations operation ⟨_, item, verb, member, inside, known⟩) rest
      · rw [(Prod.mk.inj same).2]; exact .same _

theorem alikePointers_retagged {spec paths paths' : Entries} (found : lookup spec "paths" = some (.map paths))
    (passed : List.Forall₂ (fun e e' => retagPath newTags e = .ok e') paths paths') (plain : Plain paths) :
    AlikePointers (.map spec) (.map (setItem spec (.str "paths") (.map paths'))) := by
  intro ref
  simp only [resolvePointer]
  cases parts : (ref.toList.drop 2).splitOn '/' with
  | nil => exact absurd parts (List.splitOn_ne_nil _ _)
  | cons part rest =>
    simp only [walk, lookup_setItem]
    split
    · rename_i isPaths
      rw [isPaths, found, Option.getD_some, Option.getD_some]
      exact walk_paths passed plain rest
    · exact .same _

/-! ### The methods of a spec after the pass -/

variable {m : Type → Type} [Monad m] [LawfulMonad m] [MonadExceptOf PyError m] {docs : Documents m} {spec spec' : Node}
  {site site' : Site}

/-- The same methods under new names. -/
abbrev Renamed (rename : String → String) (methods methods' : List RawMethod) : Prop := methods' = methods.map (renamed rename)

theorem renamed_append (first first' rest rest' : List RawMethod) (one : Renamed rename first first')
    (others : Renamed rename rest rest') : Renamed rename (first ++ rest) (first' ++ rest') := by
  rw [one, others, Renamed, List.map_append]

omit [LawfulMonad m] in
/-- A tag that is a text gives one method, where the portal has a link for it. -/
theorem taggedMethod_text (portal : Portal) (all : portal.excludedTags = []) (opId : Node) (method : RawMethod)
    (name : String) : (taggedMethod portal opId method (textNode name) : m (List RawMethod)) = do
      let excluded ← py (.ok false)
      if excluded then return []
      let urlOnPortal ← py (portal.urlOf opId)
      let serviceName ← py (.ok (.str name))
      return [{ method with serviceName, urlOnPortal }] := by
  rw [taggedMethod, all]
  rfl

theorem extend_retagged (portal : Portal) (all : portal.excludedTags = []) (rename : String → String) (opId : Node)
    (method : RawMethod) (names : List String) :
    Coupled (Renamed rename) (extend (taggedMethod portal opId method) (names.map textNode) : m (List RawMethod))
      (extend (taggedMethod portal opId method) ((names.map rename).map textNode)) := by
  have pairs : List.Forall₂ (fun a b => ∃ name, a = textNode name ∧ b = textNode (rename name)) (names.map textNode)
      ((names.map rename).map textNode) := by
    rw [List.map_map, List.forall₂_map_left_iff, List.forall₂_map_right_iff, List.forall₂_same]
    exact fun name _ => ⟨name, rfl, rfl⟩
  refine coupled_extend (R := Renamed rename) rfl renamed_append pairs ?_
  rintro _ _ ⟨name, rfl, rfl⟩
  rw [taggedMethod_text portal all, taggedMethod_text portal all]
  simp only [py_ok, pure_bind, Bool.false_eq_true, if_false]
  exact coupled_bind_same _ (fun url => coupled_pure rfl)

theorem operation_retagged (renames : Renames newTags rename) (pointers : AlikePointers spec spec')
    (place : AlikeSite spec spec' site site') (portal : Portal) (all : portal.excludedTags = []) (path : Scalar)
    (httpVerb upper : String) {operation : Entries} (nonempty : operation ≠ []) {names : List String} (has : HasTags operation names)
    {tags : List Node} (made : newTags operation = .ok tags) :
    Coupled (Renamed rename) (operationMethods portal docs site path httpVerb upper (.map operation))
      (operationMethods portal docs site' path httpVerb upper (.map (withTags operation tags))) := by
  obtain ⟨names', rfl, services⟩ := renames operation names tags has made
  have has' : HasTags (withTags operation (names'.map textNode)) names' := .inl (by rw [withTags, lookup_setItem, if_pos rfl])
  refine operationMethods_alike pointers place (alike_withTags nonempty _) portal path httpVerb upper (fun opId method => ?_)
  rw [tagsOf_hasTags has, tagsOf_hasTags has', services]
  simp only [py_ok, pure_bind]
  exact extend_retagged portal all rename opId method _

theorem path_retagged (renames : Renames newTags rename) (pointers : AlikePointers spec spec')
    (place : AlikeSite spec spec' site site') (portal : Portal) (all : portal.excludedTags = []) {paths : Entries}
    (plain : Plain paths) {e e' : Scalar × Node} (member : e ∈ paths) (passed : retagPath newTags e = .ok e') :
    Coupled (Renamed rename) (pathMethods portal docs site e) (pathMethods portal docs site' e') := by
  have nothing : Coupled (Renamed rename) (pure [] : m (List RawMethod)) (pure []) := coupled_pure rfl
  rcases retagPath_cases passed with ⟨item, item', same, same', entries⟩ | ⟨rfl, other⟩
  · rw [same, same']
    simp only [pathMethods]
    refine coupled_extend (R := Renamed rename) rfl renamed_append
      ((List.forall₂_and_left _ _).mpr ⟨fun _ inside => inside, entries⟩) ?_
    · rintro o o' ⟨inside, pass⟩
      rcases retagEntry_cases pass with ⟨verb, operation, tags, rfl, known, made, rfl⟩ | ⟨rfl, notRead⟩
      · obtain ⟨upper, isVerb⟩ := Option.isSome_iff_exists.mp known
        obtain ⟨nonempty, names, has⟩ := plain.operations operation ⟨e.1, item, verb, same ▸ member, inside, known⟩
        simp only [entryMethods, isVerb]
        exact operation_retagged renames pointers place portal all e.1 verb upper nonempty has made
      · unfold entryMethods
        split
        · rename_i verb operation
          have unknown := notRead verb operation rfl
          split
          · rename_i isVerb
            rw [isVerb] at unknown
            cases unknown
          · exact nothing
        · exact nothing
  · unfold pathMethods
    split
    · rename_i item isMap
      exact absurd isMap (other item)
    · exact nothing

/-- After a pass over the tags of a spec the parser reads the same methods, in the
    same order and with the same requests on the way, under new names of services. -/
theorem specMethods_retagged (renames : Renames newTags rename) {spec spec' : Entries}
    (plain : ∀ paths, lookup spec "paths" = some (.map paths) → Plain paths) (passed : retag newTags spec = .ok spec')
    (portal : Portal) (all : portal.excludedTags = []) (docs : Documents m) (specUrl : Option String) :
    specMethods portal docs (.map spec') specUrl = List.map (renamed rename) <$> specMethods portal docs (.map spec) specUrl := by
  obtain ⟨value, read, passed⟩ := bind_ok.mp passed
  obtain ⟨paths, unpacked, passed⟩ := bind_ok.mp passed
  obtain ⟨paths', mapped, passed⟩ := bind_ok.mp passed
  have entries := forall₂_mapM_ok mapped
  rw [pure_ok] at passed
  suffices coupled : Coupled (Renamed rename) (specMethods portal docs (.map spec) specUrl) (specMethods portal docs (.map spec') specUrl) from
    eq_map_of_coupled coupled
  simp only [Python.get, Except.ok.injEq] at read
  cases found : lookup spec "paths" with
  | none =>
    rw [found] at passed read
    obtain rfl := passed
    simp only [specMethods, Python.get, found, Option.isSome_none, Bool.false_eq_true, if_false, Option.getD_none, items,
      py_ok, pure_bind, extend]
    exact coupled_pure rfl
  | some node =>
    rw [found] at passed read
    obtain rfl := passed
    obtain rfl := read
    cases node with
    | scalar _ | list _ | set _ => cases unpacked
    | map given =>
      obtain rfl : given = paths := by simpa [items] using unpacked
      have flat := plain given found
      have pointers := alikePointers_retagged found entries flat
      have place : AlikeSite (.map spec) (.map (setItem spec (.str "paths") (.map paths')))
          { schema := .map [], spec := .map spec, specUrl }
          { schema := .map [], spec := .map (setItem spec (.str "paths") (.map paths')), specUrl } :=
        ⟨.same _, rfl, rfl, .inl ⟨rfl, rfl⟩⟩
      have read' : lookup (setItem spec (.str "paths") (.map paths')) "paths" = some (.map paths') := by
        rw [lookup_setItem, if_pos rfl]
      simp only [specMethods, Python.get, found, Option.isSome_some, if_true, read', Option.getD_some, items, py_ok, pure_bind]
      refine coupled_extend (R := Renamed rename) rfl renamed_append
        ((List.forall₂_and_left _ _).mpr ⟨fun _ inside => inside, entries⟩) ?_
      · rintro e e' ⟨inside, pass⟩
        exact path_retagged renames pointers place portal all flat inside pass

end

end ScanApi.TagPass
