import ScanApi.EntryOrder
import ScanApi.RefCycles

/-!
Fields of a schema when an object schema somewhere in its documents gets one more
property (`Grown`). A reference leads to the same place as before, to the map that
has the new property, or, where it led nowhere, anywhere (`Reached`). Two
recursions that read such documents side by side (`Twins`) find at least the fields
found before (`fields_grow`), unless the map of properties is itself read as a
schema: there a property that is named like a keyword changes how it is read.
-/
namespace ScanApi.Growth
open ScanApi.Raising ScanApi.Yaml ScanApi.Python ScanApi.Refs ScanApi.Fields ScanApi.EntryOrder ScanApi.RefCycles
open ScanApi.RefTransparency (refTo)

/-- The keys by which a schema is read. -/
def keywords : List String := ["$ref", "allOf", "oneOf", "anyOf", "type", "properties", "items"]

section
variable (name : Scalar) (new : Node)

/-- A map with one more entry, whose key it did not have. -/
inductive Widened : List (Scalar × Node) → List (Scalar × Node) → Prop
  | insert {before after : List (Scalar × Node)} (fresh : hasKey (before ++ after) name = false) :
      Widened (before ++ after) (before ++ (name, new) :: after)

/-- A document, and the same one where an object schema has one more property. -/
inductive Grown : Node → Node → Prop
  | same (node : Node) : Grown node node
  | item {before after : List Node} {value value' : Node} (part : Grown value value') :
      Grown (.list (before ++ value :: after)) (.list (before ++ value' :: after))
  | entry {before after : List (Scalar × Node)} {key : Scalar} {value value' : Node} (part : Grown value value') :
      Grown (.map (before ++ (key, value) :: after)) (.map (before ++ (key, value') :: after))
  /-- A schema with a map of properties. -/
  | property {before after properties properties' : List (Scalar × Node)}
      (wider : Widened name new properties properties') :
      Grown (.map (before ++ (.str "properties", .map properties) :: after))
        (.map (before ++ (.str "properties", .map properties') :: after))
  /-- A schema that is declared as an object and has no properties yet. -/
  | properties {before after : List (Scalar × Node)} {type : Node} (typed : lookup (before ++ after) "type" = some type)
      (object : isStr "object" type = true) (absent : lookup (before ++ after) "properties" = none) :
      Grown (.map (before ++ after)) (.map (before ++ (.str "properties", .map [(name, new)]) :: after))

/-- Where a pointer leads in the two documents. -/
inductive Reached : Node → Node → Prop
  | grown {n n' : Node} (part : Grown name new n n') : Reached n n'
  | widened {entries entries' : List (Scalar × Node)} (wider : Widened name new entries entries') :
      Reached (.map entries) (.map entries')
  | missing (n' : Node) : Reached (.map []) n'

end

variable {name : Scalar} {new : Node} {entries entries' : List (Scalar × Node)} {n n' : Node}

/-! ### Lookups -/

theorem lookup_append (before after : List (Scalar × Node)) (key : String) :
    lookup (before ++ after) key = (lookup before key).or (lookup after key) := by
  simp [lookup, List.find?_append, Option.map_or]

theorem lookup_cons (e : Scalar × Node) (rest : List (Scalar × Node)) (key : String) :
    lookup (e :: rest) key = if e.1 = .str key then some e.2 else lookup rest key := by
  by_cases same : e.1 = .str key <;> simp [lookup, same]

theorem rel_refl {R : Node → Node → Prop} (refl : ∀ value, R value value) (found : Option Node) :
    Option.Rel R found found := by
  cases found with
  | none => exact .none
  | some value => exact .some (refl value)

/-- Another value under a key. -/
theorem lookup_replaced {R : Node → Node → Prop} (refl : ∀ value, R value value) {value value' : Node}
    (related : R value value') (before after : List (Scalar × Node)) (slot : Scalar) (key : String) :
    Option.Rel R (lookup (before ++ (slot, value) :: after) key) (lookup (before ++ (slot, value') :: after) key) := by
  rw [lookup_append, lookup_append, lookup_cons, lookup_cons]
  cases lookup before key with
  | some found => exact rel_refl refl _
  | none =>
    by_cases here : slot = .str key
    · simpa only [here, if_true, Option.none_or] using .some related
    · simpa only [here, if_false, Option.none_or] using rel_refl refl _

/-- An entry under another key. -/
theorem lookup_inserted (before after : List (Scalar × Node)) {slot : Scalar} {value : Node} {key : String}
    (other : slot ≠ .str key) : lookup (before ++ (slot, value) :: after) key = lookup (before ++ after) key := by
  rw [lookup_append, lookup_append, lookup_cons, if_neg other]

/-- A key that a map has is another one than the new one. -/
theorem lookup_widened (wider : Widened name new entries entries') {key : String} {value : Node}
    (found : lookup entries key = some value) : lookup entries' key = some value := by
  cases wider with
  | insert fresh =>
    have other : name ≠ .str key := by
      rintro rfl
      have present : hasKey _ (.str key) = true := List.any_eq_true.mpr ⟨_, lookup_mem found, by simp⟩
      rw [fresh] at present
      cases present
    rw [lookup_inserted _ _ other, found]

/-- Of a grown map every value but that of `properties` has grown at most. -/
theorem lookup_grown (grown : Grown name new (.map entries) (.map entries')) {key : String} (other : key ≠ "properties") :
    Option.Rel (Grown name new) (lookup entries key) (lookup entries' key) := by
  have another : Scalar.str "properties" ≠ .str key := fun same => other (Scalar.str.inj same).symm
  cases grown with
  | same => exact rel_refl .same _
  | entry part => exact lookup_replaced .same part _ _ _ key
  | property wider =>
    rw [lookup_inserted _ _ another, lookup_inserted _ _ another]
    exact rel_refl .same _
  | properties typed object absent =>
    rw [lookup_inserted _ _ another]
    exact rel_refl .same _

/-- The properties of a grown map: widened, or the first ones of an object. -/
theorem properties_grown (grown : Grown name new (.map entries) (.map entries')) :
    Option.Rel (Reached name new) (lookup entries "properties") (lookup entries' "properties") ∨
      (lookup entries "properties" = none ∧ ∃ type, lookup entries "type" = some type ∧ isStr "object" type = true) := by
  cases grown with
  | same => exact .inl (rel_refl (fun value => .grown (.same value)) _)
  | entry part => exact .inl (lookup_replaced (fun value => .grown (.same value)) (.grown part) _ _ _ _)
  | property wider => exact .inl (lookup_replaced (fun value => .grown (.same value)) (.widened wider) _ _ _ _)
  | properties typed object absent => exact .inr ⟨absent, _, typed, object⟩

/-- What grew is of the same kind as before. -/
theorem grown_map (grown : Grown name new (.map entries) n') : ∃ entries', n' = .map entries' := by
  cases grown <;> exact ⟨_, rfl⟩

theorem grown_scalar {value : Scalar} (grown : Grown name new (.scalar value) n') : n' = .scalar value := by
  cases grown; rfl

theorem grown_list {l : List Node} (grown : Grown name new (.list l) n') :
    ∃ l', n' = .list l' ∧ List.Forall₂ (Grown name new) l l' := by
  have same : ∀ l : List Node, List.Forall₂ (Grown name new) l l := fun l => List.forall₂_same.mpr (fun _ _ => .same _)
  cases grown with
  | same => exact ⟨l, rfl, same l⟩
  | @item before after _ _ part => exact ⟨_, rfl, List.rel_append (same before) (.cons part (same after))⟩

theorem isEmpty_middle {α : Type} (before : List α) (a : α) (after : List α) :
    (before ++ a :: after).isEmpty = false := by
  cases before <;> rfl

theorem truthy_grown (grown : Grown name new n n') : n.truthy = n'.truthy := by
  cases grown with
  | same => rfl
  | item | entry | property => simp only [Node.truthy, isEmpty_middle]
  | @properties before after _ typed =>
    have filled : (before ++ after).isEmpty = false := by simpa using List.ne_nil_of_mem (lookup_mem typed)
    simp only [Node.truthy, filled, isEmpty_middle]

theorem isStr_grown (grown : Grown name new n n') (text : String) : isStr text n = isStr text n' := by
  cases grown <;> rfl

theorem truthy_reached (reached : Reached name new n n') (nonempty : n.truthy = true) : n'.truthy = true := by
  cases reached with
  | grown part => rwa [← truthy_grown part]
  | widened wider => cases wider; simp [Node.truthy]
  | missing => cases nonempty

/-! ### Pointers -/

theorem walk_missing (parts : List (List Char)) : walk parts (.map []) = .map [] := by
  induction parts with
  | nil => rfl
  | cons part rest ih => exact ih

theorem lookup_reached (reached : Reached name new (.map entries) (.map entries')) (key : String) :
    Reached name new ((lookup entries key).getD (.map [])) ((lookup entries' key).getD (.map [])) := by
  cases found : lookup entries key with
  | none => exact .missing _
  | some value =>
    cases reached with
    | grown grown =>
      by_cases here : key = "properties"
      · subst here
        rcases properties_grown grown with related | ⟨absent, -⟩
        · exact found ▸ rel_getD related (.missing _)
        · rw [absent] at found
          cases found
      · exact .grown (found ▸ rel_getD (lookup_grown grown here) (.same _))
    | widened wider =>
      rw [lookup_widened wider found]
      exact .grown (.same value)
    | missing => cases found

theorem walk_reached : ∀ (parts : List (List Char)) {n n' : Node}, Reached name new n n' →
    Reached name new (walk parts n) (walk parts n') := by
  intro parts
  induction parts with
  | nil =>
    intro n n' reached
    cases n with
    | map entries =>
      cases reached with
      | grown grown =>
        obtain ⟨entries', rfl⟩ := grown_map grown
        exact .grown grown
      | widened wider => exact .widened wider
      | missing => exact .missing _
    | scalar _ | list _ | set _ => exact .missing _
  | cons part rest ih =>
    intro n n' reached
    cases n with
    | map entries =>
      cases reached with
      | grown grown =>
        obtain ⟨entries', rfl⟩ := grown_map grown
        exact ih (lookup_reached (.grown grown) _)
      | widened wider => exact ih (lookup_reached (.widened wider) _)
      | missing =>
        rw [walk_missing]
        exact .missing _
    | scalar _ | list _ | set _ => exact .missing _

theorem resolvePointer_grown (ref : String) (grown : Grown name new n n') :
    Reached name new (resolvePointer ref n) (resolvePointer ref n') := walk_reached _ (.grown grown)

/-! ### References -/

/-- The same place in documents that grew. -/
structure GrownSite (name : Scalar) (new : Node) (site site' : Site) : Prop where
  schema : Reached name new site.schema site'.schema
  spec : Grown name new site.spec site'.spec
  specUrl : site.specUrl = site'.specUrl
  seen : site.seen = site'.seen

/-- Sibling files that grew too. -/
structure GrownFiles (name : Scalar) (new : Node) (docs docs' : Documents (Except PyError)) : Prop where
  urllib : docs.toUrllib = docs'.toUrllib
  files : ∀ url, Agree (Grown name new) (docs.fetchExternalSpec url) (docs'.fetchExternalSpec url)

section
variable {site site' : Site} (place : GrownSite name new site site')
include place

theorem grownSite_at (reached : Reached name new n n') : GrownSite name new (site.at n) (site'.at n') :=
  ⟨reached, place.spec, place.specUrl, place.seen⟩

variable {docs docs' : Documents (Except PyError)} (files : GrownFiles name new docs docs')
include files

theorem resolveExternal_grown (ref : String) :
    Agree (GrownSite name new) (resolveExternal docs ref site) (resolveExternal docs' ref site') := by
  have unresolved : Agree (GrownSite name new) (pure site.unresolved : Except PyError Site) (pure site'.unresolved) :=
    agree_pure (grownSite_at place (.missing _))
  simp only [resolveExternal, py_except, ← place.specUrl, ← files.urllib]
  split
  · exact unresolved
  · split
    · exact unresolved
    · exact unresolved
    · refine agree_bind (agree_same rfl) (fun url _ same => ?_)
      subst same
      refine agree_bind (agree_same rfl) (fun sibling _ same => ?_)
      subst same
      refine agree_ite rfl unresolved (agree_bind (files.files url) (fun spec spec' grown => ?_))
      refine agree_ite (by rw [truthy_grown grown]) unresolved (agree_pure ⟨?_, grown, rfl, place.seen⟩)
      dsimp only
      split
      · exact .grown grown
      · exact resolvePointer_grown _ grown

/-- A reference leads to the same place. -/
theorem resolveRef_grown {ref ref' : Node} (grown : Grown name new ref ref') :
    Agree (GrownSite name new) (resolveRef docs ref site) (resolveRef docs' ref' site') := by
  have unresolved : Agree (GrownSite name new) (pure site.unresolved : Except PyError Site) (pure site'.unresolved) :=
    agree_pure (grownSite_at place (.missing _))
  have text : Agree (· = ·) (refText ref) (refText ref') := by
    cases ref with
    | scalar value =>
      obtain rfl := grown_scalar grown
      exact agree_same rfl
    | list _ | map _ | set _ => intro _ _ read; cases read
  simp only [resolveRef, py_except, ← place.seen]
  refine agree_ite (by rw [truthy_grown grown]) unresolved (agree_bind text (fun text _ same => ?_))
  subst same
  split
  · exact unresolved
  · have branch : GrownSite name new { site with seen := insert text site.seen }
        { site' with seen := insert text site.seen } :=
      ⟨place.schema, place.spec, place.specUrl, rfl⟩
    refine agree_ite rfl (agree_pure (grownSite_at branch (resolvePointer_grown _ place.spec))) ?_
    exact resolveExternal_grown branch files text

end

/-! ### Reading a schema -/

/-- Two maps that are read alike as schemas, but for their properties. -/
structure Reading (name : Scalar) (new : Node) (entries entries' : List (Scalar × Node)) : Prop where
  others : ∀ keyword ∈ keywords, keyword ≠ "properties" →
    Option.Rel (Grown name new) (lookup entries keyword) (lookup entries' keyword)
  properties : Option.Rel (Reached name new) (lookup entries "properties") (lookup entries' "properties") ∨
    (lookup entries "properties" = none ∧ ∃ type, lookup entries "type" = some type ∧ isStr "object" type = true)

theorem reading_grown (grown : Grown name new (.map entries) (.map entries')) : Reading name new entries entries' :=
  ⟨fun _ _ other => lookup_grown grown other, properties_grown grown⟩

/-- A property that is named like no keyword does not change how its map is read. -/
theorem reading_widened (wider : Widened name new entries entries')
    (free : ∀ keyword ∈ keywords, name ≠ .str keyword) : Reading name new entries entries' := by
  cases wider with
  | insert fresh =>
    refine ⟨fun keyword known _ => ?_, .inl ?_⟩
    · rw [lookup_inserted _ _ (free keyword known)]
      exact rel_refl .same _
    · rw [lookup_inserted _ _ (free "properties" (by decide))]
      exact rel_refl (fun value => .grown (.same value)) _

section
variable (reading : Reading name new entries entries')
include reading

theorem contains_reading {keyword : String} (known : keyword ∈ keywords) (other : keyword ≠ "properties") :
    contains keyword (.map entries) = contains keyword (.map entries') :=
  congrArg Except.ok (rel_isSome (reading.others keyword known other))

theorem item_reading {keyword : String} (known : keyword ∈ keywords) (other : keyword ≠ "properties") :
    Agree (Grown name new) (item keyword (.map entries)) (item keyword (.map entries')) :=
  item_related (reading.others keyword known other)

theorem get_reading {keyword : String} (known : keyword ∈ keywords) (other : keyword ≠ "properties") (default : Node) :
    Agree (Grown name new) (get keyword default (.map entries)) (get keyword default (.map entries')) :=
  get_related (reading.others keyword known other) (.same default)

theorem firstOf_reading : ∀ keys : List String, (∀ key ∈ keys, key ∈ keywords ∧ key ≠ "properties") →
    Agree (Option.Rel (Grown name new)) (firstOf (.map entries) keys) (firstOf (.map entries') keys) := by
  intro keys
  induction keys with
  | nil => intro _; exact agree_pure .none
  | cons key rest ih =>
    intro known
    obtain ⟨⟨here, other⟩, others⟩ := List.forall_mem_cons.mp known
    simp only [firstOf, ← contains_reading reading here other]
    refine agree_bind (agree_same rfl) (fun present _ same => ?_)
    subst same
    refine agree_ite rfl (agree_bind (item_reading reading here other) (fun value value' grown => ?_)) (ih others)
    exact agree_pure (.some grown)

theorem combined_reading : Agree (Option.Rel (Grown name new)) (combined (.map entries)) (combined (.map entries')) :=
  firstOf_reading reading _ (by decide)

theorem isArraySchema_reading : Agree (· = ·) (isArraySchema (.map entries)) (isArraySchema (.map entries')) := by
  simp only [isArraySchema, ← contains_reading reading (show "items" ∈ keywords by decide) (by decide)]
  refine agree_bind (get_reading reading (by decide) (by decide) pyNone) (fun type type' grown => ?_)
  exact agree_ite (isStr_grown grown _) (agree_pure rfl) (agree_same rfl)

theorem isObjectSchema_reading : Agree (· = ·) (isObjectSchema (.map entries)) (isObjectSchema (.map entries')) := by
  refine agree_bind_of (get_reading reading (show "type" ∈ keywords by decide) (by decide) pyNone)
    (fun type type' read _ grown => ?_)
  rw [← isStr_grown grown]
  cases object : isStr "object" type with
  | true => exact agree_same rfl
  | false =>
    refine agree_same (congrArg Except.ok ?_)
    rcases reading.properties with related | ⟨-, _, typed, declared⟩
    · exact rel_isSome related
    · obtain rfl := Except.ok.inj read
      rw [typed, Option.getD_some, declared] at object
      cases object

end

theorem mem_inserted {before after : List (Scalar × Node)} {e : Scalar × Node} (inserted : Scalar × Node)
    (member : e ∈ before ++ after) : e ∈ before ++ inserted :: after :=
  List.mem_append.mpr ((List.mem_append.mp member).imp id (List.mem_cons_of_mem _))

/-- An entry of a map is there as it was, or under its key is the value that grew. -/
theorem mem_replaced {before after : List (Scalar × Node)} {key : Scalar} {value value' : Node}
    (reached : Reached name new value value') {e : Scalar × Node} (member : e ∈ before ++ (key, value) :: after) :
    ∃ found, (e.1, found) ∈ before ++ (key, value') :: after ∧ Reached name new e.2 found := by
  rcases List.mem_append.mp member with before | after
  · exact ⟨e.2, List.mem_append_left _ before, .grown (.same _)⟩
  · rcases List.mem_cons.mp after with rfl | after
    · exact ⟨value', List.mem_append_right _ List.mem_cons_self, reached⟩
    · exact ⟨e.2, List.mem_append_right _ (List.mem_cons_of_mem _ after), .grown (.same _)⟩

/-- The entries of a map are still there, with values that grew at most. -/
theorem entries_reached (reached : Reached name new (.map entries) (.map entries')) {e : Scalar × Node}
    (member : e ∈ entries) : ∃ value, (e.1, value) ∈ entries' ∧ Reached name new e.2 value := by
  cases reached with
  | missing => cases member
  | widened wider =>
    cases wider with
    | insert fresh => exact ⟨e.2, mem_inserted _ member, .grown (.same _)⟩
  | grown grown =>
    cases grown with
    | same => exact ⟨e.2, member, .grown (.same _)⟩
    | entry part => exact mem_replaced (.grown part) member
    | property wider => exact mem_replaced (.widened wider) member
    | properties => exact ⟨e.2, mem_inserted _ member, .grown (.same _)⟩

/-- The properties of a schema are still there. -/
theorem listed_reading (reading : Reading name new entries entries') :
    Agree (fun listed listed' => ∀ e ∈ listed, ∃ value, (e.1, value) ∈ listed' ∧ Reached name new e.2 value)
      (get "properties" (.map []) (.map entries) >>= items) (get "properties" (.map []) (.map entries') >>= items) := by
  intro listed listed' read read'
  obtain ⟨properties, got, unpacked⟩ := bind_ok.mp read
  obtain ⟨properties', got', unpacked'⟩ := bind_ok.mp read'
  obtain rfl := Except.ok.inj got
  obtain rfl := Except.ok.inj got'
  rcases reading.properties with related | ⟨absent, -⟩
  · generalize lookup entries "properties" = found at related unpacked
    generalize lookup entries' "properties" = found' at related unpacked'
    cases related with
    | none =>
      obtain rfl := Except.ok.inj unpacked
      exact fun e member => by cases member
    | @some value value' reached =>
      cases value <;> cases value' <;>
        simp only [Option.getD_some, items, Except.ok.injEq, reduceCtorEq] at unpacked unpacked'
      subst unpacked unpacked'
      exact fun e member => entries_reached reached member
  · rw [absent] at unpacked
    obtain rfl := Except.ok.inj unpacked
    exact fun e member => by cases member

/-- What is iterated: the items of lists that grew, or nothing that is a schema. -/
theorem iter_grown (grown : Grown name new n n') :
    Agree (fun subs subs' => (n = .list subs ∧ n' = .list subs' ∧ List.Forall₂ (Grown name new) subs subs') ∨
      ((∀ sub ∈ subs, isDict sub = false) ∧ subs.isEmpty = subs'.isEmpty)) (iter n) (iter n') := by
  intro subs subs' read read'
  cases n with
  | list l =>
    obtain ⟨l', rfl, related⟩ := grown_list grown
    obtain rfl := Except.ok.inj read
    obtain rfl := Except.ok.inj read'
    exact .inl ⟨rfl, rfl, related⟩
  | map entries =>
    have filled := truthy_grown grown
    obtain ⟨entries', rfl⟩ := grown_map grown
    obtain rfl := Except.ok.inj read
    obtain rfl := Except.ok.inj read'
    refine .inr ⟨fun sub member => ?_, ?_⟩
    · obtain ⟨e, -, rfl⟩ := List.mem_map.mp member
      rfl
    · rw [List.isEmpty_map, List.isEmpty_map]
      exact Bool.not_inj filled
  | set l =>
    cases grown
    obtain rfl := Except.ok.inj (read.symm.trans read')
    obtain rfl := Except.ok.inj read
    refine .inr ⟨fun sub member => ?_, rfl⟩
    obtain ⟨value, -, rfl⟩ := List.mem_map.mp member
    rfl
  | scalar value =>
    obtain rfl := grown_scalar grown
    obtain rfl := Except.ok.inj (read.symm.trans read')
    refine .inr ⟨fun sub member => ?_, rfl⟩
    cases value with
    | str _ | binary _ =>
      obtain rfl := Except.ok.inj read
      obtain ⟨_, -, rfl⟩ := List.mem_map.mp member
      rfl
    | null | bool _ | int _ | float _ | date _ _ => cases read

/-! ### What is no schema -/

theorem firstOf_map {keys : List String} {value : Node} (found : firstOf n keys = .ok (some value)) :
    ∃ entries, n = .map entries := by
  induction keys with
  | nil => cases found
  | cons key rest ih =>
    obtain ⟨present, -, found⟩ := bind_ok.mp found
    cases present with
    | false => exact ih found
    | true =>
      obtain ⟨value, read, -⟩ := bind_ok.mp found
      cases n with
      | map entries => exact ⟨entries, rfl⟩
      | scalar _ | list _ | set _ => cases read

/-- Only a mapping is read as a schema; anything else raises. -/
theorem schemaFields_map {nested : Bool} {deeper : Scalar → Site → Except PyError (List Scalar)} {namePrefix : Scalar}
    {target : Site} {fields : List Scalar} (listed : schemaFields nested deeper namePrefix target = .ok fields) :
    ∃ entries, target.schema = .map entries := by
  have object : ∀ {b : Bool}, isObjectSchema target.schema = .ok b → ∃ entries, target.schema = .map entries := by
    intro b decided
    obtain ⟨type, read, -⟩ := bind_ok.mp decided
    generalize target.schema = schema at read
    cases schema with
    | map entries => exact ⟨entries, rfl⟩
    | scalar _ | list _ | set _ => cases read
  rcases schemaFields_cases listed with ⟨_, _, found, -⟩ | ⟨-, decided, -⟩ | ⟨-, decided, -⟩ | ⟨-, decided, -⟩
  · exact firstOf_map found
  · exact object decided
  · exact object decided
  · exact object decided

/-- An empty value has no fields, and one that is no mapping has none either. -/
theorem extractFields_mute {docs : Documents (Except PyError)} {room : Nat} {namePrefix : Scalar} {site : Site}
    {fields : List Scalar} (mute : site.schema.truthy = false ∨ isDict site.schema = false)
    (listed : extractFields docs room namePrefix site = .ok fields) : fields = [] := by
  cases room with
  | zero => exact (pure_ok.mp listed).symm
  | succ room =>
    obtain ⟨place, entered, listed⟩ := bind_ok.mp listed
    cases place with
    | none => exact (pure_ok.mp listed).symm
    | some target =>
      exfalso
      simp only [enter, py_except] at entered
      split at entered
      · cases entered
      · rename_i nonempty
        have noMap : isDict site.schema = false := mute.resolve_left (by simpa using nonempty)
        obtain ⟨hasRef, -, entered⟩ := bind_ok.mp entered
        split at entered
        · obtain ⟨ref, read, -⟩ := bind_ok.mp entered
          generalize site.schema = schema at noMap read
          cases schema with
          | map => cases noMap
          | scalar _ | list _ | set _ => cases read
        · obtain rfl := Option.some.inj (pure_ok.mp entered)
          obtain ⟨entries, same⟩ := schemaFields_map listed
          rw [same] at noMap
          cases noMap

/-! ### Two recursions side by side -/

/-- Which part of a schema is read: a combined one, a property or the items. -/
inductive Step
  | sub (index : Nat)
  | property (name : Scalar)
  | items

inductive Part (schema : Node) : Step → Node → Prop
  | sub {subs : List Node} {index : Nat} {sub : Node} (found : combined schema = .ok (some (.list subs)))
      (placed : subs[index]? = some sub) : Part schema (.sub index) sub
  | property {listed : List (Scalar × Node)} {e : Scalar × Node}
      (read : (get "properties" (.map []) schema >>= items) = .ok listed) (member : e ∈ listed) :
      Part schema (.property e.1) e.2
  | items {sub : Node} (read : get "items" (.map []) schema = .ok sub) : Part schema .items sub

/-- The places that the recursions from two schemas reach by the same steps. -/
inductive Twins (docs docs' : Documents (Except PyError)) (start start' : Site) : Phase → Site → Site → Prop
  | start : Twins docs docs' start start' .called start start'
  | enter {site site' target target' : Site} (call : Twins docs docs' start start' .called site site')
      (entered : enter docs site = .ok (some target)) (entered' : enter docs' site' = .ok (some target')) :
      Twins docs docs' start start' .read target target'
  | part {target target' : Site} {step : Step} {sub sub' : Node} (level : Twins docs docs' start start' .read target target')
      (part : Part target.schema step sub) (part' : Part target'.schema step sub') :
      Twins docs docs' start start' .called (target.at sub) (target'.at sub')

/-- The map that has the new property is itself read as a schema, and was not empty. -/
def MapRead (name : Scalar) (new : Node) (docs docs' : Documents (Except PyError)) (start start' : Site) : Prop :=
  ∃ phase site site' entries entries', Twins docs docs' start start' phase site site' ∧ entries ≠ [] ∧
    site.schema = .map entries ∧ site'.schema = .map entries' ∧ Widened name new entries entries'

section
variable {nested : Bool} {deeper deeper' : Scalar → Site → Except PyError (List Scalar)} {namePrefix : Scalar}
  {target target' : Site}

theorem propertyFields_grown {property : Scalar} {value value' : Node}
    (below : ∀ namePrefix, Agree (· ⊆ ·) (deeper namePrefix (target.at value)) (deeper' namePrefix (target'.at value'))) :
    Agree (· ⊆ ·) (propertyFields nested deeper namePrefix target (property, value))
      (propertyFields nested deeper' namePrefix target' (property, value')) := by
  simp only [propertyFields]
  refine agree_ite rfl (agree_bind (below _) (fun fields fields' within => agree_pure ?_)) (agree_pure (List.Subset.refl _))
  exact List.cons_subset_cons _ within

/-- One level: what is found below is still found. -/
theorem schemaFields_grown (schema : target.schema = .map entries) (schema' : target'.schema = .map entries')
    (reading : Reading name new entries entries')
    (below : ∀ namePrefix step sub sub', Part target.schema step sub → Part target'.schema step sub' →
      Reached name new sub sub' →
        Agree (· ⊆ ·) (deeper namePrefix (target.at sub)) (deeper' namePrefix (target'.at sub')))
    (mute : ∀ sub fields, isDict sub = false → deeper namePrefix (target.at sub) = .ok fields → fields = []) :
    Agree (· ⊆ ·) (schemaFields nested deeper namePrefix target) (schemaFields nested deeper' namePrefix target') := by
  simp only [schemaFields, py_except, schema, schema']
  refine agree_bind_of (combined_reading reading) (fun place place' found found' related => ?_)
  rw [← schema] at found
  rw [← schema'] at found'
  cases related with
  | some grown =>
    refine agree_bind (iter_grown grown) (fun subs subs' parts fields fields' looped looped' field member => ?_)
    obtain ⟨sub, among, part, ran, inside⟩ := mem_extend looped field member
    rcases parts with ⟨rfl, rfl, pairs⟩ | ⟨scalars, -⟩
    · obtain ⟨index, bound, rfl⟩ := List.mem_iff_getElem.mp among
      have bound' : index < subs'.length := pairs.length_eq ▸ bound
      have pair : Grown name new subs[index] subs'[index] := pairs.get bound bound'
      obtain ⟨part', ran', within⟩ := extend_ok looped' subs'[index] (List.getElem_mem bound')
      have one := below namePrefix (.sub index) _ _ (.sub found (List.getElem?_eq_getElem bound))
        (.sub found' (List.getElem?_eq_getElem bound')) (.grown pair)
      exact within (one part part' ran ran' inside)
    · obtain rfl := mute sub part (scalars sub among) ran
      cases inside
  | none =>
    refine agree_bind (isObjectSchema_reading reading) (fun object _ same => ?_)
    subst same
    refine agree_ite rfl ?_ ?_
    · rw [← bind_assoc, ← bind_assoc]
      refine agree_bind_of (listed_reading reading) (fun listed listed' read read' kept => ?_)
      intro fields fields' looped looped' field member
      obtain ⟨e, among, part, ran, inside⟩ := mem_extend looped field member
      obtain ⟨value, among', reached⟩ := kept e among
      obtain ⟨part', ran', within⟩ := extend_ok looped' _ among'
      rw [← schema] at read
      rw [← schema'] at read'
      have one : Agree (· ⊆ ·) (propertyFields nested deeper namePrefix target (e.1, e.2))
          (propertyFields nested deeper' namePrefix target' (e.1, value)) :=
        propertyFields_grown (fun full => below full (.property e.1) e.2 value (.property read among)
          (.property read' among') reached)
      exact within (one part part' ran ran' inside)
    · refine agree_bind (isArraySchema_reading reading) (fun array _ same => ?_)
      subst same
      refine agree_ite rfl ?_ (agree_pure (List.Subset.refl _))
      refine agree_bind_of (get_reading reading (show "items" ∈ keywords by decide) (by decide) (.map []))
        (fun sub sub' read read' grown => ?_)
      rw [← schema] at read
      rw [← schema'] at read'
      exact below namePrefix .items sub sub' (.items read) (.items read') (.grown grown)

end

variable {docs docs' : Documents (Except PyError)} {start start' site site' : Site}

/-- A schema that grew is read alike, unless it is the map of properties. -/
theorem reading_of_grown
    (free : (∀ keyword ∈ keywords, name ≠ .str keyword) ∨ ¬ MapRead name new docs docs' start start') {phase : Phase}
    (twins : Twins docs docs' start start' phase site site') (place : GrownSite name new site site') :
    (site.schema.truthy = false ∨ isDict site.schema = false) ∨
      ∃ entries entries', site.schema = .map entries ∧ site'.schema = .map entries' ∧ Reading name new entries entries' := by
  have reached := place.schema
  cases schema : site.schema with
  | scalar _ | list _ | set _ => exact .inl (.inr rfl)
  | map entries =>
    by_cases empty : entries = []
    · exact .inl (.inl (by simp [empty, Node.truthy]))
    · right
      rw [schema] at reached
      cases schema' : site'.schema with
      | map entries' =>
        refine ⟨entries, entries', rfl, rfl, ?_⟩
        rw [schema'] at reached
        cases reached with
        | grown grown => exact reading_grown grown
        | widened wider =>
          rcases free with free | unread
          · exact reading_widened wider free
          · exact absurd ⟨phase, site, site', entries, entries', twins, empty, schema, schema', wider⟩ unread
        | missing => exact absurd rfl empty
      | scalar _ | list _ | set _ =>
        rw [schema'] at reached
        cases reached with
        | grown grown => cases grown
        | missing => exact absurd rfl empty

/-- What is entered is not empty. -/
theorem truthy_of_enter {target : Site} (entered : enter docs site = .ok (some target)) : target.schema.truthy = true := by
  simp only [enter, py_except] at entered
  split at entered
  · cases entered
  · rename_i nonempty
    obtain ⟨hasRef, -, entered⟩ := bind_ok.mp entered
    split at entered
    · obtain ⟨ref, -, entered⟩ := bind_ok.mp entered
      obtain ⟨reached, -, entered⟩ := bind_ok.mp entered
      obtain ⟨usable, rfl⟩ := Option.ite_some_none_eq_some.mp (pure_ok.mp entered)
      exact usable
    · obtain rfl := Option.some.inj (pure_ok.mp entered)
      simpa using nonempty

/-- A schema that is entered is entered at the same place. -/
theorem enter_grown (place : GrownSite name new site site') (files : GrownFiles name new docs docs')
    (schema : site.schema = .map entries) (schema' : site'.schema = .map entries')
    (reading : Reading name new entries entries') :
    Agree (fun found found' => ∀ target, found = some target → ∃ target', found' = some target' ∧
      GrownSite name new target target') (enter docs site) (enter docs' site') := by
  have hasRef := contains_reading reading (show "$ref" ∈ keywords by decide) (by decide)
  cases nonempty : site.schema.truthy with
  | false =>
    rw [enter_empty nonempty]
    rintro _ _ left - target rfl
    cases left
  | true =>
    have nonempty' := truthy_reached place.schema nonempty
    rw [schema] at nonempty
    rw [schema'] at nonempty'
    simp only [enter, py_except, schema, schema', nonempty, nonempty', ← hasRef, Bool.not_true, Bool.false_eq_true, if_false]
    refine agree_bind (agree_same rfl) (fun contained _ same => ?_)
    subst same
    refine agree_ite rfl ?_ (agree_pure ?_)
    · refine agree_bind (item_reading reading (show "$ref" ∈ keywords by decide) (by decide)) (fun ref ref' grown => ?_)
      refine agree_bind (resolveRef_grown place files grown) (fun target target' reached => agree_pure ?_)
      rintro entered same
      obtain ⟨usable, rfl⟩ := Option.ite_some_none_eq_some.mp same
      exact ⟨target', if_pos (truthy_reached reached.schema usable), reached⟩
    · rintro target same
      obtain rfl := Option.some.inj same
      exact ⟨site', rfl, place⟩

/-- The two recursions keep what the first one finds. -/
theorem extractFields_grown (files : GrownFiles name new docs docs')
    (free : (∀ keyword ∈ keywords, name ≠ .str keyword) ∨ ¬ MapRead name new docs docs' start start') :
    ∀ (room : Nat) (namePrefix : Scalar) (site site' : Site), Twins docs docs' start start' .called site site' →
      GrownSite name new site site' →
        Agree (· ⊆ ·) (extractFields docs room namePrefix site) (extractFields docs' room namePrefix site') := by
  intro room
  induction room with
  | zero => intro namePrefix site site' _ _; exact agree_pure (List.Subset.refl _)
  | succ room ih =>
    intro namePrefix site site' twins place
    rcases reading_of_grown free twins place with mute | ⟨entries, entries', schema, schema', reading⟩
    · intro fields fields' listed _
      rw [extractFields_mute mute listed]
      exact List.nil_subset _
    · simp only [extractFields]
      refine agree_bind_of (enter_grown place files schema schema' reading) (fun found found' entered entered' kept => ?_)
      cases found with
      | none =>
        intro fields fields' listed _
        obtain rfl := pure_ok.mp listed
        exact List.nil_subset _
      | some target =>
        obtain ⟨target', rfl, reached⟩ := kept target rfl
        have level : Twins docs docs' start start' .read target target' := .enter twins entered entered'
        intro fields fields' listed listed'
        rcases reading_of_grown free level reached with mute | ⟨entries, entries', schema, schema', reading⟩
        · have noMap := mute.resolve_left (by simp [truthy_of_enter entered])
          obtain ⟨entries, same⟩ := schemaFields_map listed
          rw [same] at noMap
          cases noMap
        · refine schemaFields_grown schema schema' reading ?_ ?_ fields fields' listed listed'
          · intro name step sub sub' part part' grown
            exact ih name _ _ (.part level part part') (grownSite_at reached grown)
          · intro sub fields scalar listed
            exact extractFields_mute (.inr scalar) listed

/-- Where both extractions return, one more property hides no field, unless it is
    named like a keyword and its map is itself read as a schema. -/
theorem fields_monotone (files : GrownFiles name new docs docs') (place : GrownSite name new start start')
    (free : (∀ keyword ∈ keywords, name ≠ .str keyword) ∨ ¬ MapRead name new docs docs' start start') {room : Nat}
    {namePrefix : Scalar} {fields fields' : List Scalar} (listed : extractFields docs room namePrefix start = .ok fields)
    (listed' : extractFields docs' room namePrefix start' = .ok fields') : fields ⊆ fields' :=
  extractFields_grown files free room namePrefix start start' .start place fields fields' listed listed'

/-! ### Documents that grow -/

theorem grownFiles_noFiles : GrownFiles name new (noFiles _) (noFiles _) := by
  refine ⟨rfl, fun url spec spec' read read' => ?_⟩
  obtain rfl := Except.ok.inj (read.symm.trans read')
  exact .same spec

/-- A document with one schema. -/
def documentOf (properties : List (Scalar × Node)) : Node :=
  .map [(.str "Company", .map [(.str "properties", .map properties)])]

def text : Node := .map [(.str "type", .scalar (.str "string"))]

theorem widened_snoc {properties : List (Scalar × Node)} (fresh : hasKey properties name = false) :
    Widened name new properties (properties ++ [(name, new)]) := by
  have wider : Widened name new (properties ++ []) (properties ++ (name, new) :: []) := .insert (by simpa using fresh)
  rwa [List.append_nil] at wider

theorem grown_documentOf {properties : List (Scalar × Node)} (fresh : hasKey properties name = false) :
    Grown name new (documentOf properties) (documentOf (properties ++ [(name, new)])) :=
  @Grown.entry _ _ [] [] _ _ _ (@Grown.property _ _ [] [] _ _ (widened_snoc fresh))

/-- A schema of the document, read by a reference. -/
def readBy (ref : String) (properties : List (Scalar × Node)) : Site where
  schema := refTo (.scalar (.str ref))
  spec := documentOf properties

theorem grownSite_readBy (ref : String) {properties : List (Scalar × Node)} (fresh : hasKey properties name = false) :
    GrownSite name new (readBy ref properties) (readBy ref (properties ++ [(name, new)])) :=
  ⟨.grown (.same _), grown_documentOf fresh, rfl, rfl⟩

theorem fields_monotone_company :
    ∃ fields, extractFields (noFiles (Except PyError)) 5 (.str "")
      (readBy "#/Company" [(.str "inn", text), (.str "kpp", text)]) = .ok fields ∧ [.str "inn"] ⊆ fields := by
  have place : GrownSite (.str "kpp") text (readBy "#/Company" [(.str "inn", text)]) _ := grownSite_readBy "#/Company" rfl
  exact ⟨_, rfl, @fields_monotone _ _ _ _ _ _ grownFiles_noFiles place (.inl (by decide)) 5 (.str "") _ _ rfl rfl⟩

/-- A property called `allOf` hides the others where their map is read as a schema;
    one whose schema is no mapping cannot be read. -/
theorem fields_lost :
    (∃ before after, GrownSite (.str "allOf") (.map []) before after ∧
      extractFields (noFiles (Except PyError)) 5 (.str "") before = .ok [.str "inn"] ∧
      extractFields (noFiles (Except PyError)) 5 (.str "") after = .ok []) ∧
    ∃ before after, GrownSite (.str "kpp") (.scalar (.bool true)) before after ∧
      extractFields (noFiles (Except PyError)) 5 (.str "") before = .ok [.str "inn"] ∧
      extractFields (noFiles (Except PyError)) 5 (.str "") after = .error .typeError := by
  refine ⟨⟨readBy "#/Company/properties" [(.str "properties", .map [(.str "inn", text)])],
      readBy "#/Company/properties" [(.str "properties", .map [(.str "inn", text)]), (.str "allOf", .map [])], ?_, rfl, rfl⟩,
    readBy "#/Company" [(.str "inn", text)],
      readBy "#/Company" [(.str "inn", text), (.str "kpp", .scalar (.bool true))], ?_, rfl, rfl⟩
  · exact grownSite_readBy _ rfl
  · exact grownSite_readBy _ rfl

end ScanApi.Growth
