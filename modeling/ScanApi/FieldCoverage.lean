import ScanApi.Examples

/-!
The example of a body and its fields. `_schema_to_example` enters twelve levels
and `_extract_fields` four, and only the first reads properties beside a
combinator; where a schema keeps to what both read (`Comparable`), every key of
the example is one of the fields (`shows_fields`).
-/
namespace ScanApi.FieldCoverage
open ScanApi.Raising ScanApi.Yaml ScanApi.Python ScanApi.Refs ScanApi.Fields ScanApi.Examples

/-- A key of an object, or of one of the objects of an array. -/
inductive Shows (key : Scalar) : Node → Prop
  | entry {entries : List (Scalar × Node)} (member : key ∈ entries.map Prod.fst) : Shows key (.map entries)
  | item {items : List Node} {value : Node} (member : value ∈ items) (shown : Shows key value) :
      Shows key (.list items)

variable {docs : Documents (Except PyError)}

/-- A schema that is neither a combinator nor an object nor an array. -/
structure Plain (target : Site) : Prop where
  noExample : contains "example" target.schema = .ok false
  combined : combined target.schema = .ok none
  noObject : isObjectSchema target.schema = .ok false
  noArray : isArraySchema target.schema = .ok false

/-- A schema that both recursions read alike, with what is one level below it. -/
structure Alike (docs : Documents (Except PyError)) (below : Site → Prop) (target : Site) : Prop where
  noExample : contains "example" target.schema = .ok false
  /-- A combinator has no properties of its own, and a reference in it leads to a
      schema and not to another reference. -/
  subs : ∀ subs l, combined target.schema = .ok (some subs) → iter subs = .ok l →
    contains "properties" target.schema = .ok false ∧
    ∀ sub ∈ l, (∀ entered, enter docs (target.at sub) = .ok (some entered) →
      contains "$ref" entered.schema = .ok false) ∧ below (target.at sub)
  items : ∀ schema, combined target.schema = .ok none → isObjectSchema target.schema = .ok false →
    isArraySchema target.schema = .ok true → get "items" (.map []) target.schema = .ok schema →
    below (target.at schema)

/-- On the way to the objects of a body at most `room` levels are entered, and
    both recursions read each of them alike; below the last there are only
    scalars. -/
def Comparable (docs : Documents (Except PyError)) : (room : Nat) → Site → Prop
  | 0, site => ∀ target, enter docs site = .ok (some target) → Plain target
  | room + 1, site => ∀ target, enter docs site = .ok (some target) → Alike docs (Comparable docs room) target

theorem comparable_of_enter {room : Nat} {site target : Site} (entered : enter docs site = .ok (some target))
    (alike : Alike docs (Comparable docs room) target) : Comparable docs (room + 1) site := by
  intro other entered'
  obtain rfl := Option.some.inj (Except.ok.inj (entered.symm.trans entered'))
  exact alike

section
variable {below : Site → Prop} {target : Site}

theorem alike_combiner {subs : Node} {l : List Node} (noExample : contains "example" target.schema = .ok false)
    (found : combined target.schema = .ok (some subs)) (unpacked : iter subs = .ok l)
    (noProperties : contains "properties" target.schema = .ok false)
    (each : ∀ sub ∈ l, (∀ entered, enter docs (target.at sub) = .ok (some entered) →
      contains "$ref" entered.schema = .ok false) ∧ below (target.at sub)) : Alike docs below target where
  noExample := noExample
  subs subs' l' found' unpacked' := by
    obtain rfl := Option.some.inj (Except.ok.inj (found.symm.trans found'))
    obtain rfl := Except.ok.inj (unpacked.symm.trans unpacked')
    exact ⟨noProperties, each⟩
  items _ alone := by rw [found] at alone; cases alone

theorem alike_object (noExample : contains "example" target.schema = .ok false)
    (alone : combined target.schema = .ok none) (object : isObjectSchema target.schema = .ok true) :
    Alike docs below target where
  noExample := noExample
  subs _ _ found := by rw [alone] at found; cases found
  items _ _ noObject := by rw [object] at noObject; cases noObject

theorem alike_array {schema : Node} (noExample : contains "example" target.schema = .ok false)
    (alone : combined target.schema = .ok none) (_ : isObjectSchema target.schema = .ok false)
    (read : get "items" (.map []) target.schema = .ok schema) (inner : below (target.at schema)) :
    Alike docs below target where
  noExample := noExample
  subs _ _ found := by rw [alone] at found; cases found
  items schema' _ _ _ read' := by
    obtain rfl := Except.ok.inj (read.symm.trans read')
    exact inner

end

/-! ### What a value shows -/

theorem not_shows_scalar {key : Scalar} {value : Scalar} : ¬ Shows key (.scalar value) := by
  intro shown
  cases shown

theorem not_shows_typeDefault {key : Scalar} {type value : Node} (returned : typeDefault type = .ok value) :
    ¬ Shows key value := by
  obtain ⟨name, -, chosen⟩ := bind_ok.mp returned
  split at chosen <;> (cases chosen; exact not_shows_scalar)

theorem mem_setItem {entries : List (Scalar × Node)} {key name : Scalar} {value : Node}
    (member : key ∈ (setItem entries name value).map Prod.fst) : key ∈ entries.map Prod.fst ∨ key = name := by
  unfold setItem at member
  split at member
  · rw [List.map_map] at member
    obtain ⟨e, inside, rfl⟩ := List.mem_map.mp member
    refine .inl (List.mem_map.mpr ⟨e, inside, ?_⟩)
    simp only [Function.comp_apply]
    split <;> rfl
  · simpa using member

theorem mem_update {other : List (Scalar × Node)} {key : Scalar} : ∀ {entries : List (Scalar × Node)},
    key ∈ (update entries other).map Prod.fst → key ∈ entries.map Prod.fst ∨ key ∈ other.map Prod.fst := by
  induction other with
  | nil => intro entries member; exact .inl member
  | cons e rest ih =>
    intro entries member
    rcases ih member with old | new
    · rcases mem_setItem old with old | rfl
      · exact .inl old
      · exact .inr (by simp)
    · exact .inr (List.mem_cons_of_mem _ new)

/-! ### One level -/

/-- The properties of an object are its fields. -/
theorem extend_propertyFields {nested : Bool} {deeper : Scalar → Site → Except PyError (List Scalar)}
    {namePrefix : Scalar} (top : namePrefix.truthy = false) {site : Site} {properties : List (Scalar × Node)}
    {fields : List Scalar} (returned : extend (propertyFields nested deeper namePrefix site) properties = .ok fields) :
    properties.map Prod.fst ⊆ fields := by
  intro name member
  obtain ⟨property, inside, rfl⟩ := List.mem_map.mp member
  obtain ⟨part, one, within⟩ := extend_ok returned property inside
  have full : fullName namePrefix property.1 = property.1 := by simp [fullName, top]
  refine within ?_
  cases nested with
  | false =>
    obtain rfl := pure_ok.mp one
    simp [full]
  | true =>
    obtain ⟨below, -, same⟩ := bind_ok.mp one
    obtain rfl := pure_ok.mp same
    simp [full]

/-- The keys of an object are its properties. -/
theorem objectExample_keys {deeper : Site → Except PyError Node} {site : Site} {key : Scalar} :
    ∀ {properties obj result : List (Scalar × Node)}, objectExample deeper site properties obj = .ok result →
      key ∈ result.map Prod.fst → key ∈ obj.map Prod.fst ∨ key ∈ properties.map Prod.fst := by
  intro properties
  induction properties with
  | nil =>
    intro obj result returned member
    obtain rfl := pure_ok.mp returned
    exact .inl member
  | cons property rest ih =>
    intro obj result returned member
    obtain ⟨value, -, tail⟩ := bind_ok.mp returned
    rcases ih tail member with old | new
    · rcases mem_setItem old with old | rfl
      · exact .inl old
      · exact .inr (by simp)
    · exact .inr (List.mem_cons_of_mem _ new)

/-- What the subschemas of a combiner show is all that the merge shows. -/
theorem mergeSubs_shows {deeper : Site → Except PyError Node} {site : Site} {Known : Scalar → Prop} :
    ∀ {subs : List Node} {merged : List (Scalar × Node)} {result : Node ⊕ List (Scalar × Node)},
      (∀ sub ∈ subs, ∀ target value key, combinerSite docs site sub = .ok (some target) →
        deeper target = .ok value → Shows key value → Known key) →
      (∀ key ∈ merged.map Prod.fst, Known key) → mergeSubs docs deeper site subs merged = .ok result →
      ∀ key, Shows key (result.elim id .map) → Known key := by
  intro subs
  induction subs with
  | nil =>
    intro merged result _ known returned key shown
    obtain rfl := pure_ok.mp returned
    cases shown with
    | entry member => exact known key member
  | cons sub rest ih =>
    intro merged result one known returned
    have others := fun s (inside : s ∈ rest) => one s (List.mem_cons_of_mem _ inside)
    obtain ⟨place, found, tail⟩ := bind_ok.mp returned
    cases place with
    | none => exact ih others known tail
    | some target =>
      obtain ⟨value, ran, tail⟩ := bind_ok.mp tail
      have shows := fun key => one sub List.mem_cons_self target value key found ran
      cases value with
      | map entries =>
        refine ih others (fun key member => ?_) tail
        rcases mem_update member with old | new
        · exact known key old
        · exact shows key (.entry new)
      | scalar _ | list _ | set _ =>
        dsimp only at tail
        split at tail
        · obtain rfl := pure_ok.mp tail
          exact shows
        · exact ih others known tail

/-- A subschema of a combiner is read where both recursions enter it. -/
theorem schemaToExample_combinerSite {site target : Site} {sub : Node} {level : Nat}
    (found : combinerSite docs site sub = .ok (some target))
    (direct : ∀ entered, enter docs (site.at sub) = .ok (some entered) → contains "$ref" entered.schema = .ok false) :
    schemaToExample docs level target = schemaToExample docs level (site.at sub) := by
  cases level with
  | zero => rfl
  | succ level =>
    obtain ⟨hasRef, decided, tail⟩ := bind_ok.mp found
    rw [py_except] at decided
    cases hasRef with
    | false =>
      obtain rfl := Option.some.inj (pure_ok.mp tail)
      rfl
    | true =>
      obtain ⟨ref, read, tail⟩ := bind_ok.mp tail
      obtain ⟨resolved, reached, tail⟩ := bind_ok.mp tail
      rw [py_except] at read
      obtain ⟨nonempty, hasRef⟩ := isRef_true decided
      have entered : enter docs (site.at sub) = .ok (some target) := by
        rw [enter_ref nonempty hasRef read, resolveRef_at, reached]
        exact tail
      split at tail
      · rename_i usable
        obtain rfl := Option.some.inj (pure_ok.mp tail)
        have itself : enter docs resolved = .ok (some resolved) := enter_self usable (direct _ entered)
        rw [schemaToExample, schemaToExample, itself, entered]
      · cases tail

/-- One level below, every key that an example shows is one of the fields. -/
def CoversBelow (docs : Documents (Except PyError)) (level : Nat) (below : Scalar → Site → Except PyError (List Scalar))
    (namePrefix : Scalar) (Below : Site → Prop) : Prop :=
  ∀ site, Below site → ∀ value fields, schemaToExample docs level site = .ok value →
    below namePrefix site = .ok fields → ∀ key, Shows key value → key ∈ fields

/-- An object's example shows its properties, which are its fields. -/
theorem shows_object {deeper : Site → Except PyError Node} {below : Scalar → Site → Except PyError (List Scalar)}
    {nested : Bool} {namePrefix : Scalar} (top : namePrefix.truthy = false) {target : Site} {value : Node}
    {fields : List Scalar} (noExample : contains "example" target.schema = .ok false)
    (alone : combined target.schema = .ok none) (object : isObjectSchema target.schema = .ok true)
    (made : exampleOf docs deeper target = .ok value) (listed : schemaFields nested below namePrefix target = .ok fields)
    {key : Scalar} (shown : Shows key value) : key ∈ fields := by
  simp only [exampleOf, schemaFields, noExample, alone, object, py_ok, pure_bind, Bool.false_eq_true, ↓reduceIte]
    at made listed
  obtain ⟨properties, read, made⟩ := bind_ok.mp made
  obtain ⟨entries, unpacked, made⟩ := bind_ok.mp made
  obtain ⟨obj, looped, same⟩ := bind_ok.mp made
  obtain rfl := pure_ok.mp same
  simp only [py_except] at read unpacked
  simp only [read, unpacked, py_ok, pure_bind] at listed
  cases shown with
  | entry member =>
    rcases objectExample_keys looped member with impossible | inside
    · cases impossible
    · exact extend_propertyFields top listed inside

/-- A combiner shows what its subschemas show. -/
theorem shows_combiner {level : Nat} {below : Scalar → Site → Except PyError (List Scalar)} {nested : Bool}
    {namePrefix : Scalar} {target : Site} {value subs : Node} {fields : List Scalar}
    {Below : Site → Prop} (alike : Alike docs Below target) (some : combined target.schema = .ok (some subs))
    (deeper : CoversBelow docs level below namePrefix Below)
    (made : exampleOf docs (schemaToExample docs level) target = .ok value)
    (listed : schemaFields nested below namePrefix target = .ok fields) {key : Scalar} (shown : Shows key value) :
    key ∈ fields := by
  simp only [exampleOf, schemaFields, alike.noExample, some, py_ok, pure_bind, Bool.false_eq_true, ↓reduceIte]
    at made listed
  obtain ⟨l, unpacked, made⟩ := bind_ok.mp made
  rw [py_except] at unpacked
  simp only [unpacked, py_ok, pure_bind] at listed
  obtain ⟨noProperties, each⟩ := alike.subs subs l some unpacked
  obtain ⟨result, looped, made⟩ := bind_ok.mp made
  have all : ∀ key, Shows key (result.elim id .map) → key ∈ fields := by
    refine mergeSubs_shows (fun sub inside place value key found ran shown => ?_) (by simp) looped
    obtain ⟨direct, comparable⟩ := each sub inside
    obtain ⟨part, ran', within⟩ := extend_ok listed sub inside
    rw [schemaToExample_combinerSite found direct] at ran
    exact within (deeper _ comparable value part ran ran' key shown)
  cases result with
  | inl early =>
    obtain rfl := pure_ok.mp made
    exact all key shown
  | inr merged =>
    obtain ⟨properties, read, made⟩ := bind_ok.mp made
    rw [py_except] at read
    -- It has no properties of its own that would be merged in.
    obtain rfl := get_absent noProperties read
    have same : (pure (if merged.isEmpty then pyNone else .map merged) : Except PyError Node) = .ok value := made
    obtain rfl := pure_ok.mp same
    split at shown
    · exact absurd shown not_shows_scalar
    · exact all key shown

/-- An array shows what its items show. -/
theorem shows_array {level : Nat} {below : Scalar → Site → Except PyError (List Scalar)} {nested : Bool}
    {namePrefix : Scalar} {target : Site} {value : Node} {fields : List Scalar}
    {Below : Site → Prop} (alike : Alike docs Below target) (alone : combined target.schema = .ok none)
    (noObject : isObjectSchema target.schema = .ok false) (array : isArraySchema target.schema = .ok true)
    (deeper : CoversBelow docs level below namePrefix Below)
    (made : exampleOf docs (schemaToExample docs level) target = .ok value)
    (listed : schemaFields nested below namePrefix target = .ok fields) {key : Scalar} (shown : Shows key value) :
    key ∈ fields := by
  simp only [exampleOf, schemaFields, alike.noExample, alone, noObject, array, py_ok, pure_bind, Bool.false_eq_true,
    ↓reduceIte] at made listed
  obtain ⟨schema, read, made⟩ := bind_ok.mp made
  obtain ⟨value', ran, made⟩ := bind_ok.mp made
  rw [py_except] at read
  simp only [read, py_ok, pure_bind] at listed
  obtain rfl := pure_ok.mp made
  have inner := deeper _ (alike.items schema alone noObject array read) value' fields ran listed key
  split at shown
  · cases shown with
    | item member _ => cases member
  · cases shown with
    | item member shown =>
      obtain rfl := List.mem_singleton.mp member
      exact inner shown

/-- A value by its type alone shows nothing. -/
theorem not_shows_plain {deeper : Site → Except PyError Node} {target : Site} (plain : Plain target) {value : Node}
    (made : exampleOf docs deeper target = .ok value) {key : Scalar} : ¬ Shows key value := by
  simp only [exampleOf, plain.noExample, plain.combined, plain.noObject, plain.noArray, py_ok, pure_bind,
    Bool.false_eq_true, ↓reduceIte] at made
  obtain ⟨type, -, made⟩ := bind_ok.mp made
  exact not_shows_typeDefault (by simpa using made)

/-- One level: what holds one level below holds here. -/
theorem shows_level {level : Nat} {below : Scalar → Site → Except PyError (List Scalar)} {nested : Bool}
    {namePrefix : Scalar} (top : namePrefix.truthy = false) {target : Site} {value : Node} {fields : List Scalar}
    {Below : Site → Prop} (alike : Alike docs Below target)
    (deeper : CoversBelow docs level below namePrefix Below)
    (made : exampleOf docs (schemaToExample docs level) target = .ok value)
    (listed : schemaFields nested below namePrefix target = .ok fields) {key : Scalar} (shown : Shows key value) :
    key ∈ fields := by
  obtain ⟨subs, _, found, _⟩ | ⟨alone, object, _⟩ | ⟨alone, noObject, array, _⟩ | ⟨alone, noObject, noArray, _⟩ :=
    schemaFields_cases listed
  · exact shows_combiner alike found deeper made listed shown
  · exact shows_object top alike.noExample alone object made listed shown
  · exact shows_array alike alone noObject array deeper made listed shown
  · exact absurd shown (not_shows_plain ⟨alike.noExample, alone, noObject, noArray⟩ made)

/-- Only the example of a schema that is entered shows keys. -/
theorem entered_of_shows {level : Nat} {site : Site} {value : Node} (made : schemaToExample docs level site = .ok value)
    {key : Scalar} (shown : Shows key value) : ∃ deeper target, enter docs site = .ok (some target) ∧
      exampleOf docs (schemaToExample docs deeper) target = .ok value := by
  cases level with
  | zero =>
    obtain rfl := pure_ok.mp made
    exact absurd shown not_shows_scalar
  | succ deeper =>
    obtain ⟨place, entered, made⟩ := bind_ok.mp made
    cases place with
    | none =>
      obtain rfl := pure_ok.mp made
      exact absurd shown not_shows_scalar
    | some target => exact ⟨deeper, target, entered, made⟩

/-- Where a schema is read alike by both recursions, every key its example shows
    is one of its fields. -/
theorem shows_fields : ∀ {room : Nat} {site : Site}, Comparable docs room site →
    ∀ {level : Nat} {namePrefix : Scalar} {value : Node} {fields : List Scalar}, namePrefix.truthy = false →
      schemaToExample docs level site = .ok value → extractFields docs room namePrefix site = .ok fields →
        ∀ key, Shows key value → key ∈ fields := by
  intro room
  induction room with
  | zero =>
    intro site comparable level namePrefix value fields _ made _ key shown
    obtain ⟨_, target, entered, made⟩ := entered_of_shows made shown
    exact absurd shown (not_shows_plain (comparable target entered) made)
  | succ room ih =>
    intro site comparable level namePrefix value fields top made listed key shown
    obtain ⟨level, target, entered, made⟩ := entered_of_shows made shown
    obtain ⟨place, entered', listed⟩ := bind_ok.mp listed
    obtain rfl := Except.ok.inj (entered.symm.trans entered')
    have deeper := fun site below value fields => @ih site below level namePrefix value fields top
    exact shows_level top (comparable target entered) deeper made listed shown

/-- Whatever key the example of a body shows is one of its fields. -/
def Covers (docs : Documents (Except PyError)) (site : Site) : Prop :=
  ∀ value fields, schemaToExample docs 13 site = .ok value → extractFields docs 5 (.str "") site = .ok fields →
    ∀ key, Shows key value → key ∈ fields

theorem covers_of_comparable {site : Site} (comparable : Comparable docs 5 site) : Covers docs site :=
  fun _ _ made listed => shows_fields comparable (by decide) made listed

/-! ### Where one recursion reads more than the other -/

mutual
/-- The key stands somewhere in the value. -/
def occurs (key : String) : Node → Bool
  | .map entries => occursEntries key entries
  | .list items => occursItems key items
  | _ => false
def occursEntries (key : String) : List (Scalar × Node) → Bool
  | [] => false
  | (name, value) :: rest => name = .str key || occurs key value || occursEntries key rest
def occursItems (key : String) : List Node → Bool
  | [] => false
  | value :: rest => occurs key value || occursItems key rest
end

def allOf (subs : List Node) : Node := .map [(.str "allOf", .list subs)]

/-- A page of a list: items of a shared schema beside an inline one. -/
def page : Site where
  schema := .map [(.str "type", .scalar (.str "array")),
    (.str "items", allOf [.map [(.str "$ref", .scalar (.str "#/Company"))], objectOf "kpp"])]
  spec := .map [(.str "Company", objectOf "inn")]

theorem covers_of_comparable_page : Covers (noFiles _) page ∧
    ∃ value, schemaToExample (noFiles (Except PyError)) 13 page = .ok value ∧
      Shows (.str "inn") value ∧ Shows (.str "kpp") value := by
  have comparable : Comparable (noFiles _) 5 page := by
    refine comparable_of_enter rfl (alike_array rfl rfl rfl rfl ?_)
    refine comparable_of_enter rfl (alike_combiner rfl rfl rfl rfl (fun sub member => ?_))
    rcases List.mem_pair.mp member with rfl | rfl
    · exact ⟨fun _ entered => by cases entered; rfl, comparable_of_enter rfl (alike_object rfl rfl rfl)⟩
    · exact ⟨fun _ entered => by cases entered; rfl, comparable_of_enter rfl (alike_object rfl rfl rfl)⟩
  refine ⟨covers_of_comparable comparable, _, rfl, ?_, ?_⟩
  · exact .item List.mem_cons_self (.entry (by decide))
  · exact .item List.mem_cons_self (.entry (by decide))

/-- Five levels of combinators around an object. -/
def nested : Site where
  schema := allOf [allOf [allOf [allOf [allOf [objectOf "inn"]]]]]
  spec := .map []

theorem not_covers_nested : occurs "example" nested.schema = false ∧ occurs "$ref" nested.schema = false ∧
    ¬ Covers (noFiles _) nested := by
  refine ⟨by decide, by decide, fun covers => ?_⟩
  have known := covers _ _ rfl rfl (.str "inn") (.entry (by decide))
  cases known

end ScanApi.FieldCoverage
