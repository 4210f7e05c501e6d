import ScanApi.Fields

/-!
The properties behind the field names of a body. `Reads` says which properties
`_extract_fields` comes by, each with the name it stands under; the names it
lists are the full names of these (`mem_extractFields`). A name under another one
is written into a text, and a name under none stands as the document has it, so
all names are texts exactly where the properties of the second kind have text
keys (`texts_iff`).
-/
namespace ScanApi.FieldNames
open ScanApi.Raising ScanApi.Yaml ScanApi.Python ScanApi.Refs ScanApi.Fields

variable {docs : Documents (Except PyError)} {room : Nat} {namePrefix : Scalar} {site target : Site}

/-! ### The properties of a body -/

/-- The schema at a site is read as an object with these properties. -/
structure ObjectAt (docs : Documents (Except PyError)) (site target : Site) (entries : List (Scalar × Node)) : Prop where
  entered : enter docs site = .ok (some target)
  alone : combined target.schema = .ok none
  object : isObjectSchema target.schema = .ok true
  listed : (get "properties" (.map []) target.schema >>= items) = .ok entries

/-- It is read as a combination of subschemas. -/
structure CombinedAt (docs : Documents (Except PyError)) (site target : Site) (subs : List Node) : Prop where
  entered : enter docs site = .ok (some target)
  listed : ∃ value, combined target.schema = .ok (some value) ∧ iter value = .ok subs

/-- It is read as an array of such items. -/
structure ArrayAt (docs : Documents (Except PyError)) (site target : Site) (schema : Node) : Prop where
  entered : enter docs site = .ok (some target)
  alone : combined target.schema = .ok none
  noObject : isObjectSchema target.schema = .ok false
  array : isArraySchema target.schema = .ok true
  listed : get "items" (.map []) target.schema = .ok schema

/-- `Reads docs room namePrefix site under key`: within `room` levels of the site,
    read under a prefix, is the property `key`, under the name `under`. -/
inductive Reads (docs : Documents (Except PyError)) :
    (room : Nat) → (namePrefix : Scalar) → Site → (under key : Scalar) → Prop
  | property {room : Nat} {namePrefix : Scalar} {site target : Site} {entries : List (Scalar × Node)}
      {e : Scalar × Node} (here : ObjectAt docs site target entries) (member : e ∈ entries) :
      Reads docs (room + 1) namePrefix site namePrefix e.1
  | inside {room : Nat} {namePrefix : Scalar} {site target : Site} {entries : List (Scalar × Node)}
      {e : Scalar × Node} {under key : Scalar} (here : ObjectAt docs site target entries) (member : e ∈ entries)
      (nested : 2 < room) (below : Reads docs room (fullName namePrefix e.1) (target.at e.2) under key) :
      Reads docs (room + 1) namePrefix site under key
  | sub {room : Nat} {namePrefix : Scalar} {site target : Site} {subs : List Node} {schema : Node}
      {under key : Scalar} (here : CombinedAt docs site target subs) (member : schema ∈ subs)
      (below : Reads docs room namePrefix (target.at schema) under key) : Reads docs (room + 1) namePrefix site under key
  | item {room : Nat} {namePrefix : Scalar} {site target : Site} {schema : Node} {under key : Scalar}
      (here : ArrayAt docs site target schema) (below : Reads docs room namePrefix (target.at schema) under key) :
      Reads docs (room + 1) namePrefix site under key

/-! ### One level -/

section
variable {nested : Bool} {deeper : Scalar → Site → Except PyError (List Scalar)}

/-- A property gives its full name, and where these are listed the names below. -/
theorem mem_propertyFields {property : Scalar × Node} {fields : List Scalar}
    (listed : propertyFields nested deeper namePrefix target property = .ok fields) {name : Scalar} :
    name ∈ fields ↔ name = fullName namePrefix property.1 ∨ nested = true ∧ ∃ below,
      deeper (fullName namePrefix property.1) (target.at property.2) = .ok below ∧ name ∈ below := by
  cases nested with
  | false =>
    obtain rfl := pure_ok.mp listed
    simp
  | true =>
    obtain ⟨below, ran, same⟩ := bind_ok.mp listed
    obtain rfl := pure_ok.mp same
    simp [ran]

theorem schemaFields_subs {subs : List Node} (here : CombinedAt docs site target subs) :
    schemaFields nested deeper namePrefix target = extend (fun sub => deeper namePrefix (target.at sub)) subs := by
  obtain ⟨value, found, unpacked⟩ := here.listed
  simp only [schemaFields, found, unpacked, py_ok, pure_bind]

theorem schemaFields_object {entries : List (Scalar × Node)} (here : ObjectAt docs site target entries) :
    schemaFields nested deeper namePrefix target =
      extend (propertyFields nested deeper namePrefix target) entries := by
  obtain ⟨properties, read, unpacked⟩ := bind_ok.mp here.listed
  simp only [schemaFields, here.alone, here.object, read, unpacked, py_ok, pure_bind, ↓reduceIte]

theorem schemaFields_array {schema : Node} (here : ArrayAt docs site target schema) :
    schemaFields nested deeper namePrefix target = deeper namePrefix (target.at schema) := by
  simp only [schemaFields, here.alone, here.noObject, here.array, here.listed, py_ok, pure_bind, Bool.false_eq_true,
    ↓reduceIte]

end

theorem extractFields_entered (entered : enter docs site = .ok (some target)) :
    extractFields docs (room + 1) namePrefix site =
      schemaFields (2 < room) (extractFields docs room) namePrefix target := by
  rw [extractFields, entered]
  rfl

/-! ### All levels -/

/-- Every property read is listed by its full name. -/
theorem reads_listed {under key : Scalar} (reads : Reads docs room namePrefix site under key) :
    ∀ {fields : List Scalar}, extractFields docs room namePrefix site = .ok fields → fullName under key ∈ fields := by
  induction reads with
  | property here member =>
    intro fields listed
    rw [extractFields_entered here.entered, schemaFields_object here] at listed
    obtain ⟨part, one, within⟩ := extend_ok listed _ member
    exact within ((mem_propertyFields one).mpr (.inl rfl))
  | inside here member nested below ih =>
    intro fields listed
    rw [extractFields_entered here.entered, schemaFields_object here] at listed
    obtain ⟨part, one, within⟩ := extend_ok listed _ member
    simp only [propertyFields, nested, decide_true, ↓reduceIte] at one
    obtain ⟨names, ran, same⟩ := bind_ok.mp one
    obtain rfl := pure_ok.mp same
    exact within (List.mem_cons_of_mem _ (ih ran))
  | sub here member below ih =>
    intro fields listed
    rw [extractFields_entered here.entered, schemaFields_subs here] at listed
    obtain ⟨part, one, within⟩ := extend_ok listed _ member
    exact within (ih one)
  | item here below ih =>
    intro fields listed
    rw [extractFields_entered here.entered, schemaFields_array here] at listed
    exact ih listed

/-- Every listed name is the full name of a property read. -/
theorem listed_reads : ∀ {room : Nat} {namePrefix : Scalar} {site : Site} {fields : List Scalar},
    extractFields docs room namePrefix site = .ok fields → ∀ name ∈ fields,
      ∃ under key, Reads docs room namePrefix site under key ∧ fullName under key = name := by
  intro room
  induction room with
  | zero =>
    intro namePrefix site fields listed name member
    obtain rfl := pure_ok.mp listed
    cases member
  | succ room ih =>
    intro namePrefix site fields listed name member
    obtain ⟨place, entered, read⟩ := bind_ok.mp listed
    cases place with
    | none =>
      obtain rfl := pure_ok.mp read
      cases member
    | some target =>
      obtain ⟨value, subs, found, unpacked, looped⟩ | ⟨alone, object, entries, unpacked, looped⟩ |
        ⟨alone, noObject, array, schema, read, ran⟩ | ⟨-, -, -, rfl⟩ := schemaFields_cases read
      · obtain ⟨sub, inside, part, ran, here⟩ := mem_extend looped name member
        obtain ⟨under, key, reads, same⟩ := ih ran name here
        exact ⟨under, key, .sub ⟨entered, value, found, unpacked⟩ inside reads, same⟩
      · have here : ObjectAt docs site target entries := ⟨entered, alone, object, unpacked⟩
        obtain ⟨property, inside, part, ran, found⟩ := mem_extend looped name member
        rcases (mem_propertyFields ran).mp found with rfl | ⟨nested, below, ran, found⟩
        · exact ⟨namePrefix, property.1, .property here inside, rfl⟩
        · obtain ⟨under, key, reads, same⟩ := ih ran name found
          exact ⟨under, key, .inside here inside (of_decide_eq_true nested) reads, same⟩
      · obtain ⟨under, key, reads, same⟩ := ih ran name member
        exact ⟨under, key, .item ⟨entered, alone, noObject, array, read⟩ reads, same⟩
      · cases member

/-- The names of a body are the full names of the properties read. -/
theorem mem_extractFields {fields : List Scalar} (listed : extractFields docs room namePrefix site = .ok fields)
    {name : Scalar} :
    name ∈ fields ↔ ∃ under key, Reads docs room namePrefix site under key ∧ fullName under key = name := by
  constructor
  · exact listed_reads listed name
  · rintro ⟨under, key, reads, rfl⟩
    exact reads_listed reads listed

/-! ### Names that are texts -/

/-- A text of a kind. -/
def TextOf (fits : String → Prop) (value : Scalar) : Prop := ∃ text, value = .str text ∧ fits text

/-- A kind of texts that a dotted name is of exactly when its parts are. -/
structure Dotted (fits : String → Prop) : Prop where
  empty : fits ""
  join (a b : String) : fits (a ++ "." ++ b) ↔ fits a ∧ fits b

/-- The key of a property that makes a name of the kind: under no name it has to
    be a text itself. -/
def KeyOf (fits : String → Prop) (under key : Scalar) : Prop :=
  fits (strScalar key) ∧ (under.truthy = false → ∃ text, key = .str text)

section
variable {fits : String → Prop} {under key : Scalar}

theorem keyOf_of_fullName (dotted : Dotted fits) (name : TextOf fits (fullName under key)) : KeyOf fits under key := by
  obtain ⟨text, same, fit⟩ := name
  unfold fullName at same
  split at same
  · rename_i nonempty
    obtain rfl := Scalar.str.inj same
    exact ⟨((dotted.join _ _).mp fit).2, fun top => absurd nonempty (by simp [top])⟩
  · subst same
    exact ⟨fit, fun _ => ⟨text, rfl⟩⟩

theorem fullName_of_keyOf (dotted : Dotted fits) (outer : fits (strScalar under)) (good : KeyOf fits under key) :
    TextOf fits (fullName under key) := by
  unfold fullName
  split
  · exact ⟨_, rfl, (dotted.join _ _).mpr ⟨outer, good.1⟩⟩
  · rename_i top
    obtain ⟨text, rfl⟩ := good.2 (by simpa using top)
    exact ⟨text, rfl, good.1⟩

/-- The name that a property stands under is made of keys read before it. -/
theorem reads_under (dotted : Dotted fits) (reads : Reads docs room namePrefix site under key) :
    fits (strScalar namePrefix) → (∀ under key, Reads docs room namePrefix site under key → KeyOf fits under key) →
      fits (strScalar under) := by
  induction reads with
  | property => intro outer _; exact outer
  | inside here member nested _ ih =>
    intro outer all
    obtain ⟨name, same, fit⟩ := fullName_of_keyOf dotted outer (all _ _ (.property here member))
    refine ih ?_ (fun under key below => all under key (.inside here member nested below))
    rw [same]
    exact fit
  | sub here member _ ih =>
    intro outer all
    exact ih outer (fun under key below => all under key (.sub here member below))
  | item here _ ih =>
    intro outer all
    exact ih outer (fun under key below => all under key (.item here below))

/-- All names of a body are texts of the kind exactly where the keys read are
    such that make them. -/
theorem texts_iff (dotted : Dotted fits) (outer : fits (strScalar namePrefix)) {fields : List Scalar}
    (listed : extractFields docs room namePrefix site = .ok fields) :
    (∀ name ∈ fields, TextOf fits name) ↔
      ∀ under key, Reads docs room namePrefix site under key → KeyOf fits under key := by
  constructor
  · intro texts under key reads
    exact keyOf_of_fullName dotted (texts _ (reads_listed reads listed))
  · intro all name member
    obtain ⟨under, key, reads, rfl⟩ := listed_reads listed name member
    exact fullName_of_keyOf dotted (reads_under dotted reads outer all) (all under key reads)

end

end ScanApi.FieldNames
