import ScanApi.Refs

/-!
The field names of a body (`_extract_fields`). `room` is how many levels may
still be entered: the source's `depth` is `5 - room`.
-/
namespace ScanApi.Fields
open ScanApi.Raising ScanApi.Yaml ScanApi.Python ScanApi.Refs

/-- The value of the first of the keys that a schema has. -/
def firstOf (schema : Node) : List String → Except PyError (Option Node)
  | [] => .ok none
  | key :: rest => do
    if ← contains key schema then
      let value ← item key schema
      return some value
    firstOf schema rest

/-- The subschemas a schema combines. -/
def combined (schema : Node) : Except PyError (Option Node) := firstOf schema ["allOf", "oneOf", "anyOf"]

/-- Declared as an object, or with properties. -/
def isObjectSchema (schema : Node) : Except PyError Bool := do
  let type ← get? "type" schema
  if isStr "object" type then return true
  contains "properties" schema

/-- A schema is an array if declared as such, or has `items:` without an explicit
    `type: array`. -/
def isArraySchema (schema : Node) : Except PyError Bool := do
  let type ← get? "type" schema
  if isStr "array" type then return true
  contains "items" schema

variable {m : Type → Type} [Monad m] [MonadExceptOf PyError m]

/-- The name of a property under a prefix. -/
def fullName (namePrefix name : Scalar) : Scalar :=
  if namePrefix.truthy then .str (strScalar namePrefix ++ "." ++ strScalar name) else name

/-- One property: its name, and where these are listed the names below it. -/
def propertyFields (nested : Bool) (deeper : Scalar → Site → m (List Scalar)) (namePrefix : Scalar) (site : Site)
    (property : Scalar × Node) : m (List Scalar) := do
  let full := fullName namePrefix property.1
  if nested then
    let below ← deeper full (site.at property.2)
    return full :: below
  return [full]

/-- One level of `_extract_fields`, after the reference at its top. -/
def schemaFields (nested : Bool) (deeper : Scalar → Site → m (List Scalar)) (namePrefix : Scalar) (site : Site) :
    m (List Scalar) := do
  match ← py (combined site.schema) with
  | some subs =>
    let subs ← py (iter subs)
    extend (fun sub => deeper namePrefix (site.at sub)) subs
  | none =>
    if ← py (isObjectSchema site.schema) then
      let properties ← py (get "properties" (.map []) site.schema)
      let properties ← py (items properties)
      extend (propertyFields nested deeper namePrefix site) properties
    else if ← py (isArraySchema site.schema) then
      let schema ← py (get "items" (.map []) site.schema)
      deeper namePrefix (site.at schema)
    else return []

/-- `_extract_fields` at depth `5 - room`; below depth 2 properties are listed
    without what is inside them. -/
def extractFields (docs : Documents m) : (room : Nat) → (namePrefix : Scalar) → Site → m (List Scalar)
  | 0, _, _ => return []
  | room + 1, namePrefix, site => do
    match ← enter docs site with
    | none => return []
    | some target => schemaFields (2 < room) (extractFields docs room) namePrefix target

/-! ### One level -/

/-- The four ways to read a schema: as a combination, an object, an array or a scalar. -/
theorem schemaFields_cases {nested : Bool} {deeper : Scalar → Site → Except PyError (List Scalar)} {namePrefix : Scalar}
    {target : Site} {fields : List Scalar} (listed : schemaFields nested deeper namePrefix target = .ok fields) :
    (∃ value subs, combined target.schema = .ok (some value) ∧ iter value = .ok subs ∧
      extend (fun sub => deeper namePrefix (target.at sub)) subs = .ok fields) ∨
    (combined target.schema = .ok none ∧ isObjectSchema target.schema = .ok true ∧ ∃ entries,
      (get "properties" (.map []) target.schema >>= items) = .ok entries ∧
      extend (propertyFields nested deeper namePrefix target) entries = .ok fields) ∨
    (combined target.schema = .ok none ∧ isObjectSchema target.schema = .ok false ∧
      isArraySchema target.schema = .ok true ∧ ∃ schema, get "items" (.map []) target.schema = .ok schema ∧
      deeper namePrefix (target.at schema) = .ok fields) ∨
    (combined target.schema = .ok none ∧ isObjectSchema target.schema = .ok false ∧
      isArraySchema target.schema = .ok false ∧ fields = []) := by
  obtain ⟨place, alone, listed⟩ := bind_ok.mp listed
  rw [py_except] at alone
  cases place with
  | some value =>
    obtain ⟨subs, unpacked, listed⟩ := bind_ok.mp listed
    rw [py_except] at unpacked
    exact .inl ⟨value, subs, alone, unpacked, listed⟩
  | none =>
    obtain ⟨object, isObject, listed⟩ := bind_ok.mp listed
    rw [py_except] at isObject
    cases object with
    | true =>
      obtain ⟨properties, read, listed⟩ := bind_ok.mp listed
      obtain ⟨entries, unpacked, listed⟩ := bind_ok.mp listed
      rw [py_except] at read unpacked
      exact .inr (.inl ⟨alone, isObject, entries, bind_ok.mpr ⟨properties, read, unpacked⟩, listed⟩)
    | false =>
      obtain ⟨array, isArray, listed⟩ := bind_ok.mp listed
      rw [py_except] at isArray
      cases array with
      | true =>
        obtain ⟨schema, read, listed⟩ := bind_ok.mp listed
        rw [py_except] at read
        exact .inr (.inr (.inl ⟨alone, isObject, isArray, schema, read, listed⟩))
      | false => exact .inr (.inr (.inr ⟨alone, isObject, isArray, (pure_ok.mp listed).symm⟩))

end ScanApi.Fields
