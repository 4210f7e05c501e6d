import ScanApi.Fields

/-!
The example of a body (`_schema_to_example`). `room` is how many levels may still
be entered: the source's `depth` is `13 - room`. A mapping under construction is
the list of its entries; Python's `None` is the null scalar.
-/
namespace ScanApi.Examples
open ScanApi.Raising ScanApi.Yaml ScanApi.Python ScanApi.Refs ScanApi.Fields

mutual
/-- Dates as their ISO text, at any depth of mappings and lists. -/
def jsonSafe : Node → Node
  | .scalar (.date _ iso) => .scalar (.str iso)
  | .map entries => .map (jsonSafeEntries entries)
  | .list items => .list (jsonSafeItems items)
  | value => value
def jsonSafeEntries : List (Scalar × Node) → List (Scalar × Node)
  | [] => []
  | (key, value) :: rest => (key, jsonSafe value) :: jsonSafeEntries rest
def jsonSafeItems : List Node → List Node
  | [] => []
  | value :: rest => jsonSafe value :: jsonSafeItems rest
end

/-- `{"string": "string", "integer": 0, ..}.get(t, "string")` of the type that a
    property declares. -/
def placeholder (property : Node) : Except PyError Node := do
  if !isDict property then return .scalar (.str "string")
  let type ← get "type" (.scalar (.str "string")) property
  match ← hashable type with
  | .str "integer" => return .scalar (.int 0)
  | .str "number" => return .scalar (.float "0.0")
  | .str "boolean" => return .scalar (.bool false)
  | .str "array" => return .list []
  | .str "object" => return .map []
  | _ => return .scalar (.str "string")

/-- `{"string": "string", "integer": 0, .., "null": None}.get(type, None)`. -/
def typeDefault (type : Node) : Except PyError Node := do
  match ← hashable type with
  | .str "string" => return .scalar (.str "string")
  | .str "integer" => return .scalar (.int 0)
  | .str "number" => return .scalar (.float "0.0")
  | .str "boolean" => return .scalar (.bool false)
  | _ => return pyNone

variable {m : Type → Type} [Monad m] [MonadExceptOf PyError m]

/-- A subschema of a combiner where it is to be read; a reference that leads
    nowhere is skipped. -/
def combinerSite (docs : Documents m) (site : Site) (sub : Node) : m (Option Site) := do
  if ← py (isRef sub) then
    let ref ← py (item "$ref" sub)
    let target ← resolveRef docs ref site
    return if target.schema.truthy then some target else none
  return some (site.at sub)

/-- The loop over the subschemas: objects are merged; before any was, another
    value is the result (`.inl`). -/
def mergeSubs (docs : Documents m) (deeper : Site → m Node) (site : Site) :
    List Node → (merged : List (Scalar × Node)) → m (Node ⊕ List (Scalar × Node))
  | [], merged => return .inr merged
  | sub :: rest, merged => do
    match ← combinerSite docs site sub with
    | none => mergeSubs docs deeper site rest merged
    | some target =>
      match ← deeper target with
      | .map entries => mergeSubs docs deeper site rest (update merged entries)
      | result =>
        if !isNone result && merged.isEmpty then return .inl result
        mergeSubs docs deeper site rest merged

/-- Merges the properties defined at the combiner level. -/
def mergeProperties (deeper : Site → m Node) (site : Site) :
    List (Scalar × Node) → (merged : List (Scalar × Node)) → m (List (Scalar × Node))
  | [], merged => return merged
  | (name, property) :: rest, merged => do
    if hasKey merged name then mergeProperties deeper site rest merged
    else
      let value ← deeper (site.at property)
      mergeProperties deeper site rest (if isNone value then merged else setItem merged name value)

/-- A property's value in an object: a child that yields nothing keeps its key
    with a placeholder. -/
def propertyExample (deeper : Site → m Node) (site : Site) (property : Node) : m Node := do
  let value ← deeper (site.at property)
  if !isNone value then return value
  py (placeholder property)

/-- The loop over the properties of an object. -/
def objectExample (deeper : Site → m Node) (site : Site) :
    List (Scalar × Node) → (obj : List (Scalar × Node)) → m (List (Scalar × Node))
  | [], obj => return obj
  | (name, property) :: rest, obj => do
    let value ← propertyExample deeper site property
    objectExample deeper site rest (setItem obj name value)

/-- One level of `_schema_to_example`, after the reference at its top. -/
def exampleOf (docs : Documents m) (deeper : Site → m Node) (site : Site) : m Node := do
  -- an explicit example always wins
  if ← py (contains "example" site.schema) then
    let value ← py (item "example" site.schema)
    return jsonSafe value
  match ← py (combined site.schema) with
  | some subs =>
    let subs ← py (iter subs)
    match ← mergeSubs docs deeper site subs [] with
    | .inl result => return result
    | .inr merged =>
      let properties ← py (get "properties" (.map []) site.schema)
      let properties ← py (items properties)
      let merged ← mergeProperties deeper site properties merged
      return if merged.isEmpty then pyNone else .map merged
  | none =>
    if ← py (isObjectSchema site.schema) then
      let properties ← py (get "properties" (.map []) site.schema)
      let properties ← py (items properties)
      let obj ← objectExample deeper site properties []
      return .map obj
    else if ← py (isArraySchema site.schema) then
      let schema ← py (get "items" (.map []) site.schema)
      let value ← deeper (site.at schema)
      return if isNone value then .list [] else .list [value]
    else
      let type ← py (get "type" (.scalar (.str "")) site.schema)
      py (typeDefault type)

/-- `_schema_to_example` at depth `13 - room`. -/
def schemaToExample (docs : Documents m) : (room : Nat) → Site → m Node
  | 0, _ => return pyNone
  | room + 1, site => do
    match ← enter docs site with
    | none => return pyNone
    | some target => exampleOf docs (schemaToExample docs room) target

end ScanApi.Examples
