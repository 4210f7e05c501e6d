import Mathlib.Data.Finset.Insert
import ScanApi.Python

/-!
References between schemas (`_resolve_pointer`, `_resolve_ref`). A schema is read
at a `Site`: in a document, from a URL, after the references seen on the branch.
How sibling files are fetched is left to `Documents`, in any program that may
raise.
-/
namespace ScanApi.Refs
open ScanApi.Yaml ScanApi.Python

/-- What `urlparse` finds that the code reads. -/
structure ParsedUrl where
  scheme : String
  netloc : String
deriving DecidableEq

structure Urllib where
  urljoin : String → String → Except PyError String
  urlparse : String → Except PyError ParsedUrl

/-- Sibling files of a spec, as `_fetch_external_spec` delivers them. -/
structure Documents (m : Type → Type) extends Urllib where
  fetchExternalSpec : String → m Node

/-- A schema with the document to resolve its references in. -/
structure Site where
  schema : Node
  spec : Node
  specUrl : Option String := none
  seen : Finset String := ∅

/-- The same place with another schema of the document. -/
def Site.at (site : Site) (schema : Node) : Site := { site with schema }
/-- Where a reference cannot be resolved. -/
def Site.unresolved (site : Site) : Site := site.at (.map [])

/-- `part.replace("~1", "/").replace("~0", "~")`. -/
def unescape (part : List Char) : String :=
  let rec replace (digit char : Char) : List Char → List Char
    | '~' :: c :: rest => if c = digit then char :: replace digit char rest else '~' :: replace digit char (c :: rest)
    | c :: rest => c :: replace digit char rest
    | [] => []
  String.ofList (replace '0' '~' (replace '1' '/' part))

/-- Walks the parts of a pointer down from a node. -/
def walk : List (List Char) → Node → Node
  | [], .map entries => .map entries
  | part :: rest, .map entries => walk rest ((lookup entries (unescape part)).getD (.map []))
  | _, _ => .map []

/-- Walk a local '#/a/b/c' JSON pointer inside `spec`. -/
def resolvePointer (ref : String) (spec : Node) : Node := walk ((ref.toList.drop 2).splitOn '/') spec

/-- Only a sibling file on the same http(s) host may be fetched. -/
def isSameOrigin (lib : Urllib) (url specUrl : String) : Except PyError Bool := do
  let target ← lib.urlparse url
  let base ← lib.urlparse specUrl
  pure ((target.scheme = "http" ∨ target.scheme = "https") ∧ target.netloc = base.netloc)

/-- `ref.partition("#")`, without the separator. -/
def partitionHash (ref : String) : String × String :=
  let parts := ref.toList.span (· ≠ '#')
  (String.ofList parts.1, String.ofList (parts.2.drop 1))

/-- A reference as the text it is searched by. -/
def refText : Node → Except PyError String
  | .scalar (.str ref) => .ok ref
  | .scalar (.binary _) => .error .typeError
  | .scalar _ => .error .attributeError
  | _ => .error .typeError

/-- `isinstance(value, dict) and "$ref" in value`. -/
def isRef (value : Node) : Except PyError Bool := if isDict value then contains "$ref" value else .ok false

variable {m : Type → Type} [Monad m] [MonadExceptOf PyError m]

/-- A reference into a sibling file; the branch has it among its seen ones. -/
def resolveExternal (docs : Documents m) (ref : String) (site : Site) : m Site := do
  let (filePart, fragment) := partitionHash ref
  if filePart = "" then return site.unresolved
  match site.specUrl with
  | none => return site.unresolved
  | some "" => return site.unresolved
  | some specUrl =>
    let externalUrl ← py (docs.urljoin specUrl filePart)
    let sibling ← py (isSameOrigin docs.toUrllib externalUrl specUrl)
    if !sibling then return site.unresolved
    let externalSpec ← docs.fetchExternalSpec externalUrl
    if !externalSpec.truthy then return site.unresolved
    let schema := if fragment = "" then externalSpec else resolvePointer ("#" ++ fragment) externalSpec
    return { site with schema, spec := externalSpec, specUrl := some externalUrl }

/-- Resolve a $ref — local ('#/...') or into a sibling file ('common/x.yml#/...').
    `seen` accumulates per branch. A ref that cannot be resolved yields an empty node. -/
def resolveRef (docs : Documents m) (ref : Node) (site : Site) : m Site := do
  if !ref.truthy then return site.unresolved
  let ref ← py (refText ref)
  if ref ∈ site.seen then return site.unresolved
  let branch := { site with seen := insert ref site.seen }
  if "#/".toList.isPrefixOf ref.toList then return branch.at (resolvePointer ref site.spec)
  resolveExternal docs ref branch

/-- Where a schema is read that both recursions are called with: the node its
    reference leads to, or itself. An empty schema is not read at all. -/
def enter (docs : Documents m) (site : Site) : m (Option Site) := do
  if !site.schema.truthy then return none
  if ← py (contains "$ref" site.schema) then
    let ref ← py (item "$ref" site.schema)
    let target ← resolveRef docs ref site
    return if target.schema.truthy then some target else none
  return some site

/-- A spec without sibling files. -/
def noFiles (m : Type → Type) [Monad m] : Documents m where
  urljoin base _ := .ok base
  urlparse _ := .ok ⟨"https", "bank"⟩
  fetchExternalSpec _ := pure (.map [])

/-- An object with one text property. -/
def objectOf (property : String) : Node :=
  .map [(.str "properties", .map [(.str property, .map [(.str "type", .scalar (.str "string"))])])]

/-! ### Where a schema is read -/

theorem isRef_true {value : Node} (decided : isRef value = .ok true) :
    value.truthy = true ∧ contains "$ref" value = .ok true := by
  cases value with
  | map entries =>
    cases entries with
    | nil => cases decided
    | cons e rest => exact ⟨rfl, decided⟩
  | scalar _ | list _ | set _ => cases decided

/-- Only the place of a reference matters, not the schema it stands in. -/
@[simp] theorem resolveRef_at (docs : Documents m) (ref : Node) (site : Site) (schema : Node) :
    resolveRef docs ref (site.at schema) = resolveRef docs ref site := rfl

variable {docs : Documents m} {site : Site}

theorem enter_empty (empty : site.schema.truthy = false) : enter docs site = pure none := by
  simp [enter, empty]

variable [LawfulMonad m]

theorem enter_self (nonempty : site.schema.truthy = true) (noRef : contains "$ref" site.schema = .ok false) :
    enter docs site = pure (some site) := by
  simp [enter, nonempty, noRef]

theorem enter_ref {ref : Node} (nonempty : site.schema.truthy = true)
    (hasRef : contains "$ref" site.schema = .ok true) (read : item "$ref" site.schema = .ok ref) :
    enter docs site = (fun target => if target.schema.truthy then some target else none) <$> resolveRef docs ref site := by
  simp [enter, nonempty, hasRef, read]

end ScanApi.Refs
