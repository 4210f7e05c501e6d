import ScanApi.ReorderedSnapshots
import ScanApi.TagPass
import ScanApi.Unicode

/-!
Specs of a bank that has several (`_fetch_spec`, and what `tbank_parser.py` and
`tochka_parser.py` have in common). Each spec is fetched on its own and read into
services, and the services are merged.
-/
namespace ScanApi.BankSpecs
open ScanApi.Raising ScanApi.Yaml ScanApi.Python ScanApi.Refs ScanApi.OpenApi ScanApi.AlikeSpecs ScanApi.TagPass
open ScanApi.ReorderedSnapshots (asciiText)

/-- Where specs come from, and code outside the repository. -/
structure Source (m : Type → Type) where
  text : Text
  jsonLoads : String → Except PyError Node
  yamlSafeLoad : String → Except PyError Node
  /-- `str` of what loading a text raises. -/
  loadReason : String → String
  getCappedText : String → m String
  /-- `str` of what the request for a page raised last. -/
  requestReason : String → m String
  docs : Documents m

section
variable {m : Type → Type} [Monad m] [MonadExceptOf PyError m] (src : Source m)

/-- A JSON or YAML file by its text. -/
def loadSpec (text : String) : Except PyError Node :=
  if (text.toList.dropWhile src.text.isspace).head? = some '{' then src.jsonLoads text else src.yamlSafeLoad text

/-- Download an OpenAPI spec (JSON or YAML). -/
def fetchSpec (url : String) : m Entries := do
  let text ← tryCatch (src.getCappedText url) (fun
    | .requestException => do
      let reason ← src.requestReason url
      throw (.parserError ("failed to download " ++ url ++ ": " ++ reason))
    | e => throw e)
  match loadSpec src text with
  | .ok (.map spec) =>
    if ((lookup spec "paths").getD pyNone).truthy then return spec
    throw (.parserError (url ++ ": not an OpenAPI spec (no paths)"))
  | .ok _ => throw (.parserError (url ++ ": not an OpenAPI spec (no paths)"))
  | .error .valueError | .error .yamlError => throw (.parserError (url ++ ": invalid spec: " ++ src.loadReason text))
  | .error e => throw e

end

/-! ### Links -/

/-- How many characters a word takes at the beginning of a name:
    `[A-Z]+(?=[A-Z][a-z])|[A-Z]?[a-z]+|[A-Z]+|[0-9]+`. -/
def wordLength (name : List Char) : Nat :=
  let uppers := (name.takeWhile Char.isUpper).length
  let lowers := ((name.drop uppers).takeWhile Char.isLower).length
  -- The last upper-case letter of several belongs to the word after them.
  if 2 ≤ uppers ∧ 0 < lowers then uppers - 1
  else if 0 < lowers then uppers + lowers
  else if 0 < uppers then uppers
  else (name.takeWhile Char.isDigit).length

/-- The words of a name; the first `skip` characters belong to a word already found. -/
def wordsFrom : Nat → List Char → List (List Char)
  | _, [] => []
  | skip + 1, _ :: rest => wordsFrom skip rest
  | 0, c :: rest => match wordLength (c :: rest) with
    | 0 => wordsFrom 0 rest
    | n + 1 => (c :: rest).take (n + 1) :: wordsFrom n rest

/-- operationId -> the slug Docusaurus derives for the page anchor. -/
def kebab (text : Text) (opId : String) : String :=
  match wordsFrom 0 opId.toList with
  | [] => text.lower opId
  | words => String.ofList (['-'].intercalate (words.map (List.map Char.toLower)))

/-- `_portal_url` of a page for each operation; `re.findall` takes texts only. -/
def docUrl (text : Text) (baseUrl : String) (opId : Node) : Except PyError String :=
  if !opId.truthy then .ok baseUrl
  else match opId with
    | .scalar (.str name) => .ok (baseUrl ++ "/" ++ kebab text name)
    | _ => .error .typeError

/-- A portal with a page for each operation. -/
def docPortal (text : Text) (baseUrl : String) : Portal where
  text
  baseUrl
  urlOf := docUrl text baseUrl

example : wordsFrom 0 "getPaymentOperationListAcquiringV1_0".toList =
    ["get", "Payment", "Operation", "List", "Acquiring", "V", "1", "0"].map String.toList := by decide +kernel

/-! ### Merging -/

variable {κ α : Type} [DecidableEq κ]

/-- `into.setdefault(svc, []).extend(methods)` for every service of the other. -/
def merge (services extra : Dict κ (List α)) : Dict κ (List α) :=
  extra.entries.foldl (fun services e => services.extend e.1 e.2) services

/-- Services that are all new come behind the others. -/
theorem entries_merge {services extra : Dict κ (List α)} (new : ∀ e ∈ extra.entries, e.1 ∉ services.keys) :
    (merge services extra).entries = services.entries ++ extra.entries := by
  have distinct := extra.distinct
  rw [merge]
  generalize extra.entries = entries at new distinct
  induction entries generalizing services with
  | nil => simp
  | cons e rest ih =>
    obtain ⟨first, others⟩ := List.forall_mem_cons.mp new
    obtain ⟨absent, distinct⟩ := List.nodup_cons.mp distinct
    have added : (services.extend e.1 e.2).entries = services.entries ++ [e] := by
      rw [Dict.extend, Dict.set, dif_neg first, Dict.get?_eq_none.mpr first]
      rfl
    have still : ∀ e' ∈ rest, e'.1 ∉ (services.extend e.1 e.2).keys := by
      intro e' inside
      have other : e'.1 ≠ e.1 := fun same => absent (same ▸ List.mem_map_of_mem inside)
      rw [← Dict.get?_eq_none, Dict.get?_extend, if_neg other, Dict.get?_eq_none]
      exact others e' inside
    rw [List.foldl_cons, ih still distinct, added, List.append_assoc]
    rfl

/-- The paths of a spec with one operation. -/
def openPaths : Entries := [
  (.str "/v1/orders", .map [(.str "get", .map [
    (.str "tags", .list [.scalar (.str "Заявки")]), (.str "operationId", .scalar (.str "getOrdersV1"))])])]

theorem plain_openPaths : Plain openPaths := by
  refine ⟨by decide, ?_⟩
  rintro operation ⟨path, item, verb, listed, inside, -⟩
  obtain ⟨-, rfl⟩ : path = .str "/v1/orders" ∧ item = _ := by simpa [openPaths] using listed
  obtain ⟨-, rfl⟩ : verb = "get" ∧ operation = _ := by simpa using inside
  exact ⟨by simp, ["Заявки"], .inl rfl⟩

/-- A source of one spec. -/
def sourceOf (spec : Entries) : Source (Except PyError) where
  text := asciiText
  jsonLoads _ := .error .valueError
  yamlSafeLoad _ := .ok (.map spec)
  loadReason _ := ""
  getCappedText _ := .ok ""
  requestReason _ := .ok ""
  docs := noFiles (Except PyError)

end ScanApi.BankSpecs
