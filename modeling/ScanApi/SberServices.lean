import ScanApi.Partition
import ScanApi.Regex
import ScanApi.ReorderedSnapshots
import ScanApi.Unicode

/-!
The services of Sber (`sber_parser.py`). Sections are found on an overview page, and
each is backed by one or several specs. A method that two specs of a section describe
is listed once; sections with the same title become one service, where nothing is
dropped any more. So a service lists every method once exactly if no two sections
of one title declare the same one.
-/
namespace ScanApi.Sber
open ScanApi.OpenApi ScanApi.Partition ScanApi.Python ScanApi.Raising ScanApi.Refs ScanApi.Regex ScanApi.ReorderedSnapshots
open ScanApi.SnapshotImport ScanApi.Unicode ScanApi.Yaml

/-! ### The portal -/

/-- What `_get_capped_text` raises. -/
inductive FetchError
  | http (status : Nat) (reason : String)
  | request (reason : String)
  | other (e : PyError)

/-- The pages of the portal, and code outside the repository. -/
structure Web where
  text : Text
  unicode : CharTables
  /-- `html.unescape`. -/
  unescape : List Char → List Char
  yamlSafeLoad : String → Except PyError Node
  /-- `str` of what `yaml.safe_load` raises. -/
  yamlReason : String → String
  getCappedText : String → Except FetchError String
  docs : Documents (Except PyError)

def portalBase : String := "https://developers.sber.ru"
def specBase : String := portalBase ++ "/docs/files/openapi/sbapi"
def sectionsUrl : String := portalBase ++ "/docs/ru/sber-api/specifications/overview"

def slugStart (c : Char) : Bool := c.isLower || c.isDigit
def slugChar (c : Char) : Bool := slugStart c || c = '-'
def slug : Pattern := .group 1 (.seq (.char slugStart) (.many slugChar))

/-- `SECTION_LINK_RE`. -/
def sectionLink : Pattern := .seq (.literal "/docs/ru/sber-api/specifications/".toList) slug

/-- `MENU_TITLE_RE`: an entry of the side menu. -/
def menuTitle (unicode : CharTables) : Pattern :=
  .seq (.literal "<a class=\"menu__link".toList) <| .seq (.many (· ≠ '"')) <|
  .seq (.literal "\" href=\"/docs/ru/sber-api/specifications/".toList) <| .seq slug <|
  .seq (.opt (.seq (.char (fun c => c = '/' || c = '#')) (.many (· ≠ '"')))) <| .seq (.char (· = '"')) <|
  .seq (.many (· ≠ '>')) <| .seq (.char (· = '>')) <| .seq (.many unicode.isspace) <| .seq (.literal "<div".toList) <|
  .seq (.many (· ≠ '>')) <| .seq (.char (· = '>')) <| .seq (.group 2 (.plus (· ≠ '<'))) <| .literal "</div>".toList

def groupText (way : Way) (n : Nat) : String := String.ofList ((way.group n).getD [])

def nonSectionSlugs : Finset String := {"overview"}

/-- Sections that the menu links to without a title. -/
def fallbackTitle : String → Option String
  | "conv-currency" => some "Конвертация валюты"
  | _ => none

/-- Sections that the menu does not link to. -/
def extraSections : List (String × String) := [("nominal-accounts-be", "Бенефициар-исполнитель")]

/-- The specs of a section, each with the segment of its operations in URLs. -/
def specList : String → List (String × String)
  | "corporate-cards" => [("business-cards.yaml", "business-cards")]
  | "card-issues" => [("card-issues.yml", "card-issues")]
  | "qr" => [("plati-qr.yml", "qr/plati-qr"), ("qr-order-notify.yml", "qr/platy-qr-notify")]
  | "payments" => [("payments.yaml", "payments"), ("qr-confirm.yaml", "payments")]
  | "nominal-accounts-be" => [("nominal-accounts-be.yaml", "nominal-accounts-be")]
  | slug => [(slug ++ ".yaml", slug)]

/-- Methods that a spec describes and the menu never links to. -/
def notInMenuMethods : String → List (String × String)
  | "business-cards" => [("POST", "/v2/corporate-cards/transactions-for-period")]
  | "files" => [("GET", "/v1/files/tasks-for-download/\x7btaskId\x7d")]
  | "placement" => [
      ("POST", "/v1/placement/deposit/application"),
      ("POST", "/v1/placement/deposit/application/interest-rate"),
      ("POST", "/v1/placement/minimum-balance/application"),
      ("POST", "/v1/placement/minimum-balance/application/interest-rate")]
  | "transfer" => [
      ("POST", "/v1/sbp/paymentB2C/batchExecute"),
      ("GET", "/v1/sbp/paymentB2C/getBatchStatus/batch/\x7bbatchUid\x7d")]
  | _ => []

def notInMenuSections : List String := ["conv-currency"]

def hiddenReasonNotInMenu : String := "not_in_menu"

/-! ### Sections -/

variable (web : Web)

/-- The titles of the side menu; the first one of a slug counts. -/
def menuTitles (page : String) : Dict String String :=
  (finditer (menuTitle web.unicode) page.toList).foldl (fun menu way =>
    menu.setdefault (groupText way 1) (String.ofList (strip web.unicode (web.unescape (groupText way 2).toList)))) Dict.empty

/-- The title of a section: from the menu, else a fallback, else the slug. -/
def titleOf (menu : Dict String String) (slug : String) : String :=
  let title := (menu.get? slug).getD ""
  if title ≠ "" then title else (fallbackTitle slug).getD slug

def sections (page : String) : Dict String String :=
  let slugs := sorted (((finditer sectionLink page.toList).map (groupText · 1)).toFinset \ nonSectionSlugs)
  Dict.ofEntries (slugs.map (fun slug => (slug, titleOf (menuTitles web page) slug)))

def discoverSections : Except PyError (Dict String String) := do
  let page ← match web.getCappedText sectionsUrl with
    | .ok page => .ok page
    | .error (.http _ reason) | .error (.request reason) =>
      .error (.parserError ("section list unavailable (" ++ sectionsUrl ++ "): " ++ reason))
    | .error (.other e) => .error e
  let found := sections web page
  if found.entries.isEmpty then throw (.parserError ("no API sections found on " ++ sectionsUrl))
  return extraSections.foldl (fun found e => found.setdefault e.1 e.2) found

/-! ### Methods -/

/-- `CONTROL_CHARS_RE`. -/
def controlChar (c : Char) : Bool :=
  c.toNat ≤ 8 || c.toNat = 11 || c.toNat = 12 || (14 ≤ c.toNat && c.toNat ≤ 31) || (127 ≤ c.toNat && c.toNat ≤ 159)

/-- Without control characters, and with nothing on lines of blanks and tabs. -/
def fixYamlControlChars (text : String) : String :=
  let lines := (text.toList.filter (!controlChar ·)).splitOn '\n'
  String.ofList (['\n'].intercalate (lines.map (fun line => if line.all (fun c => c = ' ' || c = '\t') then [] else line)))

/-- The spec at an address; whatever fails aborts the parse. -/
def downloadSpec (url : String) : Except PyError Node := do
  let text ← match web.getCappedText url with
    | .ok text => .ok text
    | .error (.http 404 _) => .error (.parserError ("spec not found: " ++ url))
    | .error (.http _ reason) | .error (.request reason) =>
      .error (.parserError ("failed to download " ++ url ++ ": " ++ reason))
    | .error (.other e) => .error e
  let text := fixYamlControlChars text
  let spec ← match web.yamlSafeLoad text with
    | .ok spec => .ok spec
    | .error .yamlError => .error (.parserError ("invalid spec " ++ url ++ ": " ++ web.yamlReason text))
    | .error e => .error e
  match spec with
  | .map entries =>
    if (lookup entries "paths").isSome then return .map entries
    throw (.parserError ("spec " ++ url ++ " is not an OpenAPI document"))
  | _ => throw (.parserError ("spec " ++ url ++ " is not an OpenAPI document"))

/-- A method with whether the menu links to it. -/
structure SberMethod extends RawMethod where
  hidden : Bool
  hiddenReason : Option String

/-- Equal verbs and equal paths. -/
def keyOfMethod (m : RawMethod) : String × Scalar := (m.httpMethod, keyOf m.path)

def hiddenStatus (specKey method : String) (path : Scalar) : Bool × Option String :=
  if specKey ∈ notInMenuSections then (true, some hiddenReasonNotInMenu)
  else if (notInMenuMethods specKey).any (fun e => e.1 = method && path = .str e.2) then (true, some hiddenReasonNotInMenu)
  else (false, none)

/-- `filename.rsplit(".", 1)[0]`. -/
def specKeyOf (filename : String) : String :=
  match rpartition '.' filename.toList with
  | some (stem, _) => String.ofList stem
  | none => filename

/-- A word boundary of `_kebab`: after a character of one class, before one of another. -/
def boundary (before after : Char → Bool) : Pattern := .seq (.group 1 (.char before)) (.group 2 (.char after))

def hyphenate (way : Way) : List Char := (way.group 1).getD [] ++ '-' :: (way.group 2).getD []

def kebab (opId : List Char) : List Char :=
  let s := sub (boundary slugStart Char.isUpper) hyphenate opId
  let s := sub (boundary Char.isAlpha Char.isDigit) hyphenate s
  let s := sub (.plus (!Char.isAlphanum ·)) (fun _ => ['-']) s
  ((s.dropWhile (· = '-')).rdropWhile (· = '-')).map Char.toLower

/-- `_portal_url` of Sber; `re.sub` takes texts only. -/
def sberUrl (baseUrl : String) (opId : Node) : Except PyError String :=
  if !opId.truthy then .ok baseUrl
  else match opId with
    | .scalar (.str name) => .ok (baseUrl ++ "/" ++ String.ofList (kebab name.toList))
    | _ => .error .typeError

def portalOf (sectionPath : String) : Portal where
  text := web.text
  baseUrl := portalBase ++ "/docs/ru/sber-api/specifications/" ++ sectionPath
  urlOf := sberUrl (portalBase ++ "/docs/ru/sber-api/specifications/" ++ sectionPath)

/-- The methods of one spec of a section, in the order of their services. -/
def specRows (title : String) (file : String × String) : Except PyError (List SberMethod) := do
  let spec ← downloadSpec web (specBase ++ "/" ++ file.1)
  let services ← parseOpenapiSpec (portalOf web file.2) web.docs spec (some (specBase ++ "/" ++ file.1))
  return (allMethods services).map (fun m =>
    let (hidden, hiddenReason) := hiddenStatus (specKeyOf file.1) m.httpMethod m.path
    { m with serviceName := .str title, hidden, hiddenReason })

/-- All methods of one section across its specs: the first one with a verb and a path counts. -/
def sectionMethods (slug title : String) : Except PyError (List SberMethod) := do
  let rows ← extend (specRows web title) (specList slug)
  return (Dict.firstBy (fun m : SberMethod => keyOfMethod m.toRawMethod) rows).values

/-- One round of the loop over the sections. -/
def addSection (services : Dict String (List SberMethod)) (e : String × String) :
    Except PyError (Dict String (List SberMethod)) := do
  return services.extend e.2 (← sectionMethods web e.1 e.2)

def parse : Except PyError (Dict String (List SberMethod)) := do
  let sections ← discoverSections web
  let services ← sections.entries.foldlM (addSection web) Dict.empty
  if services.entries.isEmpty then throw (.parserError "no methods found in any Sber API spec")
  return services

example : kebab "getOrderV2Status".toList = "get-order-v-2-status".toList := by decide +kernel

/-! ### What is declared -/

/-- A spec has an operation for a verb and a path. -/
def SpecDeclares (spec : Node) (k : String × Scalar) : Prop :=
  ∃ paths path item verb operation upper, (get "paths" (.map []) spec >>= items) = .ok paths ∧
    (path, .map item) ∈ paths ∧ (.str verb, .map operation) ∈ item ∧ upperVerb verb = some upper ∧ k = (upper, keyOf path)

/-- One of the specs of a section has it. -/
def Declares (slug : String) (k : String × Scalar) : Prop :=
  ∃ file ∈ specList slug, ∃ spec, downloadSpec web (specBase ++ "/" ++ file.1) = .ok spec ∧ SpecDeclares spec k

/-- Two sections with one title. -/
def SameTitle (slug slug' : String) : Prop :=
  slug ≠ slug' ∧ ∃ found title, discoverSections web = .ok found ∧ found.get? slug = some title ∧
    found.get? slug' = some title

/-- Every service lists every method once. -/
def ListsOnce (services : Dict String (List SberMethod)) : Prop :=
  ∀ title methods, services.get? title = some methods → (methods.map (fun m => keyOfMethod m.toRawMethod)).Nodup

section
variable {docs : Documents (Except PyError)} {site : Refs.Site} {portal : Portal} {spec : Node} {specUrl : Option String}

theorem tagsOf_ne_nil {operation : Node} {tags : List Node} (named : tagsOf operation = .ok tags) : tags ≠ [] := by
  obtain ⟨value, -, named⟩ := bind_ok.mp named
  split at named
  · rename_i truthy
    rintro rfl
    cases value with
    | map entries | list entries | set entries => cases entries <;> simp_all [Node.truthy, iter]
    | scalar value =>
      cases value with
      | str value =>
        have empty : value.toList = [] := by simpa [iter] using named
        have nothing : value = "" := String.toList_eq_nil_iff.mp empty
        simp [Node.truthy, Scalar.truthy, nothing] at truthy
      | binary bytes => cases bytes <;> simp_all [Node.truthy, Scalar.truthy, iter]
      | null | bool _ | int _ | float _ | date _ _ => cases named
  · obtain rfl := pure_ok.mp named
    simp

/-- Every operation gives a method. -/
theorem operationMethods_ne_nil {path : Scalar} {httpVerb upper : String} {operation : Node} {methods : List RawMethod}
    (all : portal.excludedTags = []) (returned : operationMethods portal docs site path httpVerb upper operation = .ok methods) :
    methods ≠ [] := by
  obtain ⟨method, _, tags, -, -, named, looped, -, -⟩ := operationMethods_parts returned
  obtain ⟨tag, rest, rfl⟩ := List.exists_cons_of_ne_nil (tagsOf_ne_nil named)
  obtain ⟨first, others, ran, -, rfl⟩ := extend_cons_ok.mp looped
  rcases taggedMethod_ok ran with ⟨excluded, -⟩ | ⟨-, name, url, -, rfl⟩
  · simp [isExcluded, all, pure, Except.pure] at excluded
  · simp

/-- The methods of a spec are those that it declares. -/
theorem mem_specMethods {methods : List RawMethod} (all : portal.excludedTags = [])
    (returned : specMethods portal docs spec specUrl = .ok methods) (k : String × Scalar) :
    (∃ m ∈ methods, keyOfMethod m = k) ↔ SpecDeclares spec k := by
  simp only [specMethods, py_except] at returned
  obtain ⟨paths, read, returned⟩ := bind_ok.mp returned
  obtain ⟨entries, unpacked, returned⟩ := bind_ok.mp returned
  constructor
  · rintro ⟨m, member, rfl⟩
    obtain ⟨e, among, part, ran, inside⟩ := mem_extend returned m member
    obtain ⟨item, same, o, here, part', listed, found⟩ := mem_pathMethods ran inside
    obtain ⟨verb, operation, upper, rfl, known, made⟩ | ⟨-, rfl⟩ := entryMethods_cases listed
    · obtain ⟨fields, every⟩ := mem_operationMethods made
      obtain ⟨rfl, place, -⟩ := every m found
      obtain ⟨path, _⟩ := e
      obtain rfl : _ = Node.map item := same
      exact ⟨entries, path, item, verb, operation, _, bind_ok.mpr ⟨paths, read, unpacked⟩, among, here, known,
        by rw [keyOfMethod, place]⟩
    · cases found
  · rintro ⟨entries', path, item, verb, operation, upper, unpacked', among, here, known, rfl⟩
    obtain ⟨paths', read', unpacked'⟩ := bind_ok.mp unpacked'
    obtain rfl := Except.ok.inj (read.symm.trans read')
    obtain rfl := Except.ok.inj (unpacked.symm.trans unpacked')
    obtain ⟨part, ran, within⟩ := extend_ok returned _ among
    obtain ⟨part', listed, within'⟩ := extend_ok ran _ here
    have made : operationMethods portal docs { schema := .map [], spec, specUrl } path verb upper (.map operation) =
        .ok part' := by
      simpa [entryMethods, known] using listed
    obtain ⟨m, rest, rfl⟩ := List.exists_cons_of_ne_nil (operationMethods_ne_nil all made)
    obtain ⟨fields, every⟩ := mem_operationMethods made
    obtain ⟨method, place, -⟩ := every m List.mem_cons_self
    exact ⟨m, within (within' List.mem_cons_self), by rw [keyOfMethod, method, place]⟩

end

/-! ### One section -/

section
variable {web} {slug title : String} {methods : List SberMethod}

theorem mem_specRows {file : String × String} (returned : specRows web title file = .ok methods) (k : String × Scalar) :
    (∃ m ∈ methods, keyOfMethod m.toRawMethod = k) ↔
      ∃ spec, downloadSpec web (specBase ++ "/" ++ file.1) = .ok spec ∧ SpecDeclares spec k := by
  obtain ⟨spec, downloaded, returned⟩ := bind_ok.mp returned
  obtain ⟨services, parsed, same⟩ := bind_ok.mp returned
  obtain rfl := pure_ok.mp same
  rw [parseOpenapiSpec, ← bind_pure_comp] at parsed
  obtain ⟨all, read, same⟩ := bind_ok.mp parsed
  obtain rfl := pure_ok.mp same
  have declared := mem_specMethods rfl read k
  simp only [List.mem_map, mem_allMethods, exists_exists_and_eq_and, downloaded, Except.ok.injEq, exists_eq_left']
  exact declared

/-- A section lists every method that it declares once. -/
theorem sectionMethods_ok (returned : sectionMethods web slug title = .ok methods) :
    (methods.map (fun m => keyOfMethod m.toRawMethod)).Nodup ∧
      ∀ k, k ∈ methods.map (fun m => keyOfMethod m.toRawMethod) ↔ Declares web slug k := by
  obtain ⟨rows, looped, same⟩ := bind_ok.mp returned
  obtain rfl := pure_ok.mp same
  refine ⟨Dict.values_firstBy_nodup _ rows, fun k => ?_⟩
  rw [Dict.mem_map_values_firstBy]
  constructor
  · rintro ⟨m, member, rfl⟩
    obtain ⟨file, listed, part, ran, inside⟩ := mem_extend looped m member
    obtain ⟨spec, downloaded, declared⟩ := (mem_specRows ran _).mp ⟨m, inside, rfl⟩
    exact ⟨file, listed, spec, downloaded, declared⟩
  · rintro ⟨file, listed, declared⟩
    obtain ⟨part, ran, within⟩ := extend_ok looped file listed
    obtain ⟨m, inside, same⟩ := (mem_specRows ran k).mpr declared
    exact ⟨m, within inside, same⟩

end

/-! ### Services -/

/-- What a section adds to its service. -/
def returned (e : String × String) : List SberMethod := (sectionMethods web e.1 e.2).toOption.getD []

section
variable {web}

/-- Sections list no method twice that are all listed once and share none. -/
theorem nodup_sections {entries : List (String × String)} (distinct : entries.Nodup)
    (rounds : ∀ e ∈ entries, ∃ methods, sectionMethods web e.1 e.2 = .ok methods) :
    ((entries.flatMap (returned web)).map (fun m => keyOfMethod m.toRawMethod)).Nodup ↔
      ∀ e ∈ entries, ∀ e' ∈ entries, e ≠ e' → ∀ k, ¬ (Declares web e.1 k ∧ Declares web e'.1 k) := by
  have each : ∀ e ∈ entries, ((returned web e).map (fun m => keyOfMethod m.toRawMethod)).Nodup ∧
      ∀ k, k ∈ (returned web e).map (fun m => keyOfMethod m.toRawMethod) ↔ Declares web e.1 k := by
    intro e member
    obtain ⟨methods, ran⟩ := rounds e member
    have known := sectionMethods_ok ran
    rwa [show methods = returned web e by rw [returned, ran]; rfl] at known
  rw [List.map_flatMap, List.nodup_flatMap]
  constructor
  · rintro ⟨-, apart⟩ e member e' member' other k ⟨here, there⟩
    have symm : Std.Symm (Function.onFun List.Disjoint
        (fun e => (returned web e).map (fun m => keyOfMethod m.toRawMethod))) := ⟨fun _ _ disjoint => disjoint.symm⟩
    have disjoint := apart.forall member member' other
    exact disjoint ((each e member).2 k |>.mpr here) ((each e' member').2 k |>.mpr there)
  · intro apart
    refine ⟨fun e member => (each e member).1, distinct.pairwise_of_forall_ne (fun e member e' member' other => ?_)⟩
    intro k here there
    exact apart e member e' member' other k ⟨(each e member).2 k |>.mp here, (each e' member').2 k |>.mp there⟩

theorem listsOnce_iff (services : Dict String (List SberMethod)) : ListsOnce services ↔
    ∀ title, (((services.get? title).getD []).map (fun m => keyOfMethod m.toRawMethod)).Nodup := by
  constructor
  · intro once title
    cases found : services.get? title with
    | none => exact List.nodup_nil
    | some methods => exact once title methods found
  · intro once title methods found
    have listed := once title
    rwa [found] at listed

/-- Every service lists every method once exactly if no two sections with one title declare the same one. -/
theorem methods_once_iff {services : Dict String (List SberMethod)} (parsed : parse web = .ok services) :
    ListsOnce services ↔ ∀ slug slug', SameTitle web slug slug' → ∀ k, ¬ (Declares web slug k ∧ Declares web slug' k) := by
  obtain ⟨found, discovered, parsed⟩ := bind_ok.mp parsed
  obtain ⟨services', looped, parsed⟩ := bind_ok.mp parsed
  split at parsed
  · cases parsed
  · obtain rfl := pure_ok.mp parsed
    obtain ⟨rounds, groups⟩ := Dict.foldlM_extend looped
    have services : ∀ title, (services'.get? title).getD [] =
        (found.entries.filter (fun e => e.2 = title)).flatMap (returned web) := groups
    have distinct := List.Nodup.of_map _ found.distinct
    have sections := fun title => nodup_sections (distinct.filter (fun e => e.2 = title))
      (fun e member => rounds e (List.mem_filter.mp member).1)
    simp only [listsOnce_iff, services, sections, List.mem_filter, decide_eq_true_eq]
    constructor
    · rintro apart slug slug' ⟨other, found', title, discovered', here, there⟩
      obtain rfl := Except.ok.inj (discovered.symm.trans discovered')
      refine apart title (slug, title) ⟨Dict.get?_eq_some.mp here, rfl⟩ (slug', title) ⟨Dict.get?_eq_some.mp there, rfl⟩ ?_
      exact fun same => other (congrArg Prod.fst same)
    · rintro apart title ⟨slug, _⟩ ⟨here, rfl⟩ ⟨slug', title⟩ ⟨there, same⟩ other
      subst same
      refine apart slug slug' ⟨fun same => other (by rw [same]), found, title, discovered, ?_, ?_⟩
      · exact Dict.get?_eq_some.mpr here
      · exact Dict.get?_eq_some.mpr there

end

/-! ### Portals -/

/-- A portal with a page of sections and some specs; the text of each is its name. -/
def portalWith (page : String) (specs : List (String × Node)) : Web where
  text := asciiText
  unicode := latin1
  unescape := id
  yamlSafeLoad text := ((specs.find? (·.1 = text)).map Prod.snd).elim (.error .yamlError) .ok
  yamlReason _ := ""
  getCappedText url :=
    if url = sectionsUrl then .ok page
    else .ok (String.ofList (url.toList.drop (specBase ++ "/").toList.length))
  docs := noFiles _

def menuEntry (slug title : String) : String :=
  "<a class=\"menu__link\" href=\"/docs/ru/sber-api/specifications/" ++ slug ++ "\"><div>" ++ title ++ "</div></a>"

/-- A spec with one operation without a body. -/
def specOf (path : String) : Node :=
  .map [(.str "paths", .map [(.str path, .map [(.str "get", .map [(.str "responses", .map [])])])])]

/-- A section with two specs that describe the same method. -/
def qrPortal : Web := portalWith (menuEntry "qr" "QR") [("plati-qr.yml", specOf "/v1/qr/create"),
  ("qr-order-notify.yml", specOf "/v1/qr/create"), ("nominal-accounts-be.yaml", specOf "/v1/deals")]

/-- A section with the title of the one that the menu does not link to. -/
def twinPortal : Web := portalWith (menuEntry "nominal-accounts" "Бенефициар-исполнитель")
  [("nominal-accounts.yaml", specOf "/v1/deals"), ("nominal-accounts-be.yaml", specOf "/v1/deals")]

/-- The verbs and paths that each service lists. -/
def listing (services : Dict String (List SberMethod)) : List (String × List (String × Scalar)) :=
  services.entries.map (fun e => (e.1, e.2.map (fun m => keyOfMethod m.toRawMethod)))

/-- A method that both specs of its section describe is listed once. -/
theorem methods_once_qr : ∃ services, parse qrPortal = .ok services ∧ ListsOnce services := by
  have listed : (parse qrPortal).toOption.map listing =
      some [("QR", [("GET", .str "/v1/qr/create")]), ("Бенефициар-исполнитель", [("GET", .str "/v1/deals")])] := by
    decide +kernel
  have titled : (discoverSections qrPortal).toOption.map Dict.entries =
      some [("qr", "QR"), ("nominal-accounts-be", "Бенефициар-исполнитель")] := by
    decide +kernel
  obtain ⟨services, parsed, -⟩ := Option.map_eq_some_iff.mp listed
  have parsed := toOption_some.mp parsed
  refine ⟨services, parsed, (methods_once_iff parsed).mpr ?_⟩
  rintro slug slug' ⟨other, found, title, discovered, here, there⟩
  rw [discovered] at titled
  have entries : found.entries = [("qr", "QR"), ("nominal-accounts-be", "Бенефициар-исполнитель")] :=
    Option.some.inj titled
  have here := Dict.get?_eq_some.mp here
  have there := Dict.get?_eq_some.mp there
  simp only [entries, List.mem_cons, Prod.mk.injEq, List.not_mem_nil, or_false] at here there
  obtain ⟨rfl, rfl⟩ | ⟨rfl, rfl⟩ := here
  · obtain ⟨rfl, -⟩ | ⟨-, same⟩ := there
    · exact absurd rfl other
    · exact absurd same (by decide)
  · obtain ⟨-, same⟩ | ⟨rfl, -⟩ := there
    · exact absurd same (by decide)
    · exact absurd rfl other

/-- What two sections with one title both declare is listed twice. -/
theorem twin_methods_twice : ∃ services, parse twinPortal = .ok services ∧ ¬ ListsOnce services := by
  have listed : (parse twinPortal).toOption.map listing =
      some [("Бенефициар-исполнитель", [("GET", .str "/v1/deals"), ("GET", .str "/v1/deals")])] := by
    decide +kernel
  obtain ⟨services, parsed, entries⟩ := Option.map_eq_some_iff.mp listed
  refine ⟨services, toOption_some.mp parsed, fun once => ?_⟩
  obtain ⟨e, member, same⟩ := List.mem_map.mp (entries ▸ List.mem_cons_self)
  have keys := congrArg Prod.snd same
  have single := once e.1 e.2 (Dict.get?_eq_some.mpr member)
  dsimp only at keys
  rw [keys] at single
  exact absurd single (by decide)

end ScanApi.Sber
