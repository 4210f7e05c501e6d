import ScanApi.Tochka

/-!
The product of Tochka that has no spec (`_parse_cyclops`). Its operations lie in the
page bundles of the portal, whose names are found as a browser finds them: the main
page names two bundles, one lists the pages with the name of their chunk, the other has
webpack's loader, which makes a file name of a chunk. The parser asks for the files
that the loader asks for (`chunkFiles_loader`). With this product the services of
Tochka are those of its four products, one after another (`products_apart`).
-/
namespace ScanApi.Cyclops
open ScanApi.Raising ScanApi.Yaml ScanApi.Python ScanApi.Refs ScanApi.OpenApi ScanApi.Regex ScanApi.Unicode ScanApi.BankSpecs
  ScanApi.Tochka
open ScanApi.Sber (slugChar groupText)
open ScanApi.ReorderedSnapshots (asciiText)

def cyclopsPortalBase : String := "https://developers.tochka.com/docs/cyclops/api"
def cyclopsSiteRoot : String := "https://developers.tochka.com"
def cyclopsEntryUrl : String := cyclopsSiteRoot ++ "/"
def maxDecompressedBytes : Nat := 4 * 1024 * 1024

/-- The portal, and code outside the repository. -/
structure Portal (m : Type → Type) extends Source m where
  unicode : CharTables
  upper : String → String
  /-- What `_get_text` reads, or what reading raises. -/
  readText : String → m String
  b64decode : String → Except PyError (List UInt8)
  /-- What a stream unpacks to within a limit, and whether it has ended. -/
  decompress : List UInt8 → Nat → Except PyError (List UInt8 × Bool)
  jsonLoadsBytes : List UInt8 → Except PyError Node
  /-- `str` of what decoding a payload raises. -/
  payloadReason : String → String

/-! ### Patterns -/

def hexDigit (c : Char) : Bool := c.isDigit || ('a' ≤ c && c ≤ 'f')

/-- `_BUNDLE_SRC_RE` of a bundle. -/
def bundleSrc (unicode : CharTables) (name : String) : Pattern :=
  .seq (.literal "<script".toList) <| .seq (.many (· ≠ '>')) <| .seq (.char unicode.isspace) <|
  .seq (.literal "src=".toList) <| .seq (.opt (.char (fun c => c = '"' || c = '\''))) <|
  .seq (.group 1 (.seq (.literal ("/assets/js/" ++ name ++ ".").toList) (.seq (.plus hexDigit) (.literal ".js".toList)))) <|
  .char (fun c => c = '"' || c = '\'' || unicode.isspace c || c = '>')

/-- `_CYCLOPS_ROUTE_RE`: a page with its slug and the name of its chunk. -/
def route : Pattern :=
  .seq (.literal "\"".toList) <|
  .seq (.group 1 (.seq (.literal "/docs/cyclops/api/".toList) (.group 2 (.plus slugChar)))) <|
  .seq (.char (· = '-')) <| .seq (.char hexDigit) <| .seq (.char hexDigit) <| .seq (.char hexDigit) <|
  .seq (.literal "\":\x7b\"__comp\":\"".toList) <| .seq (.plus hexDigit) <| .seq (.literal "\",\"content\":\"".toList) <|
  .seq (.group 3 (.plus hexDigit)) (.literal "\"".toList)

/-- `"api":"([^"]+)"`. -/
def apiField : Pattern :=
  .seq (.literal "\"api\":\"".toList) <| .seq (.group 1 (.plus (· ≠ '"'))) (.literal "\"".toList)

def alphanumeric (c : Char) : Bool := c.isDigit || c.isLower || c.isUpper

/-- `(\d+):"([0-9a-zA-Z]+)"`: an entry of a lookup object. -/
def chunkEntry (unicode : CharTables) : Pattern :=
  .seq (.group 1 (.plus (fun c => (unicode.decimal c).isSome))) <| .seq (.literal ":\"".toList) <|
  .seq (.group 2 (.plus alphanumeric)) (.literal "\"".toList)

/-- `text.find(part)`. -/
def find (part : List Char) : List Char → Option Nat
  | [] => if part = [] then some 0 else none
  | c :: rest => if part.isPrefixOf (c :: rest) then some 0 else (find part rest).map (· + 1)

/-! ### Chunk files -/

def loaderStart : List Char := "n.u=e=>".toList
def namePrefix : List Char := "n.u=e=>\"assets/js/\"+((".toList
def midMarker : List Char := ")[e]||e)+\".\"+(".toList
def endMarker : List Char := ")[e]+\".js\"".toList

/-- The entries of a lookup object by their chunk ids. -/
def lookupObject (unicode : CharTables) (text : List Char) : Dict String String :=
  Dict.ofEntries ((finditer (chunkEntry unicode) text).map (fun way => (groupText way 1, groupText way 2)))

/-- The two lookup objects of the loader that a segment begins with. -/
def segmentObjects (segment : List Char) : Except PyError (List Char × List Char) :=
  match find midMarker segment with
  | none => .error (.parserError "cyclops: webpack chunk loader has an unexpected shape")
  | some mid => match namePrefix.isPrefixOf segment, find endMarker (segment.drop mid) with
    | true, some size =>
      .ok ((segment.take mid).drop namePrefix.length, (segment.take (mid + size)).drop (mid + midMarker.length))
    | _, _ => .error (.parserError "cyclops: webpack chunk loader has an unexpected shape")

/-- The two lookup objects of webpack's chunk loader: names and hashes. -/
def loaderObjects (runtimeJs : String) : Except PyError (List Char × List Char) :=
  match find loaderStart runtimeJs.toList with
  | none => .error (.parserError "cyclops: webpack chunk loader (n.u) not found in runtime bundle")
  | some start => segmentObjects ((runtimeJs.toList.drop start).take 20000)

def chunkFile (name hash : String) : String := "assets/js/" ++ name ++ "." ++ hash ++ ".js"

/-- content-hash -> filename, derived from webpack's runtime chunk loader. -/
def chunkFiles (unicode : CharTables) (runtimeJs : String) : Except PyError (Dict String String) := do
  let (nameText, hashText) ← loaderObjects runtimeJs
  let nameMap := lookupObject unicode nameText
  let hashMap := lookupObject unicode hashText
  if nameMap.entries.isEmpty || hashMap.entries.isEmpty then
    throw (.parserError "cyclops: webpack chunk id maps are empty")
  let chunkIdByName := Dict.ofEntries (nameMap.entries.map (fun e => (e.2, e.1)))
  return Dict.ofEntries (chunkIdByName.entries.filterMap (fun e =>
    (hashMap.get? e.2).map (fun hash => (e.1, chunkFile e.1 hash))))

/-! ### Pages -/

section
variable {m : Type → Type} [Monad m] [MonadExceptOf PyError m] (web : Portal m)

def getText (url : String) : m String :=
  tryCatch (web.readText url) (fun
    | .requestException => do
      let reason ← web.requestReason url
      throw (.parserError ("cyclops: failed to download " ++ url ++ ": " ++ reason))
    | e => throw e)

/-- The address of a bundle that the main page names. -/
def bundleUrl (html label : String) : Except PyError String :=
  match search (bundleSrc web.unicode label) html.toList with
  | none => .error (.parserError ("cyclops: " ++ label ++ " bundle not found in " ++ cyclopsEntryUrl))
  | some way => .ok (cyclopsSiteRoot ++ groupText way 1)

/-- (runtime_url, main_url) of the portal's current build. -/
def bundleUrls : m (String × String) := do
  let html ← getText web cyclopsEntryUrl
  let runtimeUrl ← py (bundleUrl web html "runtime~main")
  let mainUrl ← py (bundleUrl web html "main")
  return (runtimeUrl, mainUrl)

def decodeApiPayload (slug payload : String) : Except PyError Node :=
  let decoded : Except PyError Node := do
    let raw ← web.b64decode payload
    let (data, ended) ← web.decompress raw maxDecompressedBytes
    if !ended then
      throw (.parserError ("cyclops: " ++ slug ++ " 'api' payload unpacks to more than " ++ toString maxDecompressedBytes ++
        " bytes — refusing to decompress it"))
    web.jsonLoadsBytes data
  match decoded with
  | .error .valueError => .error (.parserError
      ("cyclops: " ++ slug ++ " 'api' payload is not valid compressed JSON: " ++ web.payloadReason payload))
  | result => result

/-- A page with its operation; a page without one is a category of the sidebar. -/
def page (files : Dict String String) (way : Way) : m (List (String × Option Node)) := do
  let slug := groupText way 2
  match files.get? (groupText way 3) with
  | none => return [(slug, none)]
  | some filename =>
    let chunkJs ← getText web (cyclopsSiteRoot ++ "/" ++ filename)
    match search apiField chunkJs.toList with
    | none => return [(slug, none)]
    | some found =>
      let operation ← py (decodeApiPayload web slug (groupText found 1))
      return [(slug, some operation)]

def pages (mainUrl : String) (files : Dict String String) : m (List (String × Option Node)) := do
  let mainJs ← getText web mainUrl
  extend (page web files) (finditer route mainJs.toList)

/-! ### Methods -/

/-- A method of Tochka; the path of a page is what the page has. -/
structure TochkaMethod where
  serviceName : Scalar
  httpMethod : String
  path : Node
  summary : Node
  description : Node
  response200Fields : List Scalar
  urlOnPortal : String
  requestExample : Node
  responseExample : Node

/-- `value.upper()`. -/
def upperText : Node → Except PyError String
  | .scalar (.str value) => .ok (web.upper value)
  | _ => .error .attributeError

/-- The request example of a verb that has a body. -/
def requestExampleOfPage (method : String) (site : Site) (operation : Node) : m Node :=
  if method ∈ ["POST", "PUT", "PATCH"] then extractRequestExample web.text web.docs site operation else pure (.map [])

/-- The methods of a page, one for each of its tags. -/
def operationOfPage (slug : String) (operation : Node) : m (List TochkaMethod) := do
  let verb ← py (get? "method" operation)
  let method ← py (upperText web (if verb.truthy then verb else .scalar (.str "")))
  let path ← py (get? "path" operation)
  if method = "" || !path.truthy then return []
  let site : Site := { schema := .map [], spec := operation }
  let fields ← extractFieldsForMethod web.text web.docs site (web.text.lower method) operation
  let requestExample ← requestExampleOfPage web method site operation
  let responseExample ← extractResponseExample web.text web.docs site operation
  let tags ← py (tagsOf operation)
  let description ← py (get "description" (.scalar (.str "")) operation)
  return tags.map (fun tag => {
    serviceName := .str (prefixed cyclopsPrefix (str web.text tag)), httpMethod := method, path
    summary := description, description, response200Fields := fields
    urlOnPortal := cyclopsPortalBase ++ "/" ++ slug, requestExample, responseExample })

def pageMethods : String × Option Node → m (List TochkaMethod)
  | (_, none) | (_, some (.scalar .null)) => return []
  | (slug, some operation) => operationOfPage web slug operation

def parseCyclops : m (Dict Scalar (List TochkaMethod)) := do
  let (runtimeUrl, mainUrl) ← bundleUrls web
  let runtimeJs ← getText web runtimeUrl
  let files ← py (chunkFiles web.unicode runtimeJs)
  let found ← pages web mainUrl files
  if found.isEmpty then throw (.parserError "cyclops (nominal account): no method pages found in main.js")
  let methods ← extend (pageMethods web) found
  if methods.isEmpty then
    throw (.parserError "cyclops (nominal account): 0 methods decoded — scraping is unreliable")
  return Dict.groupBy TochkaMethod.serviceName id methods

/-! ### All products -/

def ofSpec (method : RawMethod) : TochkaMethod := { method with path := .scalar method.path }

/-- The services of a product that has a spec. -/
def product (specUrl portalBase name : String) : m (Dict Scalar (List TochkaMethod)) := do
  let services ← parseProduct web.toSource specUrl portalBase name
  return services.mapValues (fun _ methods => methods.map ofSpec)

def parse : m (Dict Scalar (List TochkaMethod)) := do
  let bank ← product web bankSpecUrl bankPortalBase bankPrefix
  let payGateway ← product web payGatewaySpecUrl payGatewayPortalBase payGatewayPrefix
  let medusa ← product web medusaSpecUrl medusaPortalBase medusaPrefix
  let services := merge (merge (merge Dict.empty bank) payGateway) medusa
  let cyclops ← parseCyclops web
  return merge services cyclops

end

/-! ### Services of four products -/

/-- Services with the prefix of a product. -/
def OfProduct (product : String) (services : Dict Scalar (List TochkaMethod)) : Prop :=
  ∀ e ∈ services.entries, ∃ name, e.1 = .str (prefixed product name)

theorem key_groupBy {α κ ν : Type} [DecidableEq κ] {key : α → κ} {val : α → ν} {l : List α} {e : κ × List ν}
    (entry : e ∈ (Dict.groupBy key val l).entries) : ∃ a ∈ l, key a = e.1 :=
  (Dict.get?_groupBy key val l e.1).2.mp (Dict.mem_keys.mpr ⟨e.2, Dict.get?_eq_some.mpr entry⟩)

section
variable {web : Portal (Except PyError)} {services : Dict Scalar (List TochkaMethod)}

theorem ofProduct_product {specUrl portalBase name : String} (parsed : product web specUrl portalBase name = .ok services) :
    OfProduct name services := by
  obtain ⟨raw, made, same⟩ := bind_ok.mp parsed
  obtain rfl := pure_ok.mp same
  obtain ⟨spec, -, read⟩ := bind_ok.mp made
  obtain ⟨spec', passed, read⟩ := bind_ok.mp read
  rw [py_except] at passed
  rw [parseOpenapiSpec, ← bind_pure_comp] at read
  obtain ⟨methods, listing, same⟩ := bind_ok.mp read
  obtain rfl := pure_ok.mp same
  intro e inside
  obtain ⟨e', inside', rfl⟩ := List.mem_map.mp inside
  obtain ⟨m, listed, named⟩ := key_groupBy inside'
  obtain ⟨name', prefixedName⟩ := prefixed_specMethods passed listing listed
  exact ⟨name', named.symm.trans prefixedName⟩

theorem mem_operationOfPage {slug : String} {operation : Node} {methods : List TochkaMethod}
    (read : operationOfPage web slug operation = .ok methods) {m : TochkaMethod} (listed : m ∈ methods) :
    ∃ name, m.serviceName = .str (prefixed cyclopsPrefix name) := by
  simp only [operationOfPage, py_except] at read
  obtain ⟨verb, -, read⟩ := bind_ok.mp read
  obtain ⟨method, -, read⟩ := bind_ok.mp read
  obtain ⟨path, -, read⟩ := bind_ok.mp read
  split at read
  · obtain rfl := pure_ok.mp read
    cases listed
  · obtain ⟨fields, -, read⟩ := bind_ok.mp read
    obtain ⟨requestExample, -, read⟩ := bind_ok.mp read
    obtain ⟨responseExample, -, read⟩ := bind_ok.mp read
    obtain ⟨tags, -, read⟩ := bind_ok.mp read
    obtain ⟨description, -, read⟩ := bind_ok.mp read
    obtain rfl := pure_ok.mp read
    obtain ⟨tag, -, rfl⟩ := List.mem_map.mp listed
    exact ⟨_, rfl⟩

theorem ofProduct_cyclops (parsed : parseCyclops web = .ok services) : OfProduct cyclopsPrefix services := by
  simp only [parseCyclops, py_except] at parsed
  obtain ⟨urls, -, parsed⟩ := bind_ok.mp parsed
  obtain ⟨runtimeJs, -, parsed⟩ := bind_ok.mp parsed
  obtain ⟨files, -, parsed⟩ := bind_ok.mp parsed
  obtain ⟨found, -, parsed⟩ := bind_ok.mp parsed
  split at parsed
  · cases parsed
  obtain ⟨methods, looped, parsed⟩ := bind_ok.mp parsed
  split at parsed
  · cases parsed
  obtain rfl := pure_ok.mp parsed
  intro e inside
  obtain ⟨m, listed, named⟩ := key_groupBy inside
  obtain ⟨page, -, part, ran, within⟩ := mem_extend looped m listed
  have prefixedName : ∃ name, m.serviceName = .str (prefixed cyclopsPrefix name) := by
    unfold pageMethods at ran
    split at ran
    · obtain rfl := pure_ok.mp ran
      cases within
    · obtain rfl := pure_ok.mp ran
      cases within
    · exact mem_operationOfPage ran within
  obtain ⟨name, prefixedName⟩ := prefixedName
  exact ⟨name, named.symm.trans prefixedName⟩

end

/-- Services with the prefixes of some products. -/
def OfProducts (products : List String) (services : Dict Scalar (List TochkaMethod)) : Prop :=
  ∀ e ∈ services.entries, ∃ product ∈ products, ∃ name, e.1 = .str (prefixed product name)

/-- A product whose name begins otherwise than those before shares no service with them. -/
theorem merge_product {products : List String} {product : String} {services extra : Dict Scalar (List TochkaMethod)}
    (before : OfProducts products services) (next : OfProduct product extra)
    (begins : ∀ other ∈ products, other.toList ≠ [] ∧ other.toList.head? ≠ product.toList.head?) (named : product.toList ≠ []) :
    (merge services extra).entries = services.entries ++ extra.entries ∧
      OfProducts (products ++ [product]) (merge services extra) := by
  have new : ∀ e ∈ extra.entries, e.1 ∉ services.keys := by
    intro e inside shared
    obtain ⟨methods, found⟩ := Dict.mem_keys.mp shared
    obtain ⟨name, same⟩ := next e inside
    obtain ⟨other, listed, name', same'⟩ := before (e.1, methods) (Dict.get?_eq_some.mp found)
    have texts : prefixed product name = prefixed other name' := Scalar.str.inj (same.symm.trans same')
    have heads := congrArg (fun text => text.toList.head?) texts
    obtain ⟨nonempty, differs⟩ := begins other listed
    simp only [prefixed, String.toList_append, List.append_assoc, List.head?_append_of_ne_nil _ named,
      List.head?_append_of_ne_nil _ nonempty] at heads
    exact differs heads.symm
  refine ⟨entries_merge new, fun e inside => ?_⟩
  rw [entries_merge new] at inside
  rcases List.mem_append.mp inside with old | added
  · obtain ⟨other, listed, named⟩ := before e old
    exact ⟨other, List.mem_append_left _ listed, named⟩
  · exact ⟨product, List.mem_append_right _ (List.mem_singleton_self _), next e added⟩

/-- The services of Tochka are those of its products, one product after another:
    nothing of one is merged into a service of another. -/
theorem products_apart {web : Portal (Except PyError)} {services : Dict Scalar (List TochkaMethod)}
    (parsed : parse web = .ok services) : ∃ bank payGateway medusa cyclops,
      product web bankSpecUrl bankPortalBase bankPrefix = .ok bank ∧
      product web payGatewaySpecUrl payGatewayPortalBase payGatewayPrefix = .ok payGateway ∧
      product web medusaSpecUrl medusaPortalBase medusaPrefix = .ok medusa ∧ parseCyclops web = .ok cyclops ∧
      services.entries = bank.entries ++ payGateway.entries ++ medusa.entries ++ cyclops.entries := by
  obtain ⟨bank, first, parsed⟩ := bind_ok.mp parsed
  obtain ⟨payGateway, second, parsed⟩ := bind_ok.mp parsed
  obtain ⟨medusa, third, parsed⟩ := bind_ok.mp parsed
  obtain ⟨cyclops, fourth, parsed⟩ := bind_ok.mp parsed
  obtain rfl := pure_ok.mp parsed
  refine ⟨bank, payGateway, medusa, cyclops, first, second, third, fourth, ?_⟩
  have none : OfProducts [] Dict.empty := fun e inside => nomatch inside
  obtain ⟨bankEntries, ofBank⟩ := merge_product none (ofProduct_product first) (by simp) (by decide)
  obtain ⟨payGatewayEntries, ofPayGateway⟩ := merge_product ofBank (ofProduct_product second) (by decide) (by decide)
  obtain ⟨medusaEntries, ofMedusa⟩ := merge_product ofPayGateway (ofProduct_product third) (by decide) (by decide)
  obtain ⟨cyclopsEntries, -⟩ := merge_product ofMedusa (ofProduct_cyclops fourth) (by decide) (by decide)
  rw [cyclopsEntries, medusaEntries, payGatewayEntries, bankEntries]
  rfl

/-! ### A portal -/

def mainPage : String :=
  "<script src=/assets/js/runtime~main.0a.js></script><script defer src=\"/assets/js/main.1b.js\"></script>"

def runtimeBundle : String :=
  "n.u=e=>\"assets/js/\"+((\x7b7:\"e57c\"\x7d)[e]||e)+\".\"+(\x7b7:\"ff01\"\x7d)[e]+\".js\""

def mainBundle : String := "\"/docs/cyclops/api/echo-26f\":\x7b\"__comp\":\"4c5e\",\"content\":\"e57c\""

def specOf (tag : String) : Node :=
  .map [(.str "paths", .map [(.str "/v1/orders", .map [(.str "get", .map [(.str "tags", .list [.scalar (.str tag)])])])])]

/-- All products use one tag. -/
def ordersPortal : Portal (Except PyError) where
  text := asciiText
  jsonLoads _ := .error .valueError
  yamlSafeLoad text := .ok (specOf text)
  loadReason _ := ""
  getCappedText _ := .ok "Заказы"
  requestReason _ := .ok ""
  docs := noFiles _
  unicode := latin1
  upper text := String.ofList (text.toList.map Char.toUpper)
  readText url := .ok (
    if url = cyclopsEntryUrl then mainPage
    else if url = cyclopsSiteRoot ++ "/assets/js/runtime~main.0a.js" then runtimeBundle
    else if url = cyclopsSiteRoot ++ "/assets/js/main.1b.js" then mainBundle
    else if url = cyclopsSiteRoot ++ "/assets/js/e57c.ff01.js" then "\"api\":\"eJw=\"" else "")
  b64decode _ := .ok []
  decompress _ _ := .ok ([], true)
  jsonLoadsBytes _ := .ok (.map [(.str "method", .scalar (.str "post")), (.str "path", .scalar (.str "/echo")),
    (.str "tags", .list [.scalar (.str "Заказы")])])
  payloadReason _ := ""

theorem products_apart_orders : ∃ services, parse ordersPortal = .ok services ∧ ∃ bank payGateway medusa cyclops,
    product ordersPortal bankSpecUrl bankPortalBase bankPrefix = .ok bank ∧
    product ordersPortal payGatewaySpecUrl payGatewayPortalBase payGatewayPrefix = .ok payGateway ∧
    product ordersPortal medusaSpecUrl medusaPortalBase medusaPrefix = .ok medusa ∧
    parseCyclops ordersPortal = .ok cyclops ∧
    services.entries = bank.entries ++ payGateway.entries ++ medusa.entries ++ cyclops.entries := by
  have returns : (parse ordersPortal).toOption.any (fun services => services.entries.length = 4) = true := by decide +kernel
  obtain ⟨services, parsed, -⟩ := (Option.any_eq_true _ _).mp returns
  have parsed := toOption_some.mp parsed
  exact ⟨services, parsed, products_apart parsed⟩

end ScanApi.Cyclops
