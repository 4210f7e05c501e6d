import ScanApi.Examples
import ScanApi.SnapshotImport

/-!
Reading an OpenAPI or Swagger spec into methods by service
(`_parse_openapi_spec`). Everything in a spec may have any type, so the parsed
methods hold what the document holds; `declared` is the snapshot where all of it
has the types that `APIMethod` declares.
-/
namespace ScanApi.OpenApi
open ScanApi.Raising ScanApi.Yaml ScanApi.Python ScanApi.Refs ScanApi.Fields ScanApi.Examples ScanApi.SnapshotImport

/-- Media types without a body to show, even when they have a schema. -/
def binaryMediaTypePrefixes : List String :=
  ["application/octet-stream", "application/pdf", "application/zip", "image/"]

def isJsonEntry (text : Text) (e : Scalar × Node) : Except PyError Bool := do
  let mediaType ← lower text (.scalar e.1)
  contains "json" (.scalar (.str mediaType))

/-- A non-binary type that has a schema or an example. -/
def isUsableEntry (text : Text) (e : Scalar × Node) : Except PyError Bool := do
  let mediaType ← lower text (.scalar e.1)
  if binaryMediaTypePrefixes.any (fun p => p.toList.isPrefixOf mediaType.toList) then return false
  if !isDict e.2 then return false
  if (← get? "schema" e.2).truthy then return true
  if ← contains "example" e.2 then return true
  return (← get? "examples" e.2).truthy

/-- The body of the media type to read: JSON first, else the first usable one. -/
def pickMediaType (text : Text) (content : Node) : Except PyError Node := do
  if !content.truthy then return pyNone
  let entries ← items content
  match ← firstThat (isJsonEntry text) entries with
  | some e => return e.2
  | none => match ← firstThat (isUsableEntry text) entries with
    | some e => return e.2
    | none => return pyNone

/-- `responses` by the texts of their statuses: an unquoted `200:` is an integer.
    Of two spellings the later counts, in the place of the first. -/
def normalized (responses : Node) : Except PyError (Dict String Node) := do
  if !responses.truthy then return Dict.empty
  return Dict.ofEntries ((← items responses).map (fun e => (strScalar e.1, e.2)))

def isSuccess (text : Text) (status : String) : Bool :=
  match status.toList with
  | [a, b, c] => text.isdigit a && text.isdigit b && text.isdigit c && a = '2'
  | _ => false

variable {m : Type → Type} [Monad m] [MonadExceptOf PyError m]

/-- A response where it is to be read, with its own reference resolved. -/
def responseSite (docs : Documents m) (site : Site) (entry : Node) : m Site := do
  if ← py (isRef entry) then
    let ref ← py (item "$ref" entry)
    resolveRef docs ref { site with seen := ∅ }
  else return site.at entry

/-- A 2xx response with a body is a candidate. -/
def candidate (text : Text) (docs : Documents m) (site : Site) (e : String × Node) : m (List (String × Site)) := do
  if !isSuccess text e.1 then return []
  let target ← responseSite docs site e.2
  if !isDict target.schema then return []
  if (← py (get? "content" target.schema)).truthy then return [(e.1, target)]
  if (← py (get? "schema" target.schema)).truthy then return [(e.1, target)]
  return []

def candidates (text : Text) (docs : Documents m) (site : Site) (responses : Node) : m (List (String × Site)) := do
  let responses ← py (normalized responses)
  extend (candidate text docs site) responses.entries

def isPreferred (status : String) : Bool := status = "200" || status = "201"

/-- Prefers 200 and 201, else takes the first candidate. -/
def choose (candidates : List (String × Site)) : Option Site :=
  match candidates.find? (fun c => isPreferred c.1) with
  | some c => some c.2
  | none => candidates.head?.map Prod.snd

/-- The best 2xx response: its entry in its document, if one qualifies. The site
    is the place of the operation. -/
def selectResponse (text : Text) (docs : Documents m) (site : Site) (responses : Node) : m (Option Site) :=
  choose <$> candidates text docs site responses

/-- `self._extract_fields(data, ..)` from the top. -/
def bodyFields (docs : Documents m) (site : Site) (schema : Node) : m (List Scalar) :=
  extractFields docs 5 (.str "") { site with schema, seen := ∅ }

def bodyExample (docs : Documents m) (site : Site) (schema : Node) : m Node :=
  schemaToExample docs 13 { site with schema, seen := ∅ }

/-- Field names of the best 2xx response body. -/
def extractResponse200Fields (text : Text) (docs : Documents m) (site : Site) (operation : Node) :
    m (List Scalar) := do
  let responses ← py (get "responses" (.map []) operation)
  match ← selectResponse text docs site responses with
  | none => return []
  | some ok =>
    -- OpenAPI 3.x
    let content ← py (get "content" (.map []) ok.schema)
    if content.truthy then
      let data ← py (pickMediaType text content)
      if isNone data then return []
      let schema ← py (get "schema" (.map []) data)
      bodyFields docs ok schema
    else
      -- Swagger 2.0
      let schema ← py (get "schema" (.map []) ok.schema)
      if schema.truthy then bodyFields docs ok schema else return []

/-- The schema of the first body parameter that has one. -/
def bodyParameter : List Node → Except PyError (Option Node)
  | [] => .ok none
  | param :: rest => do
    if isStr "body" (← get? "in" param) then
      let schema ← get "schema" (.map []) param
      if schema.truthy then return some schema
    bodyParameter rest

/-- Field names of the body that `requestBody` of OpenAPI 3.x describes. -/
def requestBodyFields (text : Text) (docs : Documents m) (site : Site) (operation : Node) : m (List Scalar) := do
  let requestBody ← py (get "requestBody" (.map []) operation)
  if !requestBody.truthy then return []
  let content ← py (get "content" (.map []) requestBody)
  let data ← py (pickMediaType text content)
  if isNone data then return []
  let schema ← py (get "schema" (.map []) data)
  bodyFields docs site schema

/-- Field names of the body parameter of Swagger 2.0. -/
def parameterFields (docs : Documents m) (site : Site) (operation : Node) : m (List Scalar) := do
  let parameters ← py (get "parameters" (.list []) operation)
  let parameters ← py (iter parameters)
  match ← py (bodyParameter parameters) with
  | some schema => bodyFields docs site schema
  | none => return []

/-- Field names of the request body: what a method accepts. -/
def extractRequestBodyFields (text : Text) (docs : Documents m) (site : Site) (operation : Node) :
    m (List Scalar) := do
  let fields ← requestBodyFields text docs site operation
  if !fields.isEmpty then return fields
  parameterFields docs site operation

def hasRequestBody (httpVerb : String) : Bool := httpVerb = "post" || httpVerb = "put" || httpVerb = "patch"

/-- POST, PUT and PATCH: request fields, or where there are none response fields.
    GET and DELETE: response fields. -/
def extractFieldsForMethod (text : Text) (docs : Documents m) (site : Site) (httpVerb : String) (operation : Node) :
    m (List Scalar) := do
  if hasRequestBody httpVerb then
    let fields ← extractRequestBodyFields text docs site operation
    if !fields.isEmpty then return fields
  extractResponse200Fields text docs site operation

/-! ### Examples of bodies -/

/-- An empty object or list carries no information; a falsy scalar does. -/
def isMeaningfulExample : Node → Bool
  | .scalar .null => false
  | .map entries => !entries.isEmpty
  | .list items => !items.isEmpty
  | _ => true

/-- The first meaningful value among named examples. -/
def namedExample : List (Scalar × Node) → Except PyError (Option Node)
  | [] => .ok none
  | e :: rest => do
    let value ← get? "value" e.2
    if isMeaningfulExample value then return some (jsonSafe value)
    namedExample rest

/-- The example of a schema, where it is meaningful. -/
def schemaExample (docs : Documents m) (site : Site) (schema : Node) : m (Option Node) := do
  let result ← bodyExample docs site schema
  return if isMeaningfulExample result then some (jsonSafe result) else none

/-- An example that the media type itself gives. -/
def explicitExample (data : Node) : Except PyError (Option Node) := do
  if ← contains "example" data then
    let value ← item "example" data
    if isMeaningfulExample value then return some (jsonSafe value)
  let examples ← get "examples" (.map []) data
  namedExample (← items examples)

/-- The example of a media type: its own, a named one, or one made from its schema. -/
def mediaExample (docs : Documents m) (site : Site) (data : Node) : m (Option Node) := do
  match ← py (explicitExample data) with
  | some value => return some value
  | none =>
    let schema ← py (get "schema" (.map []) data)
    schemaExample docs site schema

/-- Swagger 2.0: the first body parameter with a meaningful example. -/
def parameterExample (docs : Documents m) (site : Site) : List Node → m (Option Node)
  | [] => return none
  | param :: rest => do
    if isStr "body" (← py (get? "in" param)) then
      let schema ← py (get "schema" (.map []) param)
      match ← schemaExample docs site schema with
      | some value => return some value
      | none => parameterExample docs site rest
    else parameterExample docs site rest

/-- The example that `requestBody` of OpenAPI 3.x gives. -/
def requestBodyExample (text : Text) (docs : Documents m) (site : Site) (operation : Node) : m (Option Node) := do
  let requestBody ← py (get "requestBody" (.map []) operation)
  if !requestBody.truthy then return none
  let content ← py (get "content" (.map []) requestBody)
  let data ← py (pickMediaType text content)
  if isNone data then return none
  mediaExample docs site data

/-- A JSON-serializable example of the request body. -/
def extractRequestExample (text : Text) (docs : Documents m) (site : Site) (operation : Node) : m Node := do
  match ← requestBodyExample text docs site operation with
  | some value => return value
  | none =>
    let parameters ← py (get "parameters" (.list []) operation)
    let parameters ← py (iter parameters)
    return (← parameterExample docs site parameters).getD (.map [])

/-- Swagger 2.0: the first JSON example among those of a response. -/
def jsonExample : List (Scalar × Node) → Except PyError (Option Node)
  | [] => .ok none
  | e :: rest => do
    if (← contains "json" (.scalar e.1)) && isMeaningfulExample e.2 then return some (jsonSafe e.2)
    jsonExample rest

/-- The example of a Swagger 2.0 response. -/
def swaggerExample (docs : Documents m) (ok : Site) : m (Option Node) := do
  let examples ← py (get "examples" (.map []) ok.schema)
  let examples ← py (items examples)
  match ← py (jsonExample examples) with
  | some value => return some value
  | none =>
    let schema ← py (get "schema" (.map []) ok.schema)
    if !schema.truthy then return none
    schemaExample docs ok schema

/-- A JSON-serializable example of the best 2xx response. -/
def extractResponseExample (text : Text) (docs : Documents m) (site : Site) (operation : Node) : m Node := do
  let responses ← py (get "responses" (.map []) operation)
  match ← selectResponse text docs site responses with
  | none => return .map []
  | some ok =>
    let content ← py (get "content" (.map []) ok.schema)
    if content.truthy then
      let data ← py (pickMediaType text content)
      if isNone data then return .map []
      return (← mediaExample docs ok data).getD (.map [])
    else return (← swaggerExample docs ok).getD (.map [])

/-! ### Methods -/

/-- What the parser puts into an `APIMethod`. -/
structure RawMethod where
  serviceName : Scalar
  httpMethod : String
  path : Scalar
  summary : Node
  description : Node
  response200Fields : List Scalar
  urlOnPortal : String
  requestExample : Node
  responseExample : Node

/-- `http_verb.upper()` of a verb that is read. -/
def upperVerb : String → Option String
  | "get" => some "GET"
  | "post" => some "POST"
  | "put" => some "PUT"
  | "patch" => some "PATCH"
  | "delete" => some "DELETE"
  | _ => none

/-- `_portal_url`: the anchor of an operation on the bank's portal. -/
def portalUrl (text : Text) (portalBaseUrl : String) (opId : Node) : String :=
  if opId.truthy then portalBaseUrl ++ "#" ++ str text opId else portalBaseUrl

/-- A tag is skipped when any excluded tag is a substring of it. -/
def isExcluded (text : Text) (excludedTags : List String) (tag : Node) : Except PyError Bool := do
  if excludedTags.isEmpty then return false
  let name ← lower text tag
  return excludedTags.any (fun excluded => isPart (text.lower excluded) name)

/-- What a call of `_parse_openapi_spec` reads beside the spec. -/
structure Portal where
  text : Text
  baseUrl : String
  excludedTags : List String := []
  /-- `_portal_url`, which some parsers override. -/
  urlOf : Node → Except PyError String := fun opId => .ok (portalUrl text baseUrl opId)

/-- The method under one of its tags. -/
def taggedMethod (portal : Portal) (opId : Node) (method : RawMethod) (tag : Node) : m (List RawMethod) := do
  if ← py (isExcluded portal.text portal.excludedTags tag) then return []
  let urlOnPortal ← py (portal.urlOf opId)
  let serviceName ← py (hashable tag)
  return [{ method with serviceName, urlOnPortal }]

/-- `operation.get("tags") or ["Без тега"]`. -/
def tagsOf (operation : Node) : Except PyError (List Node) := do
  let tags ← get? "tags" operation
  if tags.truthy then iter tags else return [.scalar (.str "Без тега")]

/-- The request example of a verb that has a body. -/
def requestExampleOf (text : Text) (docs : Documents m) (site : Site) (httpVerb : String) (operation : Node) : m Node :=
  if hasRequestBody httpVerb then extractRequestExample text docs site operation else pure (.map [])

/-- The methods of one operation. -/
def operationMethods (portal : Portal) (docs : Documents m) (site : Site) (path : Scalar) (httpVerb upper : String)
    (operation : Node) : m (List RawMethod) := do
  let text := portal.text
  let summary ← py (get "summary" (.scalar (.str "")) operation)
  let description ← py (get "description" (.scalar (.str "")) operation)
  let opId ← py (get "operationId" (.scalar (.str "")) operation)
  let response200Fields ← extractFieldsForMethod text docs site httpVerb operation
  let requestExample ← requestExampleOf text docs site httpVerb operation
  let responseExample ← extractResponseExample text docs site operation
  let tags ← py (tagsOf operation)
  let method : RawMethod := {
    serviceName := .null, httpMethod := upper, path, summary, description, response200Fields
    urlOnPortal := "", requestExample, responseExample }
  extend (taggedMethod portal opId method) tags

/-- The methods of one entry of a path: verbs with an operation are read. -/
def entryMethods (portal : Portal) (docs : Documents m) (site : Site) (path : Scalar) :
    Scalar × Node → m (List RawMethod)
  | (.str httpVerb, .map entries) => match upperVerb httpVerb with
    | some upper => operationMethods portal docs site path httpVerb upper (.map entries)
    | none => return []
  | _ => return []

/-- The methods of one path. -/
def pathMethods (portal : Portal) (docs : Documents m) (site : Site) (e : Scalar × Node) : m (List RawMethod) :=
  match e.2 with
  | .map pathItem => extend (entryMethods portal docs site e.1) pathItem
  | _ => return []

/-- All methods of a spec in document order. -/
def specMethods (portal : Portal) (docs : Documents m) (spec : Node) (specUrl : Option String) : m (List RawMethod) := do
  let paths ← py (get "paths" (.map []) spec)
  let paths ← py (items paths)
  extend (pathMethods portal docs { schema := .map [], spec, specUrl }) paths

/-- Convert an OpenAPI/Swagger spec into methods by service. -/
def parseOpenapiSpec (portal : Portal) (docs : Documents m) (spec : Node) (specUrl : Option String) :
    m (Dict Scalar (List RawMethod)) :=
  Dict.groupBy RawMethod.serviceName id <$> specMethods portal docs spec specUrl

/-! ### Snapshots of the declared types -/

def scalarText : Scalar → Option String
  | .str text => some text
  | _ => none

def nodeText : Node → Option String
  | .scalar value => scalarText value
  | _ => none

/-- The method, where its names and texts are texts. -/
def declaredMethod (method : RawMethod) : Option ApiMethod := do
  let path ← scalarText method.path
  let summary ← nodeText method.summary
  let description ← nodeText method.description
  let fields ← method.response200Fields.mapM scalarText
  return {
    httpMethod := method.httpMethod, path := some path, summary, description, response200Fields := some fields
    urlOnPortal := method.urlOnPortal, requestExample := method.requestExample
    responseExample := method.responseExample }

def declaredService (e : Scalar × List RawMethod) : Option (String × List ApiMethod) := do
  let name ← scalarText e.1
  let methods ← e.2.mapM declaredMethod
  return (name, methods)

/-- `_make_snapshot`, where all names and texts are texts. -/
def declared (services : Dict Scalar (List RawMethod)) : Option ParseSnapshot :=
  (services.entries.mapM declaredService).map (fun entries => ⟨Dict.ofEntries entries⟩)

/-- The snapshot of a spec that parses into the declared types. -/
def snapshotOf (portal : Portal) (docs : Documents (Except PyError)) (spec : Node) (specUrl : Option String) :
    Option ParseSnapshot :=
  (parseOpenapiSpec portal docs spec specUrl).toOption.bind declared

end ScanApi.OpenApi
