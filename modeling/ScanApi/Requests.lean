import ScanApi.Dict
import ScanApi.Refs

/-!
Requests of the parser (`_guarded_get`, `_get_capped_text`, `_fetch_external_spec`).
The state is the requests made so far and the sibling files read so far. What a
server answers may depend on all requests made until then, so any sequence of
answers is covered. Log lines are left out.
-/
namespace ScanApi.Requests
open ScanApi.Yaml ScanApi.Python ScanApi.Refs

def maxResponseBytes : Nat := 16 * 1024 * 1024
/-- HTTP redirect hops followed by hand for a single request. -/
def maxRedirectHops : Nat := 5
def redirectStatusCodes : List Int := [301, 302, 303, 307, 308]

structure Response where
  status : Int
  /-- The header `Location`. -/
  location : Option String := none
  /-- The header `Content-Type`. -/
  contentType : Option String := none
  chunks : List (List UInt8) := []
  /-- What reading raises after these chunks. -/
  failure : Option PyError := none

/-- Code outside the repository, and the servers. -/
structure Library extends Urllib where
  text : Text
  /-- The answer to the last of the requests. -/
  answer : List String → Except PyError Response
  codecsLookup : String → Except PyError Unit
  /-- `bytes.decode(charset, errors="replace")`. -/
  decode : List UInt8 → String → Except PyError String
  jsonLoads : String → Except PyError Node
  yamlSafeLoad : String → Except PyError Node

structure Net where
  requests : List String := []
  /-- url -> parsed spec (or {} on failure). -/
  cache : Dict String Node := Dict.empty

variable (lib : Library)

/-- `session.get(url, allow_redirects=False)`. -/
def sessionGet (url : String) : Prog Net PyError Response := do
  modify (fun net => { net with requests := net.requests ++ [url] })
  let net ← get
  py (lib.answer net.requests)

/-- Where a redirect leads, if it names a location: an address that is not on the
    origin of `url` is refused. -/
def redirectTarget (url currentUrl : String) (resp : Response) : Except PyError (Option String) :=
  match resp.location with
  | none => .ok none
  | some "" => .ok none
  | some location => do
    let nextUrl ← lib.urljoin currentUrl location
    if ← isSameOrigin lib.toUrllib nextUrl url then return some nextUrl
    else .error (.parserError (url ++ ": refusing to follow redirect to " ++ nextUrl ++ " (different origin)"))

/-- The redirects of a request to `url`, with `room` hops left. -/
def follow (url : String) : (room : Nat) → (currentUrl : String) → Prog Net PyError Response
  | room, currentUrl => do
    let resp ← sessionGet lib currentUrl
    if resp.status ∉ redirectStatusCodes then return resp
    match room with
    | 0 => throw (.parserError (url ++ ": more than " ++ toString maxRedirectHops ++ " redirects, giving up"))
    | room + 1 => match ← py (redirectTarget lib url currentUrl resp) with
      | none => return resp
      | some nextUrl => follow url room nextUrl

/-- GET `url`, following only same-origin http(s) redirects. -/
def guardedGet (url : String) : Prog Net PyError Response := follow lib url maxRedirectHops url

/-- The chunks of a body, given up past the limit. -/
def readChunks (url : String) (failure : Option PyError) : List (List UInt8) → (size : Nat) → Except PyError Unit
  | [], _ => match failure with
    | some e => .error e
    | none => .ok ()
  | chunk :: rest, size =>
    if size + chunk.length > maxResponseBytes then
      .error (.parserError (url ++ ": response is larger than " ++ toString maxResponseBytes ++ " bytes"))
    else readChunks url failure rest (size + chunk.length)

def stripBy (drop : Char → Bool) (text : String) : String :=
  String.ofList ((text.toList.dropWhile drop).reverse.dropWhile drop).reverse

/-- The charset that one parameter of `Content-Type` names. -/
def paramCharset (param : List Char) : Option String :=
  let parts := (stripBy lib.text.isspace (String.ofList param)).toList.span (· ≠ '=')
  let value := String.ofList (parts.2.drop 1)
  let charset := stripBy (· = '\'') (stripBy (· = '"') (stripBy lib.text.isspace value))
  if lib.text.lower (String.ofList parts.1) = "charset" ∧ charset ≠ "" then some charset else none

/-- The first charset among the parameters that exists, else utf-8. -/
def firstCharset : List (List Char) → Except PyError String
  | [] => .ok "utf-8"
  | param :: rest => match paramCharset lib param with
    | none => firstCharset rest
    | some charset => match lib.codecsLookup charset with
      | .ok _ => .ok charset
      | .error .lookupError => firstCharset rest
      | .error e => .error e

/-- Encoding to decode a body with. -/
def charsetOf (resp : Response) : Except PyError String :=
  firstCharset lib (((resp.contentType.getD "").toList.splitOn ';').drop 1)

/-- `resp.raise_for_status()`. -/
def raiseForStatus (resp : Response) : Except PyError Unit :=
  if 400 ≤ resp.status ∧ resp.status < 600 then .error .requestException else .ok ()

/-- GET a text response, giving up past the limit. -/
def getCappedText (url : String) : Prog Net PyError String := do
  let resp ← guardedGet lib url
  py (raiseForStatus resp)
  py (readChunks url resp.failure resp.chunks 0)
  let charset ← py (charsetOf lib resp)
  py (lib.decode resp.chunks.flatten charset)

/-- A JSON or YAML file by its text. -/
def load (text : String) : Except PyError Node :=
  if (text.toList.dropWhile lib.text.isspace).head? = some '{' then lib.jsonLoads text else lib.yamlSafeLoad text

/-- A sibling file as an object; what is no object counts as empty. -/
def loadExternal (url : String) : Prog Net PyError Node := do
  let text ← getCappedText lib url
  let loaded ← py (load lib text)
  return if isDict loaded then loaded else .map []

/-- The exceptions that are logged and yield {}. -/
def isLogged : PyError → Bool
  | .requestException => true
  | .parserError _ => true
  | .valueError => true
  | .yamlError => true
  | _ => false

/-- Fetch and parse a sibling spec file referenced by an external $ref, once. -/
def fetchExternalSpec (url : String) : Prog Net PyError Node := do
  let net ← get
  match net.cache.get? url with
  | some spec => return spec
  | none =>
    let spec ← tryCatch (loadExternal lib url) (fun e => if isLogged e then pure (.map []) else throw e)
    modify (fun net => { net with cache := net.cache.set url spec })
    return spec

/-- Sibling files over the network. -/
def documents : Documents (Prog Net PyError) := { lib.toUrllib with fetchExternalSpec := fetchExternalSpec lib }

end ScanApi.Requests
