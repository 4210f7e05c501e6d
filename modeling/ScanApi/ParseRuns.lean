import ScanApi.Cyclops
import ScanApi.NetworkRuns
import ScanApi.TBank

/-!
Whole parses of T-Bank and Tochka over the network. Every request of a parse, over all
its specs, pages, references and redirects, goes to a host of the bank
(`tbank_stays_home`, `tochka_stays_home`).
-/
namespace ScanApi.ParseRuns
open ScanApi.Raising ScanApi.Yaml ScanApi.Python ScanApi.Refs ScanApi.OpenApi ScanApi.Requests ScanApi.Prog ScanApi.Replay
  ScanApi.HostSafety ScanApi.NetworkRuns ScanApi.BankSpecs ScanApi.Cyclops
open ScanApi.AlikeSpecs (Entries)

/-! ### Sources over the network -/

/-- `str` of what requests and loads raise. -/
structure Reasons where
  request : List String → String
  load : String → String
  payload : String → String

def source (lib : Library) (reasons : Reasons) : Source (Prog Net PyError) where
  text := lib.text
  jsonLoads := lib.jsonLoads
  yamlSafeLoad := lib.yamlSafeLoad
  loadReason := reasons.load
  getCappedText := getCappedText lib
  requestReason _ := do
    let net ← get
    return reasons.request net.requests
  docs := documents lib

def maxRemoteBytes : Nat := 16 * 1024 * 1024

/-- The chunks of a page, given up past the limit. -/
def readPage (url : String) (failure : Option PyError) : List (List UInt8) → (size : Nat) → Except PyError Unit
  | [], _ => match failure with
    | some e => .error e
    | none => .ok ()
  | chunk :: rest, size =>
    if size + chunk.length > maxRemoteBytes then
      .error (.parserError ("cyclops: " ++ url ++ " is too large (over " ++ toString maxRemoteBytes ++ " bytes)"))
    else readPage url failure rest (size + chunk.length)

/-- `_get_text` up to its handler. -/
def readText (lib : Library) (url : String) : Prog Net PyError String := do
  let resp ← guardedGet lib url
  py (raiseForStatus resp)
  py (readPage url resp.failure resp.chunks 0)
  let charset ← py (charsetOf lib resp)
  py (lib.decode resp.chunks.flatten charset)

/-- What Tochka's pages take besides a source. -/
structure PageTools where
  unicode : Unicode.CharTables
  upper : String → String
  b64decode : String → Except PyError (List UInt8)
  decompress : List UInt8 → Nat → Except PyError (List UInt8 × Bool)
  jsonLoadsBytes : List UInt8 → Except PyError Node

def portal (lib : Library) (reasons : Reasons) (tools : PageTools) : Cyclops.Portal (Prog Net PyError) :=
  { source lib reasons, tools with readText := readText lib, payloadReason := reasons.payload }

/-! ### Requests to some hosts -/

/-- A request goes to one of these hosts. -/
def Home (lib : Library) (hosts : List String) (url : String) : Prop :=
  ∃ target, lib.urlparse url = .ok target ∧ (target.scheme = "http" ∨ target.scheme = "https") ∧ target.netloc ∈ hosts

/-- A state that may only append requests to these hosts. -/
structure Asked (lib : Library) (hosts : List String) where
  requests : List String

instance (lib : Library) (hosts : List String) : Preorder (Asked lib hosts) where
  le v w := ∃ later, w.requests = v.requests ++ later ∧ ∀ u ∈ later, Home lib hosts u
  le_refl v := ⟨[], by simp, by simp⟩
  le_trans v w x first second := by
    obtain ⟨later, made, inside⟩ := first
    obtain ⟨later', made', inside'⟩ := second
    refine ⟨later ++ later', by rw [made', made, List.append_assoc], fun u member => ?_⟩
    exact (List.mem_append.mp member).elim (inside u) (inside' u)

/-- Whatever it reads, the program asks these hosts only. -/
def StaysHome (lib : Library) (hosts : List String) {α : Type} (x : Prog Net PyError α) : Prop :=
  Grows (fun net : Net => (Asked.mk net.requests : Asked lib hosts)) x

variable {lib : Library} {hosts : List String} {α β : Type}

theorem staysHome_py (x : Except PyError α) : StaysHome lib hosts (py x) := by
  intro s
  rw [exec_py]

theorem home_sameHost {base url : String} (home : Home lib hosts base) (same : SameHost lib base url) : Home lib hosts url := by
  obtain ⟨target, parsed, -, listed⟩ := home
  obtain ⟨other, target', parsed', again, scheme, netloc⟩ := same
  obtain rfl := Except.ok.inj (parsed.symm.trans again)
  exact ⟨other, parsed', scheme, netloc ▸ listed⟩

theorem staysHome_extend {f : α → Prog Net PyError (List β)} (round : ∀ a, StaysHome lib hosts (f a)) (l : List α) :
    StaysHome lib hosts (extend f l) := by
  induction l with
  | nil => exact grows_pure _
  | cons a rest ih => exact grows_bind (round a) (fun _ => grows_bind ih (fun _ => grows_pure _))

theorem staysHome_ite {c : Prop} [Decidable c] {x y : Prog Net PyError α} (yes : StaysHome lib hosts x)
    (no : StaysHome lib hosts y) : StaysHome lib hosts (if c then x else y) := by
  split
  · exact yes
  · exact no

/-- What a parse asks below one address. -/
theorem staysHome_of_onHost {base : String} (home : Home lib hosts base) {x : Prog Net PyError α}
    (inside : ∀ s, ∃ later, (exec x s).2.requests = s.requests ++ later ∧ ∀ u ∈ later, u = base ∨ SameHost lib base u) :
    StaysHome lib hosts x := by
  intro s
  obtain ⟨later, made, all⟩ := inside s
  refine ⟨later, made, fun u member => ?_⟩
  rcases all u member with rfl | same
  · exact home
  · exact home_sameHost home same

theorem staysHome_guardedGet {url : String} (home : Home lib hosts url) : StaysHome lib hosts (guardedGet lib url) := by
  refine staysHome_of_onHost home (fun s => ?_)
  obtain ⟨later, made, -, inside⟩ := @follow_requests lib url maxRedirectHops url s
  refine ⟨url :: later, congrArg Net.requests made, fun u member => ?_⟩
  rcases List.mem_cons.mp member with rfl | old
  · exact .inl rfl
  · exact .inr (inside u old)

/-- A program whose files on record are on the host of an address. -/
theorem staysHome_of_onRecord {base : String} (home : Home lib hosts base) {P : α → Prop}
    {run : {m : Type → Type} → [Monad m] → [MonadExceptOf PyError m] → Documents m → m α} (onRecord : OnRecord lib base P run) :
    StaysHome lib hosts (run (documents lib)) := by
  refine staysHome_of_onHost home (fun s => ?_)
  obtain ⟨later, made, inside⟩ := (onRecord s).1.1
  exact ⟨later, made, fun u member => .inr (inside u member)⟩

/-! ### Specs -/

section
variable {reasons : Reasons}

theorem staysHome_fetchSpec {url : String} (home : Home lib hosts url) :
    StaysHome lib hosts (fetchSpec (source lib reasons) url) := by
  have text : StaysHome lib hosts (getCappedText lib url) := by
    refine grows_bind (staysHome_guardedGet home) (fun resp => grows_bind (staysHome_py _) (fun _ => ?_))
    exact grows_bind (staysHome_py _) (fun _ => grows_bind (staysHome_py _) (fun _ => staysHome_py _))
  refine grows_bind (grows_tryCatch text (fun e => ?_)) (fun text => ?_)
  · cases e with
    | requestException => exact grows_bind (grows_bind grows_get (fun _ => grows_pure _)) (fun _ => grows_throw _)
    | _ => exact grows_throw _
  · cases loadSpec (source lib reasons) text with
    | ok node =>
      cases node with
      | map spec => exact staysHome_ite (grows_pure _) (grows_throw _)
      | scalar _ | list _ | set _ => exact grows_throw _
    | error e => cases e <;> exact grows_throw _

theorem staysHome_space {specUrl : String} (home : Home lib hosts specUrl) (portalBase : String) :
    StaysHome lib hosts (TBank.parseSpace (source lib reasons) specUrl portalBase) := by
  rw [TBank.parseSpace]
  refine grows_bind (staysHome_fetchSpec home) (fun spec => grows_bind (staysHome_py _) (fun spec' => ?_))
  exact staysHome_of_onRecord home (parseOpenapiSpec_onRecord _ _ _)

theorem staysHome_product {specUrl : String} (home : Home lib hosts specUrl) (portalBase name : String) :
    StaysHome lib hosts (Tochka.parseProduct (source lib reasons) specUrl portalBase name) := by
  rw [Tochka.parseProduct]
  refine grows_bind (staysHome_fetchSpec home) (fun spec => grows_bind (staysHome_py _) (fun spec' => ?_))
  exact staysHome_of_onRecord home (parseOpenapiSpec_onRecord _ _ _)

/-- A parse of T-Bank asks its spec host only. -/
theorem tbank_stays_home (lib : Library) (reasons : Reasons)
    (parsed : ∀ url ∈ [TBank.specUrlTapi, TBank.specUrlPartner, TBank.specUrlPrivate],
      lib.urlparse url = .ok ⟨"https", "business.tbank.ru"⟩) (s : Net) :
    ∃ later, (exec (TBank.parse (source lib reasons)) s).2.requests = s.requests ++ later ∧
      ∀ u ∈ later, Home lib ["business.tbank.ru"] u := by
  have home : ∀ url ∈ [TBank.specUrlTapi, TBank.specUrlPartner, TBank.specUrlPrivate], Home lib ["business.tbank.ru"] url :=
    fun url listed => ⟨_, parsed url listed, .inr rfl, List.mem_singleton_self _⟩
  have shown : StaysHome lib ["business.tbank.ru"] (TBank.shownSpaces (source lib reasons)) := by
    refine grows_bind (staysHome_space (home _ (by simp)) _) (fun _ => ?_)
    exact grows_bind (staysHome_space (home _ (by simp)) _) (fun _ => grows_pure _)
  exact grows_bind shown (fun _ => grows_bind (staysHome_space (home _ (by simp)) _) (fun _ => grows_pure _)) s

end

/-- The network location of an address with a scheme. -/
def locationOf (url : String) : String := String.ofList ((url.toList.drop "https://".toList.length).takeWhile (· ≠ '/'))

/-- Portals that redirect everything to an internal address. -/
def attackedPortals : Library :=
  { attackedPortal with urlparse := fun url => .ok ⟨"https", locationOf url⟩ }

def noReasons : Reasons := ⟨fun _ => "", fun _ => "", fun _ => ""⟩

/-- The host of an address, whatever follows it. -/
theorem urlparse_attacked {url : String} (host : String) (rest : List Char)
    (text : url.toList = "https://".toList ++ (host.toList ++ '/' :: rest)) (inside : host.toList.all (· ≠ '/') = true) :
    attackedPortals.urlparse url = .ok ⟨"https", host⟩ := by
  have location : locationOf url = host := by
    rw [locationOf, text, List.drop_left, List.takeWhile_append_of_pos (List.all_eq_true.mp inside)]
    simp
  simp only [attackedPortals, location]

theorem tbank_stays_home_attacked : ∃ later,
    (exec (TBank.parse (source attackedPortals noReasons)) {}).2.requests = [] ++ later ∧
      ∀ u ∈ later, Home attackedPortals ["business.tbank.ru"] u := by
  have base : TBank.specBase.toList = "https://".toList ++ ("business.tbank.ru".toList ++
      '/' :: "openapi/docs/front/openapi.yaml".toList) := by
    decide +kernel
  have space : ∀ types, attackedPortals.urlparse (TBank.specBase ++ types) = .ok ⟨"https", "business.tbank.ru"⟩ := by
    intro types
    refine urlparse_attacked "business.tbank.ru" ("openapi/docs/front/openapi.yaml".toList ++ types.toList) ?_ (by decide)
    rw [String.toList_append, base, List.append_assoc, List.append_assoc, List.cons_append]
  refine tbank_stays_home attackedPortals noReasons ?_ {}
  simp only [List.forall_mem_cons, TBank.specUrlTapi, TBank.specUrlPartner, TBank.specUrlPrivate, String.append_assoc, space]
  simp

/-! ### Pages -/

theorem bundleSrc_free (unicode : Unicode.CharTables) (name : String) : (bundleSrc unicode name).anchorFree = true := by
  simp [bundleSrc, Regex.Pattern.anchorFree, Regex.Pattern.plus, Regex.Pattern.opt, Regex.literal_free]

/-- A bundle is a path of the portal itself. -/
theorem bundleUrl_path {m : Type → Type} {web : Cyclops.Portal m} {html label url : String}
    (named : bundleUrl web html label = .ok url) : ∃ path, url = cyclopsSiteRoot ++ "/" ++ path := by
  unfold bundleUrl at named
  split at named
  · cases named
  · rename_i way found
    obtain rfl := Except.ok.inj named
    have spelled := Regex.spells_of_search (bundleSrc_free web.unicode label) found
    rw [bundleSrc] at spelled
    obtain ⟨_, _, script, ⟨_, _, ⟨_, -, rfl⟩, ⟨_, _, ⟨_, -, rfl⟩, ⟨_, _, src, ⟨_, _, quote, ⟨_, _, path, ⟨_, -, rfl⟩, rfl⟩, rfl⟩, rfl⟩,
      rfl⟩, rfl⟩, rfl⟩ := spelled
    obtain rfl := Regex.spells_literal.mp script
    obtain rfl := Regex.spells_literal.mp src
    obtain ⟨_, ⟨_, tail, start, -, rfl⟩, rfl⟩ := path
    obtain rfl := Regex.spells_literal.mp start
    refine ⟨"assets/js/" ++ label ++ "." ++ String.ofList tail.taken, ?_⟩
    have slash : "/assets/js/" = "/" ++ "assets/js/" := by decide
    simp only [Sber.groupText, Regex.Way.group, List.nil_append, List.cons_append, List.find?_cons_of_pos, decide_true,
      Option.map_some, Option.getD_some, String.ofList_append, String.ofList_toList, slash, String.append_assoc]

section
variable {reasons : Reasons} {tools : PageTools}

theorem staysHome_getText {url : String} (home : Home lib hosts url) :
    StaysHome lib hosts (getText (portal lib reasons tools) url) := by
  have text : StaysHome lib hosts (readText lib url) := by
    refine grows_bind (staysHome_guardedGet home) (fun resp => grows_bind (staysHome_py _) (fun _ => ?_))
    exact grows_bind (staysHome_py _) (fun _ => grows_bind (staysHome_py _) (fun _ => staysHome_py _))
  refine grows_tryCatch text (fun e => ?_)
  cases e with
  | requestException => exact grows_bind (grows_bind grows_get (fun _ => grows_pure _)) (fun _ => grows_throw _)
  | _ => exact grows_throw _

variable (site : ∀ path, Home lib hosts (cyclopsSiteRoot ++ "/" ++ path))
include site

theorem staysHome_page (files : Dict String String) (way : Regex.Way) :
    StaysHome lib hosts (page (portal lib reasons tools) files way) := by
  rw [page]
  split
  · exact grows_pure _
  · rename_i filename _
    refine grows_bind (staysHome_getText (site filename)) (fun chunkJs => ?_)
    split
    · exact grows_pure _
    · exact grows_bind (staysHome_py _) (fun _ => grows_pure _)

theorem staysHome_operationOfPage (slug : String) (operation : Node) :
    StaysHome lib hosts (operationOfPage (portal lib reasons tools) slug operation) := by
  have home := site ""
  have here : AtHost lib (cyclopsSiteRoot ++ "/" ++ "") { schema := .map [], spec := operation } :=
    fun url known => nomatch known
  have fields := fun verb => staysHome_of_onRecord home (extractFieldsForMethod_onRecord here lib.text operation verb)
  have request := staysHome_of_onRecord home (extractRequestExample_onRecord here lib.text operation)
  have response := staysHome_of_onRecord home (extractResponseExample_onRecord here lib.text operation)
  rw [operationOfPage]
  refine grows_bind (staysHome_py _) (fun verb => grows_bind (staysHome_py _) (fun method => ?_))
  refine grows_bind (staysHome_py _) (fun path => staysHome_ite (grows_pure _) ?_)
  refine grows_bind (fields _) (fun _ => grows_bind (staysHome_ite request (grows_pure _)) (fun _ => ?_))
  refine grows_bind response (fun _ => grows_bind (staysHome_py _) (fun tags => ?_))
  exact grows_bind (staysHome_py _) (fun _ => grows_pure _)

theorem staysHome_pageMethods (found : String × Option Node) :
    StaysHome lib hosts (pageMethods (portal lib reasons tools) found) := by
  unfold pageMethods
  split
  · exact grows_pure _
  · exact grows_pure _
  · exact staysHome_operationOfPage site _ _

theorem staysHome_bundleUrls : GrowsTo (fun net : Net => (Asked.mk net.requests : Asked lib hosts))
    (fun urls => Home lib hosts urls.1 ∧ Home lib hosts urls.2) (bundleUrls (portal lib reasons tools)) := by
  have named : ∀ html label, GrowsTo (fun net : Net => (Asked.mk net.requests : Asked lib hosts)) (Home lib hosts)
      (py (bundleUrl (portal lib reasons tools) html label) : Prog Net PyError String) := by
    intro html label s
    rw [exec_py]
    refine ⟨le_rfl, fun url returned => ?_⟩
    obtain ⟨path, rfl⟩ := bundleUrl_path returned
    exact site path
  have entry : GrowsTo (fun net : Net => (Asked.mk net.requests : Asked lib hosts)) (fun _ => True)
      (getText (portal lib reasons tools) cyclopsEntryUrl) := by
    have home : Home lib hosts cyclopsEntryUrl := site ""
    exact fun s => ⟨staysHome_getText home s, fun _ _ => trivial⟩
  rw [bundleUrls]
  refine growsTo_bind entry (fun html _ => growsTo_bind (named html _) (fun runtimeUrl runtime => ?_))
  exact growsTo_bind (named html _) (fun mainUrl main => growsTo_pure ⟨runtime, main⟩)

theorem staysHome_parseCyclops : StaysHome lib hosts (parseCyclops (portal lib reasons tools)) := by
  have rest : ∀ urls : String × String, Home lib hosts urls.1 ∧ Home lib hosts urls.2 →
      GrowsTo (fun net : Net => (Asked.mk net.requests : Asked lib hosts)) (fun _ => True) (do
        let runtimeJs ← getText (portal lib reasons tools) urls.1
        let files ← py (chunkFiles (portal lib reasons tools).unicode runtimeJs)
        let found ← pages (portal lib reasons tools) urls.2 files
        if found.isEmpty then throw (.parserError "cyclops (nominal account): no method pages found in main.js")
        let methods ← extend (pageMethods (portal lib reasons tools)) found
        if methods.isEmpty then
          throw (.parserError "cyclops (nominal account): 0 methods decoded — scraping is unreliable")
        return Dict.groupBy TochkaMethod.serviceName id methods) := by
    rintro ⟨runtimeUrl, mainUrl⟩ ⟨runtime, main⟩
    suffices stays : StaysHome lib hosts _ from fun s => ⟨stays s, fun _ _ => trivial⟩
    refine grows_bind (staysHome_getText runtime) (fun runtimeJs => grows_bind (staysHome_py _) (fun files => ?_))
    refine grows_bind (grows_bind (staysHome_getText main) (fun mainJs => ?_)) (fun found => ?_)
    · exact staysHome_extend (staysHome_page site files) _
    · refine staysHome_ite (grows_throw _) (grows_bind (staysHome_extend (staysHome_pageMethods site) _) (fun methods => ?_))
      exact staysHome_ite (grows_throw _) (grows_pure _)
  exact fun s => (growsTo_bind (staysHome_bundleUrls site) rest s).1

end

/-- A parse of Tochka asks the hosts of its specs and its portal only. -/
theorem tochka_stays_home (lib : Library) (reasons : Reasons) (tools : PageTools)
    (bank : lib.urlparse Tochka.bankSpecUrl = .ok ⟨"https", "enter.tochka.com"⟩)
    (payGateway : lib.urlparse Tochka.payGatewaySpecUrl = .ok ⟨"https", "api.tochka.com"⟩)
    (medusa : lib.urlparse Tochka.medusaSpecUrl = .ok ⟨"https", "enter.tochka.com"⟩)
    (site : ∀ path, lib.urlparse (cyclopsSiteRoot ++ "/" ++ path) = .ok ⟨"https", "developers.tochka.com"⟩) (s : Net) :
    ∃ later, (exec (Cyclops.parse (portal lib reasons tools)) s).2.requests = s.requests ++ later ∧
      ∀ u ∈ later, Home lib ["enter.tochka.com", "api.tochka.com", "developers.tochka.com"] u := by
  have spec : ∀ {specUrl host} (portalBase name : String), lib.urlparse specUrl = .ok ⟨"https", host⟩ →
      host ∈ ["enter.tochka.com", "api.tochka.com", "developers.tochka.com"] →
        StaysHome lib ["enter.tochka.com", "api.tochka.com", "developers.tochka.com"]
          (Cyclops.product (portal lib reasons tools) specUrl portalBase name) := by
    intro specUrl host portalBase name parsed listed
    exact grows_bind (staysHome_product ⟨_, parsed, .inr rfl, listed⟩ portalBase name) (fun _ => grows_pure _)
  have pages := @staysHome_parseCyclops lib ["enter.tochka.com", "api.tochka.com", "developers.tochka.com"] reasons tools
    (fun path => ⟨_, site path, .inr rfl, by simp⟩)
  refine grows_bind (spec _ _ bank (by simp)) (fun _ => grows_bind (spec _ _ payGateway (by simp)) (fun _ => ?_)) s
  exact grows_bind (spec _ _ medusa (by simp)) (fun _ => grows_bind pages (fun _ => grows_pure _))

theorem siteRoot_location (path : String) : attackedPortals.urlparse (cyclopsSiteRoot ++ "/" ++ path) =
    .ok ⟨"https", "developers.tochka.com"⟩ := by
  have root : cyclopsSiteRoot.toList = "https://".toList ++ "developers.tochka.com".toList := by
    decide
  refine urlparse_attacked "developers.tochka.com" path.toList ?_ (by decide)
  rw [String.append_assoc, String.toList_append, String.toList_append, root, List.append_assoc]
  rfl

def noTools : PageTools where
  unicode := Unicode.latin1
  upper := id
  b64decode _ := .error .valueError
  decompress _ _ := .error .valueError
  jsonLoadsBytes _ := .error .valueError

theorem tochka_stays_home_attacked : ∃ later,
    (exec (Cyclops.parse (portal attackedPortals noReasons noTools)) {}).2.requests = [] ++ later ∧
      ∀ u ∈ later, Home attackedPortals ["enter.tochka.com", "api.tochka.com", "developers.tochka.com"] u :=
  tochka_stays_home attackedPortals noReasons noTools (by decide +kernel) (by decide +kernel) (by decide +kernel)
    siteRoot_location {}

end ScanApi.ParseRuns
