import ScanApi.Logins
import ScanApi.Raising
import ScanApi.UrlSplit

/-!
Who is let through to which handler: the routes that `app/main.py` registers, the
middleware that asks for a session, the guard of the admin's routes and the login
(`app/web_auth.py`). A handler that is reached reads its arguments next; what it
does then is left to the modules about it.
-/
namespace ScanApi.Site
open ScanApi.Python ScanApi.Unicode ScanApi.UrlSplit ScanApi.Sessions ScanApi.Logins ScanApi.Raising

/-! ### Routes -/

/-- The handlers, after the pages of the framework's own. -/
inductive Endpoint
  | openapi | swaggerUi | swaggerRedirect
  | login | logout | me
  | getSettings | putSettings | listProxies | addProxy | deleteProxy | checkAll | checkOne
  | getBenchmark | putOverride
  | hiddenSummary | hiddenServices | hiddenMethods
  | getLogs
  | apiSummary | apiChanges | apiServices | apiMethods | apiParseNow | apiHealth | apiParseStatus
  | assets | spaFallback
deriving DecidableEq, Repr

/-- A piece of a route's path. -/
inductive Segment
  | text (text : String)
  /-- `{name}`, which a slash ends. -/
  | param
  /-- `{name:path}`, which a line break ends. -/
  | path
deriving DecidableEq

structure Route where
  /-- None where a directory is mounted. -/
  methods : Option (List String)
  template : List Segment
  endpoint : Endpoint
  /-- `Depends(require_admin)`. -/
  adminOnly : Bool := false
deriving DecidableEq

/-- Whether a path matches a route's pattern, which ends in `$`. -/
def fits : List Segment → List Char → Bool
  | [], rest => rest = [] || rest = ['\n']
  | .text text :: template, rest => text.toList.isPrefixOf rest && fits template (rest.drop text.toList.length)
  | .param :: template, rest => (rest.takeWhile (· ≠ '/')) ≠ [] && fits template (rest.dropWhile (· ≠ '/'))
  | .path :: template, rest => fits template (rest.dropWhile (· ≠ '\n'))

/-- A page of the framework. -/
def page (path : String) (endpoint : Endpoint) : Route := ⟨some ["GET", "HEAD"], [.text path], endpoint, false⟩

def frameworkRoutes : List Route :=
  [page "/api/openapi.json" .openapi, page "/api/docs" .swaggerUi, page "/docs/oauth2-redirect" .swaggerRedirect]

/-- `web_auth.router`. -/
def authRoutes : List Route :=
  [⟨some ["POST"], [.text "/api/auth/login"], .login, false⟩,
   ⟨some ["POST"], [.text "/api/auth/logout"], .logout, false⟩,
   ⟨some ["GET"], [.text "/api/auth/me"], .me, false⟩]

/-- `admin_api.router`, all of it behind the guard. -/
def adminRoutes : List Route :=
  [⟨some ["GET"], [.text "/api/settings"], .getSettings, true⟩,
   ⟨some ["PUT"], [.text "/api/settings"], .putSettings, true⟩,
   ⟨some ["GET"], [.text "/api/proxies"], .listProxies, true⟩,
   ⟨some ["POST"], [.text "/api/proxies"], .addProxy, true⟩,
   ⟨some ["DELETE"], [.text "/api/proxies/", .param], .deleteProxy, true⟩,
   ⟨some ["POST"], [.text "/api/proxies/check"], .checkAll, true⟩,
   ⟨some ["POST"], [.text "/api/proxies/", .param, .text "/check"], .checkOne, true⟩]

/-- `benchmark_api.router`, where only the override is the admin's. -/
def benchmarkRoutes : List Route :=
  [⟨some ["GET"], [.text "/api/benchmark"], .getBenchmark, false⟩,
   ⟨some ["PUT"], [.text "/api/benchmark/overrides"], .putOverride, true⟩]

/-- `hidden_api.router` and `logs_api.router`. -/
def hiddenRoutes : List Route :=
  [⟨some ["GET"], [.text "/api/hidden/summary"], .hiddenSummary, true⟩,
   ⟨some ["GET"], [.text "/api/hidden/services"], .hiddenServices, true⟩,
   ⟨some ["GET"], [.text "/api/hidden/methods"], .hiddenMethods, true⟩,
   ⟨some ["GET"], [.text "/api/logs"], .getLogs, true⟩]

/-- The routes of `main.py` itself. -/
def appRoutes : List Route :=
  [⟨some ["GET"], [.text "/api/summary"], .apiSummary, false⟩,
   ⟨some ["GET"], [.text "/api/changes"], .apiChanges, false⟩,
   ⟨some ["GET"], [.text "/api/services"], .apiServices, false⟩,
   ⟨some ["GET"], [.text "/api/methods"], .apiMethods, false⟩,
   ⟨some ["POST"], [.text "/api/parse"], .apiParseNow, true⟩,
   ⟨some ["GET"], [.text "/api/health"], .apiHealth, false⟩,
   ⟨some ["GET"], [.text "/api/parse/status"], .apiParseStatus, false⟩]

/-- The built frontend, if there is one, and the page for every other path. -/
def frontendRoutes (built : Bool) : List Route :=
  (if built then [⟨none, [.text "/assets/", .path], .assets, false⟩] else []) ++
    [⟨some ["GET"], [.text "/", .path], .spaFallback, false⟩]

/-- All routes in the order in which they are tried. -/
def routes (built : Bool) : List Route :=
  frameworkRoutes ++ authRoutes ++ adminRoutes ++ benchmarkRoutes ++ hiddenRoutes ++ appRoutes ++ frontendRoutes built

/-! ### Requests -/

structure Request where
  method : String
  /-- The path that is routed. -/
  path : String
  /-- `request.url.path`, for which the Host header and the path are joined and split again. -/
  urlPath : String
  origin : Option String := none
  host : String := ""
  /-- The session cookie, empty where there is none. -/
  cookie : String := ""
  address : String := "unknown"
  /-- The password of the body, where that is a login. -/
  password : Option String := none
  now : Rat

inductive Reply
  /-- Answered with 500. -/
  | raised (error : PyError)
  | crossOrigin
  | loginRequired
  | adminRequired
  | notFound
  | methodNotAllowed
  | unprocessable
  | tooManyAttempts
  | wrongPassword
  /-- With the cookie that is set. -/
  | loggedIn (role : Role) (cookie : String)
  /-- Left to a handler, with the role of the session. -/
  | entered (endpoint : Endpoint) (role : Option Role)
deriving DecidableEq

def publicApi : List String := ["/api/auth/login", "/api/auth/logout", "/api/health"]

def safeMethods : List String := ["GET", "HEAD", "OPTIONS"]

def underApi (path : String) : Bool := "/api/".toList.isPrefixOf path.toList

/-- The library and the tables of texts that a site runs with. -/
structure Platform where
  tables : TextTables
  crypto : Crypto
  /-- Whether `frontend/dist/assets` exists. -/
  built : Bool

def sameOrigin (platform : Platform) (request : Request) : Except PyError Bool :=
  match request.origin with
  | none => .ok true
  | some origin => (urlsplit platform.tables origin.toList).map (fun parts => String.ofList parts.netloc = request.host)

/-- Methods that may write are taken from the site's own pages only. -/
def checkOrigin (platform : Platform) (request : Request) : Except Reply Unit :=
  if request.method ∈ safeMethods then .ok ()
  else match sameOrigin platform request with
    | .error e => .error (.raised e)
    | .ok same => if same then .ok () else .error .crossOrigin

/-- The role of the request's session, which only the public paths need not have. -/
def sessionRole (platform : Platform) (auth : Auth) (request : Request) : Except Reply (Option Role) :=
  if request.urlPath ∈ publicApi then .ok none
  else match verify platform.tables.toCharTables platform.crypto auth request.cookie request.now with
    | .error e => .error (.raised e)
    | .ok none => .error .loginRequired
    | .ok (some role) => .ok (some role)

/-- The role that is left on the request, unless the middleware answers itself. -/
def authMiddleware (platform : Platform) (auth : Auth) (request : Request) : Except Reply (Option Role) := do
  if !underApi request.urlPath then return none
  checkOrigin platform request
  sessionRole platform auth request

/-- The first route that matches path and method. -/
def routed (built : Bool) (request : Request) : Except Reply Route :=
  match (routes built).find? (fun route =>
      fits route.template request.path.toList && route.methods.all (request.method ∈ ·)) with
  | some route => .ok route
  | none =>
    if (routes built).any (fun route => fits route.template request.path.toList) then .error .methodNotAllowed
    else .error .notFound

/-! ### Processes -/

/-- What a process keeps in memory for logins. -/
structure Process where
  auth : Auth
  limiter : LoginLimiter

/-- The settings of a process, and 32 bytes that it draws. -/
structure Environment where
  adminPassword : String
  teamPassword : String
  sessionSecret : String
  drawn : List UInt8

/-- `_build_auth`. -/
def buildAuth (environment : Environment) : Auth :=
  let secret := encode environment.sessionSecret
  .init (Dict.ofEntries [(.admin, environment.adminPassword), (.team, environment.teamPassword)])
    (if secret = [] then environment.drawn else secret) sessionTtl

def boot (environment : Environment) : Process := ⟨buildAuth environment, {}⟩

/-- `LoginBody`. -/
def loginBody (request : Request) : Except Reply String :=
  match request.password with
  | none => .error .unprocessable
  | some password => if password.length = 0 ∨ 200 < password.length then .error .unprocessable else .ok password

/-- `POST /api/auth/login`. -/
def loginReply (platform : Platform) (site : Process) (request : Request) (password : String) : Reply × Process :=
  let (outcome, limiter) := login site.auth site.limiter ⟨request.address, request.now, password⟩
  let reply := match outcome with
    | .refused => .tooManyAttempts
    | .wrong => .wrongPassword
    | .loggedIn role => match issue platform.crypto site.auth role request.now with
      | .error e => .raised e
      | .ok token => .loggedIn role (token.getD "")
  (reply, { site with limiter })

/-- What a route's handler answers by itself, and which requests it takes further. -/
def dispatch (platform : Platform) (site : Process) (request : Request) (role : Option Role) : Endpoint → Reply × Process
  | .login => match loginBody request with
    | .error reply => (reply, site)
    | .ok password => loginReply platform site request password
  | .me => match role with
    | none => (.raised .attributeError, site)
    | some role => (.entered .me (some role), site)
  | .spaFallback =>
    let fullPath := request.path.toList.drop 1
    if fullPath = "api".toList ∨ "api/".toList.isPrefixOf fullPath then (.notFound, site) else (.entered .spaFallback role, site)
  | endpoint => (.entered endpoint role, site)

/-- A request through the middleware, the routes and the guard. -/
def respond (platform : Platform) (site : Process) (request : Request) : Reply × Process :=
  match authMiddleware platform site.auth request with
  | .error reply => (reply, site)
  | .ok role => match routed platform.built request with
    | .error reply => (reply, site)
    | .ok route =>
      if route.adminOnly ∧ role ≠ some .admin then (.adminRequired, site)
      else dispatch platform site request role route.endpoint

inductive Event
  | request (request : Request)
  /-- The process ends, and another one starts. -/
  | restart (environment : Environment)

def step (platform : Platform) (site : Process) : Event → Process
  | .request request => (respond platform site request).2
  | .restart environment => boot environment

/-- The site after events. -/
def after (platform : Platform) (start : Process) (events : List Event) : Process := events.foldl (step platform) start

/-- The answer to a request that follows events. -/
def replyTo (platform : Platform) (start : Process) (before : List Event) (request : Request) : Reply :=
  (respond platform (after platform start before) request).1

/-! ### What a reply tells -/

variable {platform : Platform} {process : Process} {request : Request}

theorem prefix_of_fits {text : String} {template : List Segment} {path : List Char}
    (fit : fits (.text text :: template) path = true) : text.toList <+: path := by
  rw [fits, Bool.and_eq_true] at fit
  exact List.isPrefixOf_iff_prefix.mp fit.1

theorem routed_spec {built : Bool} {route : Route} (found : routed built request = .ok route) :
    route ∈ routes built ∧ fits route.template request.path.toList = true := by
  unfold routed at found
  split at found
  · rename_i first matched
    obtain rfl : first = route := by simpa using found
    have served := List.find?_some matched
    rw [Bool.and_eq_true] at served
    exact ⟨List.mem_of_find?_eq_some matched, served.1⟩
  · split at found <;> cases found

/-- A reply by which nothing is let through. -/
def Refusal (reply : Reply) : Prop :=
  (∀ endpoint role, reply ≠ .entered endpoint role) ∧ ∀ role cookie, reply ≠ .loggedIn role cookie

theorem checkOrigin_refuses {reply : Reply} (refused : checkOrigin platform request = .error reply) : Refusal reply := by
  unfold checkOrigin at refused
  split at refused
  · cases refused
  · split at refused
    · cases refused
      exact ⟨by simp, by simp⟩
    · split at refused <;> cases refused
      exact ⟨by simp, by simp⟩

theorem sessionRole_refuses {auth : Auth} {reply : Reply} (refused : sessionRole platform auth request = .error reply) :
    Refusal reply := by
  unfold sessionRole at refused
  split at refused
  · cases refused
  · split at refused <;> cases refused
    · exact ⟨by simp, by simp⟩
    · exact ⟨by simp, by simp⟩

theorem authMiddleware_refuses {auth : Auth} {reply : Reply}
    (refused : authMiddleware platform auth request = .error reply) : Refusal reply := by
  unfold authMiddleware at refused
  split at refused
  · cases refused
  · rcases bind_error.mp refused with origin | ⟨-, -, session⟩
    · exact checkOrigin_refuses origin
    · exact sessionRole_refuses session

theorem routed_refuses {built : Bool} {reply : Reply} (refused : routed built request = .error reply) : Refusal reply := by
  unfold routed at refused
  split at refused
  · cases refused
  · split at refused <;> cases refused
    · exact ⟨by simp, by simp⟩
    · exact ⟨by simp, by simp⟩

/-- What the middleware says of a request that it passes on. -/
theorem authMiddleware_passes {auth : Auth} {role : Option Role}
    (passed : authMiddleware platform auth request = .ok role) :
    (underApi request.urlPath = false ∧ role = none) ∨
      checkOrigin platform request = .ok () ∧ (request.urlPath ∈ publicApi ∧ role = none ∨
        ∃ named, role = some named ∧
          verify platform.tables.toCharTables platform.crypto auth request.cookie request.now = .ok (some named)) := by
  unfold authMiddleware at passed
  split at passed
  · rename_i outside
    exact .inl ⟨by simpa using outside, (Except.ok.inj passed).symm⟩
  obtain ⟨⟨⟩, origin, session⟩ := bind_ok.mp passed
  unfold sessionRole at session
  split at session
  · rename_i listed
    exact .inr ⟨origin, .inl ⟨listed, (Except.ok.inj session).symm⟩⟩
  · split at session <;> cases session
    rename_i named accepted
    exact .inr ⟨origin, .inr ⟨named, rfl, accepted⟩⟩

theorem loginReply_loggedIn {password token : String} {role : Role}
    (answered : (loginReply platform process request password).1 = .loggedIn role token) :
    checkPassword process.auth password = some role ∧
      ∃ issued, issue platform.crypto process.auth role request.now = .ok issued ∧ token = issued.getD "" := by
  simp only [loginReply] at answered
  rcases login_cases process.auth process.limiter ⟨request.address, request.now, password⟩ with
    ⟨-, outcome⟩ | ⟨-, -, outcome⟩ | ⟨-, named, matched, outcome⟩ <;> rw [outcome] at answered
  · cases answered
  · cases answered
  · simp only at answered
    split at answered
    · cases answered
    · rename_i issued returned
      cases answered
      exact ⟨matched, issued, returned, rfl⟩

/-- What a handler answers without being entered. -/
theorem loginBody_refuses {reply : Reply} (refused : loginBody request = .error reply) : Refusal reply := by
  unfold loginBody at refused
  split at refused
  · cases refused
    exact ⟨by simp, by simp⟩
  · split at refused <;> cases refused
    exact ⟨by simp, by simp⟩

theorem loginReply_not_entered {password : String} (endpoint : Endpoint) (role : Option Role) :
    (loginReply platform process request password).1 ≠ .entered endpoint role := by
  simp only [loginReply]
  split
  · simp
  · simp
  · split <;> simp

theorem dispatch_entered {role : Option Role} {endpoint endpoint' : Endpoint} {role' : Option Role}
    (entered : (dispatch platform process request role endpoint).1 = .entered endpoint' role') :
    endpoint = endpoint' ∧ role = role' ∧ endpoint ≠ .login := by
  cases endpoint
  case login =>
    simp only [dispatch] at entered
    split at entered
    · rename_i reply refused
      exact absurd entered ((loginBody_refuses refused).1 _ _)
    · exact absurd entered (loginReply_not_entered _ _)
  case me =>
    cases role <;> simp [dispatch] at entered
    exact ⟨entered.1, entered.2, by simp⟩
  case spaFallback =>
    simp only [dispatch] at entered
    split at entered
    · cases entered
    · simp only [Reply.entered.injEq] at entered
      exact ⟨entered.1, entered.2, by simp⟩
  all_goals
    simp only [dispatch, Reply.entered.injEq] at entered
    exact ⟨entered.1, entered.2, by simp⟩

theorem dispatch_loggedIn {role : Option Role} {endpoint : Endpoint} {named : Role} {token : String}
    (answered : (dispatch platform process request role endpoint).1 = .loggedIn named token) :
    ∃ password, request.password = some password ∧ (loginReply platform process request password).1 = .loggedIn named token := by
  cases endpoint
  case login =>
    simp only [dispatch] at answered
    split at answered
    · rename_i reply refused
      exact absurd answered ((loginBody_refuses refused).2 _ _)
    · rename_i password typed
      refine ⟨password, ?_, answered⟩
      unfold loginBody at typed
      split at typed
      · cases typed
      · split at typed <;> cases typed
        assumption
  case me => cases role <;> cases answered
  case spaFallback =>
    simp only [dispatch] at answered
    split at answered <;> cases answered
  all_goals cases answered

/-- A request that reaches a handler passed the middleware, was routed there, and the guard took its role. -/
theorem respond_entered {endpoint : Endpoint} {role : Option Role}
    (entered : (respond platform process request).1 = .entered endpoint role) :
    authMiddleware platform process.auth request = .ok role ∧ ∃ route ∈ routes platform.built,
      route.endpoint = endpoint ∧ endpoint ≠ .login ∧ fits route.template request.path.toList = true ∧
        (route.adminOnly = true → role = some .admin) := by
  unfold respond at entered
  split at entered
  · rename_i reply refused
    exact absurd entered ((authMiddleware_refuses refused).1 _ _)
  rename_i role' passed
  split at entered
  · rename_i reply refused
    exact absurd entered ((routed_refuses refused).1 _ _)
  rename_i route found
  split at entered
  · cases entered
  rename_i guarded
  obtain ⟨rfl, rfl, other⟩ := dispatch_entered entered
  obtain ⟨member, fit⟩ := routed_spec found
  exact ⟨passed, route, member, rfl, other, fit, fun only => by simpa [only] using guarded⟩

/-- A login is answered with a cookie that `issue` wrote for the role of its password. -/
theorem respond_loggedIn {role : Role} {token : String}
    (answered : (respond platform process request).1 = .loggedIn role token) :
    ∃ password, request.password = some password ∧ checkPassword process.auth password = some role ∧
      ∃ issued, issue platform.crypto process.auth role request.now = .ok issued ∧ token = issued.getD "" := by
  unfold respond at answered
  split at answered
  · rename_i reply refused
    exact absurd answered ((authMiddleware_refuses refused).2 _ _)
  split at answered
  · rename_i reply refused
    exact absurd answered ((routed_refuses refused).2 _ _)
  split at answered
  · cases answered
  obtain ⟨password, typed, replied⟩ := dispatch_loggedIn answered
  exact ⟨password, typed, loginReply_loggedIn replied⟩

end ScanApi.Site
