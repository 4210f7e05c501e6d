import ScanApi.PasswordChange
import ScanApi.Site

/-!
Sessions over whole runs of the site, restarts with other settings included. No
signature is made but by a login, so whoever reaches a handler with a session has
typed the password that the session's role has at that moment, in a login whose
reply set that very cookie.
-/
namespace ScanApi.Admission
open ScanApi.Python ScanApi.Unicode ScanApi.UrlSplit ScanApi.Sessions ScanApi.PasswordChange ScanApi.Site

variable {platform : Platform} {start : Process} {request : Request}

/-! ### One process -/

theorem foldl_roles {auth : Auth} {password : String} {role : Role} (matched : checkPassword auth password = some role) :
    encode password = encode (auth.passwords role) ∧ auth.passwords role ≠ "" := by
  simp only [checkPassword, roles, List.foldl_cons, List.foldl_nil] at matched
  split at matched
  · rename_i team
    cases matched
    exact team
  · split at matched
    · rename_i admin
      cases matched
      exact admin
    · cases matched

/-- Only a role's own password is its. -/
theorem password_of_checkPassword {auth : Auth} {password : String} {role : Role}
    (matched : checkPassword auth password = some role) : password = auth.passwords role ∧ auth.passwords role ≠ "" :=
  ⟨encode_injective (foldl_roles matched).1, (foldl_roles matched).2⟩

/-- A token that names a role was signed for it and has not expired. -/
theorem issued_of_verify {unicode : CharTables} {crypto : Crypto} {auth : Auth} {token : String} {now : Rat} {role : Role}
    (named : verify unicode crypto auth token now = .ok (some role)) : Issued unicode crypto auth role token now := by
  cases parsed : parseToken unicode token with
  | none =>
    rw [verify_unparsed parsed] at named
    cases named
  | some parts =>
    obtain ⟨role', expires, signature⟩ := parts
    by_cases off : auth.passwords role' = ""
    · rw [verify_off off parsed] at named
      cases named
    by_cases plain : isAscii signature = true
    · obtain ⟨text, digits, -⟩ := parseToken_eq_some.mp parsed
      rw [verify_compared off parsed plain] at named
      split at named
      · rename_i same
        cases read : int unicode expires with
        | error e => rw [read] at named; cases named
        | ok n =>
          rw [read] at named
          by_cases late : (n : Rat) < now
          · simp [Except.map, late] at named
          · obtain rfl : role' = role := by simpa [Except.map, late] using named
            exact ⟨expires, digits, off, same ▸ text, n, read, not_lt.mp late⟩
      · cases named
    · rw [verify_foreign off parsed (by simpa using plain)] at named
      cases named

theorem dot_not_mem_hexdigest (digest : List UInt8) : '.' ∉ (hexdigest digest).toList := by
  have digits : ∀ n < 16, hexDigit n ≠ '.' := by decide +kernel
  rw [hexdigest, String.toList_ofList, List.mem_flatMap]
  rintro ⟨byte, -, member⟩
  have high : byte.toNat / 16 < 16 := Nat.div_lt_of_lt_mul byte.toNat_lt
  rcases List.mem_pair.mp member with same | same
  · exact digits _ high same.symm
  · exact digits _ (Nat.mod_lt _ (by decide)) same.symm

/-- A text of a role, an expiry and a last part without dots falls into these. -/
theorem split_tokenOf {role : Role} {expires last : String} (dotless : '.' ∉ expires.toList) (plain : '.' ∉ last.toList) :
    split '.' (tokenOf role expires last) = [role.name, expires, last] := by
  have named : '.' ∉ role.name.toList := by cases role <;> decide
  exact split_three.mpr ⟨rfl, named, dotless, plain⟩

/-- Equal signatures have everything in common that is signed. -/
theorem signed_inj {crypto : Crypto} (free : CollisionFree crypto) {A B : Auth} {role role' : Role} {expires expires' : String}
    (dotless : '.' ∉ expires.toList) (dotless' : '.' ∉ expires'.toList)
    (same : sign crypto A role (payloadOf role expires) = sign crypto B role' (payloadOf role' expires')) :
    role = role' ∧ expires = expires' ∧ A.passwords role = B.passwords role' := by
  have message := encode_injective (free.hmac (b64_injective same)).2
  have parts := congrArg (split '.') message
  change split '.' (tokenOf role expires _) = split '.' (tokenOf role' expires' _) at parts
  rw [split_tokenOf dotless (dot_not_mem_hexdigest _), split_tokenOf dotless' (dot_not_mem_hexdigest _)] at parts
  simp only [List.cons.injEq, and_true] at parts
  obtain ⟨name, expiry, fingerprint⟩ := parts
  have role_eq : role = role' := by cases role <;> cases role' <;> first | rfl | exact absurd name (by decide)
  exact ⟨role_eq, expiry, encode_injective (free.sha256 (hexdigest_injective fingerprint))⟩

/-- The last part of a token. -/
def signatureOf (token : String) : Option String := (split '.' token).getLast?

theorem signatureOf_tokenOf {role : Role} {expires signature : String} (dotless : '.' ∉ expires.toList)
    (last : '.' ∉ signature.toList) : signatureOf (tokenOf role expires signature) = some signature := by
  rw [signatureOf, split_tokenOf dotless last]
  rfl

/-- What `issue` writes for a role that is on. -/
theorem issue_eq {crypto : Crypto} {auth : Auth} {role : Role} {now : Rat} {token : Option String}
    (issued : issue crypto auth role now = .ok token) (on : auth.passwords role ≠ "") :
    (expiryOf auth now).natAbs < 10 ^ maxStrDigits ∧
      token = some (tokenOf role (toString (expiryOf auth now))
        (sign crypto auth role (payloadOf role (toString (expiryOf auth now))))) := by
  by_cases long : 10 ^ maxStrDigits ≤ (expiryOf auth now).natAbs
  · rw [issue_long on long] at issued
    cases issued
  · rw [issue_on on long] at issued
    exact ⟨not_le.mp long, (Except.ok.inj issued).symm⟩

/-- An expiry that was written in digits is read as it was. -/
theorem expiry_of_int {unicode : CharTables} {expiry : Int} {n : Nat} (short : expiry.natAbs < 10 ^ maxStrDigits)
    (digits : isDigits unicode (toString expiry) = true) (read : int unicode (toString expiry) = .ok n) : expiry = n := by
  have nonneg : 0 ≤ expiry := of_decide_eq_true ((isDigits_toString expiry).symm.trans digits)
  obtain ⟨m, rfl⟩ := Int.eq_ofNat_of_zero_le nonneg
  have again : int unicode m.repr = .ok m := int_repr (by simpa using short)
  exact congrArg Nat.cast (Except.ok.inj (again.symm.trans read))

/-! ### Runs -/

/-- A login in a run whose reply set this cookie. -/
def Granted (platform : Platform) (start : Process) (before : List Event) (login : Request) (role : Role)
    (cookie : String) : Prop :=
  ∃ earlier later, before = earlier ++ .request login :: later ∧
    replyTo platform start earlier login = .loggedIn role cookie

/-- Signatures are only made by logins: who presents one that the running process would
    make has it from the cookie of an earlier reply, whatever that cookie was for. -/
def Unforged (platform : Platform) (start : Process) (events : List Event) : Prop :=
  ∀ before request later, events = before ++ .request request :: later → ∀ role expires,
    request.cookie = tokenOf role expires
      (sign platform.crypto (after platform start before).auth role (payloadOf role expires)) →
    ∃ login role' cookie, Granted platform start before login role' cookie ∧
      signatureOf cookie = signatureOf request.cookie

/-- A session that was earned: an earlier login typed the password that its role has now
    and was answered with this cookie, which has not expired. -/
def Earned (platform : Platform) (start : Process) (before : List Event) (request : Request) (role : Role) : Prop :=
  ∃ login, Granted platform start before login role request.cookie ∧
    login.password = some ((after platform start before).auth.passwords role) ∧
    request.now ≤ truncate (login.now + sessionTtl)

theorem dispatch_auth (process : Process) (request : Request) (role : Option Role) (endpoint : Endpoint) :
    (dispatch platform process request role endpoint).2.auth = process.auth := by
  cases endpoint
  case login =>
    simp only [dispatch]
    split <;> rfl
  case me => cases role <;> rfl
  case spaFallback =>
    simp only [dispatch]
    split <;> rfl
  all_goals rfl

/-- Passwords and secret are a process's own. -/
theorem respond_auth (process : Process) (request : Request) :
    (respond platform process request).2.auth = process.auth := by
  unfold respond
  split
  · rfl
  split
  · rfl
  split
  · rfl
  · exact dispatch_auth process request _ _

/-- Every process of a run takes its passwords from some settings. -/
theorem exists_environment {environment : Environment} (events : List Event) :
    ∃ current, (after platform (boot environment) events).auth = buildAuth current := by
  induction events using List.reverseRecOn with
  | nil => exact ⟨environment, rfl⟩
  | append_singleton events event ih =>
    obtain ⟨current, known⟩ := ih
    rw [after, List.foldl_append]
    cases event with
    | request request => exact ⟨current, (respond_auth _ request).trans known⟩
    | restart next => exact ⟨next, rfl⟩

/-- A session that the middleware accepts was earned. -/
theorem earned_of_verify (free : CollisionFree platform.crypto) {environment : Environment} {events before later : List Event}
    {request : Request} (unforged : Unforged platform (boot environment) events)
    (order : events = before ++ .request request :: later) {role : Role}
    (named : verify platform.tables.toCharTables platform.crypto (after platform (boot environment) before).auth
      request.cookie request.now = .ok (some role)) :
    Earned platform (boot environment) before request role := by
  obtain ⟨expires, digits, -, text, n, read, fresh⟩ := issued_of_verify named
  obtain ⟨login, role', cookie, granted, signature⟩ := unforged before request later order role expires text
  obtain ⟨earlier, rest, place, answered⟩ := granted
  -- what the earlier reply set is what `issue` wrote for the role of the password that was typed
  obtain ⟨password, typed, matched, token, issued, given⟩ := respond_loggedIn answered
  obtain ⟨own, on⟩ := password_of_checkPassword matched
  obtain ⟨short, rfl⟩ := issue_eq issued on
  rw [Option.getD_some] at given
  rw [text, given, signatureOf_tokenOf (dot_not_mem digits) (dot_not_mem_sign role _),
    signatureOf_tokenOf (dot_not_mem_toString _) (dot_not_mem_sign role' _), Option.some.injEq] at signature
  -- so the two signatures are of one role, one expiry and one password
  obtain ⟨rfl, rfl, same⟩ := signed_inj free (dot_not_mem_toString _) (dot_not_mem digits) signature
  rw [signature] at given
  obtain ⟨current, known⟩ := @exists_environment platform environment earlier
  have expiry := expiry_of_int short digits read
  rw [expiryOf, known] at expiry
  refine ⟨login, ⟨earlier, rest, place, ?_⟩, by rw [typed, own, same], ?_⟩
  · rw [text, ← given]
    exact answered
  · change request.now ≤ ((truncate (login.now + (buildAuth current).ttl) : Int) : Rat)
    rw [expiry]
    exact_mod_cast fresh

/-! ### Handlers -/

/-- The handlers that read or change what is the admin's. -/
def adminEndpoints : List Endpoint :=
  [.getSettings, .putSettings, .listProxies, .addProxy, .deleteProxy, .checkAll, .checkOne, .putOverride, .hiddenSummary,
    .hiddenServices, .hiddenMethods, .getLogs, .apiParseNow]

/-- What is not under `/api/`. -/
def pages : List Endpoint := [.swaggerRedirect, .assets, .spaFallback]

theorem adminOnly_of_endpoint : ∀ (built : Bool), ∀ route ∈ routes built, route.endpoint ∈ adminEndpoints →
    route.adminOnly = true := by decide

/-- The text that a route's path begins with. -/
def head (route : Route) : String :=
  match route.template with
  | .text text :: _ => text
  | _ => ""

theorem underApi_head : ∀ (built : Bool), ∀ route ∈ routes built, route.endpoint ∉ pages →
    underApi (head route) = true := by decide +kernel

/-- What a public path can be routed to. -/
theorem endpoint_of_public : ∀ (built : Bool), ∀ path ∈ publicApi, ∀ route ∈ routes built,
    fits route.template path.toList = true → route.endpoint ∈ [.login, .logout, .apiHealth, .spaFallback] := by
  decide +kernel

theorem head_of_fits {route : Route} {path : List Char} (fit : fits route.template path = true) :
    (head route).toList <+: path := by
  unfold head
  split
  · rename_i text template named
    rw [named] at fit
    exact prefix_of_fits fit
  · exact List.nil_prefix

/-- A request with this session is taken to a handler for one of these reasons only. -/
structure Admitted (platform : Platform) (start : Process) (before : List Event) (request : Request)
    (endpoint : Endpoint) (role : Option Role) : Prop where
  earned : ∀ named, role = some named → Earned platform start before request named
  admin : endpoint ∈ adminEndpoints → role = some .admin
  anyone : request.urlPath = request.path → role = none → endpoint ∈ .logout :: .apiHealth :: pages
  origin : request.urlPath = request.path → endpoint ∉ pages → request.method ∈ safeMethods ∨
    sameOrigin platform request = .ok true

theorem checkOrigin_ok (accepted : checkOrigin platform request = .ok ()) :
    request.method ∈ safeMethods ∨ sameOrigin platform request = .ok true := by
  unfold checkOrigin at accepted
  split at accepted
  · rename_i safe
    exact .inl safe
  · split at accepted
    · cases accepted
    · rename_i same compared
      split at accepted
      · rename_i equal
        exact .inr (equal ▸ compared)
      · cases accepted

/-- In every run of the site, restarts with other settings included, a handler is
    reached with a session only where that session's role logged in with the password
    it has now and the cookie of that login has not expired; the admin's handlers are
    reached with the admin's session only. Where the path that the middleware sees is
    the one that is routed, only logging out and the health check are anyone's under
    `/api/`, and no page of another origin writes. -/
theorem entered_admitted (platform : Platform) (free : CollisionFree platform.crypto) (environment : Environment)
    (events : List Event) (unforged : Unforged platform (boot environment) events) (before later : List Event)
    (request : Request) (order : events = before ++ .request request :: later) (endpoint : Endpoint) (role : Option Role)
    (entered : replyTo platform (boot environment) before request = .entered endpoint role) :
    Admitted platform (boot environment) before request endpoint role := by
  obtain ⟨passed, route, member, rfl, notLogin, fit, guard⟩ := respond_entered entered
  have routedUnder : route.endpoint ∉ pages → underApi request.path = true := by
    intro inside
    have api := underApi_head platform.built route member inside
    rw [underApi, List.isPrefixOf_iff_prefix] at api ⊢
    exact api.trans (head_of_fits fit)
  constructor
  case earned =>
    rintro named rfl
    rcases authMiddleware_passes passed with ⟨-, none⟩ | ⟨-, ⟨-, none⟩ | ⟨named', same, accepted⟩⟩
    · cases none
    · cases none
    · cases same
      exact earned_of_verify free unforged order accepted
  case admin => exact fun only => guard (adminOnly_of_endpoint platform.built route member only)
  case anyone =>
    rintro seen rfl
    by_contra closed
    rcases authMiddleware_passes passed with ⟨outside, -⟩ | ⟨-, ⟨listed, -⟩ | ⟨named, impossible, -⟩⟩
    · rw [seen, routedUnder (fun page => closed (by simp [page]))] at outside
      cases outside
    · have four := endpoint_of_public platform.built _ (seen ▸ listed) route member fit
      simp only [List.mem_cons, List.not_mem_nil, or_false] at four
      rcases four with login | rest | rest | rest
      · exact notLogin login
      all_goals exact closed (by rw [rest]; decide)
    · cases impossible
  case origin =>
    intro seen inside
    rcases authMiddleware_passes passed with ⟨outside, -⟩ | ⟨accepted, -⟩
    · rw [seen, routedUnder inside] at outside
      cases outside
    · exact checkOrigin_ok accepted

/-! ### A session that outlives a restart -/

def small : Platform := ⟨asciiTables, transparent, true⟩

def settings : Environment := ⟨"admin-password", "", "secret", []⟩

def typed : Request :=
  { method := "POST", path := "/api/auth/login", urlPath := "/api/auth/login", password := some "admin-password", now := 100 }

/-- The cookie that this login sets. -/
def adminCookie : String :=
  match replyTo small (boot settings) [] typed with
  | .loggedIn _ cookie => cookie
  | _ => ""

def change : Request :=
  { method := "PUT", path := "/api/settings", urlPath := "/api/settings", origin := some "https://monitor",
    host := "monitor", cookie := adminCookie, now := 200 }

def visit : List Event :=
  [.request typed, .restart { settings with teamPassword := "team-password" }, .request change]

theorem typed_loggedIn : replyTo small (boot settings) [] typed = .loggedIn .admin adminCookie := by decide +kernel

theorem visit_unforged : Unforged small (boot settings) visit := by
  intro before request later order role expires text
  match before with
  | [] =>
    -- the login itself has no cookie
    cases order
    have parts := congrArg String.toList text
    simp [typed, tokenOf] at parts
  | [_] => cases order
  | [_, _] =>
    cases order
    exact ⟨typed, .admin, adminCookie, ⟨[], _, rfl, typed_loggedIn⟩, by rw [change]⟩
  | _ :: _ :: _ :: _ => simp [visit] at order

theorem entered_admitted_change :
    Admitted small (boot settings) (visit.take 2) change .putSettings (some .admin) :=
  entered_admitted small transparent_collisionFree settings visit visit_unforged (visit.take 2) [] change rfl .putSettings
    (some .admin) (by decide +kernel)

end ScanApi.Admission
