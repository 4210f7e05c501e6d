import ScanApi.Requests

/-!
References that abort a snapshot. Reading a sibling file logs what a download, a
redirect and a parser report, and goes on with an empty document. Two things get
past it: a URL that cannot be joined or taken apart, before the file is asked
for, and a body that cannot be decoded with the charset of its header, or not be
parsed, for another reason than the logged ones. A reference that meets neither
is resolved, if only to an empty node (`resolveRef_returns_iff`).
-/
namespace ScanApi.BadReferences
open ScanApi.Raising ScanApi.Yaml ScanApi.Python ScanApi.Refs ScanApi.Requests ScanApi.Prog

variable {lib : Library} {s : Net} {site : Site} {url ref : String}

/-- What the code relies on of its libraries: a download raises what `requests`
    reports, a URL that is malformed is a ValueError, and so is a charset whose
    name cannot be looked up at all. -/
structure Reporting (lib : Library) : Prop where
  answer : ∀ requests e, lib.answer requests = .error e → e = .requestException
  failure : ∀ requests resp e, lib.answer requests = .ok resp → resp.failure = some e → e = .requestException
  urljoin : ∀ base url e, lib.urljoin base url = .error e → e = .valueError
  urlparse : ∀ url e, lib.urlparse url = .error e → e = .valueError
  codecsLookup : ∀ charset e, lib.codecsLookup charset = .error e → e = .lookupError ∨ e = .valueError

/-- A response whose body is read as far as the logged exceptions go: its charset
    decodes it, and it parses, or what is raised is logged. -/
structure Readable (lib : Library) (resp : Response) : Prop where
  decodes : ∀ charset e, charsetOf lib resp = .ok charset → lib.decode resp.chunks.flatten charset = .error e →
    isLogged e = true
  parses : ∀ charset text e, charsetOf lib resp = .ok charset → lib.decode resp.chunks.flatten charset = .ok text →
    load lib text = .error e → isLogged e = true

/-- What is made of a response. -/
def readResponse (lib : Library) (url : String) (resp : Response) : Except PyError Node := do
  raiseForStatus resp
  readChunks url resp.failure resp.chunks 0
  let charset ← charsetOf lib resp
  let text ← lib.decode resp.chunks.flatten charset
  let loaded ← load lib text
  return if isDict loaded then loaded else .map []

/-- Operations one after another raise what the first of them raises. -/
theorem py_bind {σ α β : Type} (x : Except PyError α) (f : α → Except PyError β) :
    (py (x >>= f) : Prog σ PyError β) = py x >>= fun a => py (f a) := by
  cases x with
  | error e => rfl
  | ok a => exact (pure_bind a (fun a => (py (f a) : Prog σ PyError β))).symm

theorem loadExternal_eq : loadExternal lib url = guardedGet lib url >>= fun resp => py (readResponse lib url resp) := by
  simp only [loadExternal, getCappedText, readResponse, py_bind, bind_assoc]
  rfl

/-! ### Downloads -/

theorem raiseForStatus_logged {resp : Response} {e : PyError} (raised : raiseForStatus resp = .error e) :
    isLogged e = true := by
  unfold raiseForStatus at raised
  split at raised
  · cases raised; rfl
  · cases raised

theorem readChunks_logged {failure : Option PyError} (reported : ∀ e, failure = some e → isLogged e = true)
    {e : PyError} : ∀ {chunks : List (List UInt8)} {size : Nat}, readChunks url failure chunks size = .error e →
      isLogged e = true := by
  intro chunks
  induction chunks with
  | nil =>
    intro size raised
    cases failure with
    | none => cases raised
    | some e' => cases raised; exact reported e rfl
  | cons chunk rest ih =>
    intro size raised
    rw [readChunks] at raised
    split at raised
    · cases raised; rfl
    · exact ih raised

theorem isSameOrigin_raises (reporting : Reporting lib) {specUrl : String} {e : PyError}
    (raised : isSameOrigin lib.toUrllib url specUrl = .error e) : e = .valueError := by
  rcases bind_error.mp raised with target | ⟨target, -, raised⟩
  · exact reporting.urlparse _ _ target
  · rcases bind_error.mp raised with base | ⟨base, -, raised⟩
    · exact reporting.urlparse _ _ base
    · cases raised

theorem redirectTarget_logged (reporting : Reporting lib) {currentUrl : String} {resp : Response} {e : PyError}
    (raised : redirectTarget lib url currentUrl resp = .error e) : isLogged e = true := by
  unfold redirectTarget at raised
  split at raised
  · cases raised
  · cases raised
  · rcases bind_error.mp raised with joined | ⟨nextUrl, -, raised⟩
    · rw [reporting.urljoin _ _ _ joined]; rfl
    · rcases bind_error.mp raised with checked | ⟨same, -, raised⟩
      · rw [isSameOrigin_raises reporting checked]; rfl
      · split at raised
        · cases raised
        · cases raised; rfl

theorem sessionGet_answer {outcome : Except PyError Response} {s' : Net}
    (ran : exec (sessionGet lib url) s = (outcome, s')) : lib.answer (s.requests ++ [url]) = outcome := by
  simpa [sessionGet, exec_bind] using congrArg Prod.fst ran

/-- What following redirects may come to: an answer of the server, a redirect that
    is refused, or one too many. -/
inductive FollowOutcome (lib : Library) (url : String) : Except PyError Response → Prop
  | answered {requests : List String} {outcome : Except PyError Response} (answer : lib.answer requests = outcome) :
      FollowOutcome lib url outcome
  | refused {currentUrl : String} {resp : Response} {e : PyError}
      (raised : redirectTarget lib url currentUrl resp = .error e) : FollowOutcome lib url (.error e)
  | tooMany (message : String) : FollowOutcome lib url (.error (.parserError message))

theorem follow_outcome : ∀ (room : Nat) (currentUrl : String) (s s' : Net) (outcome : Except PyError Response),
    exec (follow lib url room currentUrl) s = (outcome, s') → FollowOutcome lib url outcome := by
  intro room
  induction room with
  | zero =>
    intro currentUrl s s' outcome ran
    rw [follow, exec_bind] at ran
    rcases asked : exec (sessionGet lib currentUrl) s with ⟨e | resp, s₁⟩ <;> rw [asked] at ran
    · cases ran; exact .answered (sessionGet_answer asked)
    · dsimp only at ran
      split at ran
      · cases ran; exact .answered (sessionGet_answer asked)
      · cases ran; exact .tooMany _
  | succ room ih =>
    intro currentUrl s s' outcome ran
    rw [follow, exec_bind] at ran
    rcases asked : exec (sessionGet lib currentUrl) s with ⟨e | resp, s₁⟩ <;> rw [asked] at ran
    · cases ran; exact .answered (sessionGet_answer asked)
    · dsimp only at ran
      split at ran
      · cases ran; exact .answered (sessionGet_answer asked)
      · rw [exec_bind, exec_py] at ran
        cases target : redirectTarget lib url currentUrl resp with
        | error e => rw [target] at ran; cases ran; exact .refused target
        | ok next =>
          rw [target] at ran
          cases next with
          | none => cases ran; exact .answered (sessionGet_answer asked)
          | some nextUrl => exact ih nextUrl s₁ s' outcome ran

/-- Redirects raise what is logged only. -/
theorem follow_logged (reporting : Reporting lib) {room : Nat} {currentUrl : String} {s s' : Net} {e : PyError}
    (raised : exec (follow lib url room currentUrl) s = (.error e, s')) : isLogged e = true := by
  cases follow_outcome room currentUrl s s' _ raised with
  | answered answer => rw [reporting.answer _ _ answer]; rfl
  | refused target => exact redirectTarget_logged reporting target
  | tooMany message => rfl

/-- A response that is returned is an answer of the server. -/
theorem follow_answer {room : Nat} {currentUrl : String} {s s' : Net} {resp : Response}
    (returned : exec (follow lib url room currentUrl) s = (.ok resp, s')) :
    ∃ requests, lib.answer requests = .ok resp := by
  cases follow_outcome room currentUrl s s' _ returned with
  | answered answer => exact ⟨_, answer⟩

/-! ### Bodies -/

/-- A charset that does not exist is passed over. -/
theorem firstCharset_logged (reporting : Reporting lib) {e : PyError} : ∀ {params : List (List Char)},
    firstCharset lib params = .error e → isLogged e = true := by
  intro params
  induction params with
  | nil => intro raised; cases raised
  | cons param rest ih =>
    intro raised
    rw [firstCharset] at raised
    split at raised
    · exact ih raised
    · rename_i charset _
      cases looked : lib.codecsLookup charset with
      | ok _ => rw [looked] at raised; cases raised
      | error cause =>
        rcases reporting.codecsLookup _ _ looked with rfl | rfl
        · rw [looked] at raised
          exact ih raised
        · rw [looked] at raised
          cases raised; rfl

/-- The body of the response is there: it is no error page and was read to its end. -/
def Complete (url : String) (resp : Response) : Prop :=
  raiseForStatus resp = .ok () ∧ readChunks url resp.failure resp.chunks 0 = .ok ()

/-- Only the body of a complete response may raise what is not logged. -/
theorem readResponse_logged_iff (reporting : Reporting lib) {resp : Response}
    (reported : ∀ e, resp.failure = some e → e = .requestException) :
    (∀ e, readResponse lib url resp = .error e → isLogged e = true) ↔ (Complete url resp → Readable lib resp) := by
  constructor
  · rintro logged ⟨status, body⟩
    constructor
    · intro charset e chosen raised
      refine logged e ?_
      rw [readResponse, status, ok_bind, body, ok_bind, chosen, ok_bind, raised]
      rfl
    · intro charset text e chosen decoded raised
      refine logged e ?_
      rw [readResponse, status, ok_bind, body, ok_bind, chosen, ok_bind, decoded, ok_bind, raised]
      rfl
  · intro readable e raised
    rcases bind_error.mp raised with status | ⟨_, status, raised⟩
    · exact raiseForStatus_logged status
    · rcases bind_error.mp raised with body | ⟨_, body, raised⟩
      · exact readChunks_logged (fun e' failed => by rw [reported e' failed]; rfl) body
      · have fits := readable ⟨status, body⟩
        rcases bind_error.mp raised with chosen | ⟨charset, chosen, raised⟩
        · exact firstCharset_logged reporting chosen
        · rcases bind_error.mp raised with decoded | ⟨text, decoded, raised⟩
          · exact fits.decodes charset e chosen decoded
          · rcases bind_error.mp raised with parsed | ⟨loaded, -, raised⟩
            · exact fits.parses charset text e chosen decoded parsed
            · cases raised

/-- Loading a file raises nothing but what is logged where the response that it
    gets, if any, is readable. -/
theorem loadExternal_logged_iff (reporting : Reporting lib) :
    (∀ e s', exec (loadExternal lib url) s = (.error e, s') → isLogged e = true) ↔
      ∀ resp s', exec (guardedGet lib url) s = (.ok resp, s') → Complete url resp → Readable lib resp := by
  rw [loadExternal_eq]
  rcases ran : exec (guardedGet lib url) s with ⟨e | resp, s₁⟩
  · have logged := follow_logged reporting ran
    have outcome : exec (guardedGet lib url >>= fun resp => py (readResponse lib url resp)) s = (.error e, s₁) := by
      rw [exec_bind, ran]
    constructor
    · intro _ resp s' returned
      cases returned
    · intro _ e' s' raised
      cases outcome.symm.trans raised
      exact logged
  · obtain ⟨requests, answered⟩ := follow_answer ran
    have read : (∀ e, readResponse lib url resp = .error e → isLogged e = true) ↔ (Complete url resp → Readable lib resp) :=
      readResponse_logged_iff reporting (reporting.failure requests resp · answered)
    have outcome : exec (guardedGet lib url >>= fun resp => py (readResponse lib url resp)) s =
        (readResponse lib url resp, s₁) := by
      rw [exec_bind, ran]
      exact exec_py _ _
    rw [outcome]
    constructor
    · intro logged resp' s' same
      cases same
      exact read.mp (fun e raised => logged e s₁ (by rw [raised]))
    · intro readable e s' raised
      exact read.mpr (readable resp s₁ rfl) e (congrArg Prod.fst raised)

/-! ### References -/

/-- A body of the file at a URL that the server gives in full is readable, unless
    the file was read before. -/
def FileReadable (lib : Library) (url : String) (s : Net) : Prop :=
  s.cache.get? url = none → ∀ resp s', exec (guardedGet lib url) s = (.ok resp, s') → Complete url resp →
    Readable lib resp

theorem fetchExternalSpec_returns_iff (reporting : Reporting lib) :
    (∃ spec s', exec (fetchExternalSpec lib url) s = (.ok spec, s')) ↔ FileReadable lib url s := by
  rw [fetchExternalSpec, exec_bind, exec_get, FileReadable]
  dsimp only
  cases cached : s.cache.get? url with
  | some spec => simp
  | none =>
    rw [← loadExternal_logged_iff reporting, exec_bind, exec_tryCatch]
    rcases ran : exec (loadExternal lib url) s with ⟨e | spec, s₁⟩
    · dsimp only
      by_cases logged : isLogged e = true
      · rw [if_pos logged]
        refine ⟨fun _ _ e' s' same => ?_, fun _ => ⟨_, _, rfl⟩⟩
        cases same
        exact logged
      · rw [if_neg logged]
        refine ⟨fun ⟨_, _, impossible⟩ => ?_, fun handled => absurd (handled rfl e s₁ rfl) logged⟩
        cases impossible
    · refine ⟨fun _ _ e s' impossible => ?_, fun _ => ⟨_, _, rfl⟩⟩
      cases impossible

/-- A reference that has not been seen yet, into a file named by it. -/
structure External (ref : String) (site : Site) (specUrl : String) : Prop where
  given : ref ≠ ""
  unseen : ref ∉ site.seen
  elsewhere : ¬ "#/".toList.isPrefixOf ref.toList = true
  file : (partitionHash ref).1 ≠ ""
  known : site.specUrl = some specUrl
  url : specUrl ≠ ""

/-- The URLs can be joined and taken apart, and a file on the same host is readable. -/
structure Followable (lib : Library) (ref specUrl : String) (s : Net) (url : String) (sibling : Bool) : Prop where
  joined : lib.urljoin specUrl (partitionHash ref).1 = .ok url
  checked : isSameOrigin lib.toUrllib url specUrl = .ok sibling
  readable : sibling = true → FileReadable lib url s

theorem resolveExternal_returns_iff (reporting : Reporting lib) {specUrl : String} (file : (partitionHash ref).1 ≠ "")
    (known : site.specUrl = some specUrl) (nonempty : specUrl ≠ "") :
    (∃ target s', exec (resolveExternal (documents lib) ref site) s = (.ok target, s')) ↔
      ∃ url sibling, Followable lib ref specUrl s url sibling := by
  unfold resolveExternal
  simp only [file, if_false]
  split
  · rename_i missing
    cases known.symm.trans missing
  · rename_i empty
    exact absurd (Option.some.inj (known.symm.trans empty)) nonempty
  · rename_i specUrl' _ same
    obtain rfl := Option.some.inj (known.symm.trans same)
    constructor
    · rintro ⟨target, s', returned⟩
      obtain ⟨url, s₁, first, returned⟩ := exec_bind_ok.mp returned
      obtain ⟨sibling, s₂, second, returned⟩ := exec_bind_ok.mp returned
      rw [exec_py] at first second
      obtain ⟨joined, rfl⟩ := Prod.mk.inj first
      obtain ⟨checked, rfl⟩ := Prod.mk.inj second
      refine ⟨url, sibling, joined, checked, fun same => ?_⟩
      subst same
      obtain ⟨spec, s₃, fetched, -⟩ := exec_bind_ok.mp returned
      exact (fetchExternalSpec_returns_iff reporting).mp ⟨spec, s₃, fetched⟩
    · rintro ⟨url, sibling, joined, checked, readable⟩
      have first : (documents lib).urljoin specUrl (partitionHash ref).1 = .ok url := joined
      have second : isSameOrigin (documents lib).toUrllib url specUrl = .ok sibling := checked
      simp only [exec_bind, exec_py, first, second]
      cases sibling with
      | false => exact ⟨_, _, rfl⟩
      | true =>
        obtain ⟨spec, s', fetched⟩ := (fetchExternalSpec_returns_iff reporting).mpr (readable rfl)
        have third : exec ((documents lib).fetchExternalSpec url) s = (.ok spec, s') := fetched
        simp only [Bool.not_true, Bool.false_eq_true, if_false, exec_bind, third]
        split
        · exact ⟨_, _, rfl⟩
        · exact ⟨_, _, rfl⟩

/-- A reference that names no file, or stands in a document without a URL, leads nowhere. -/
theorem resolveExternal_stays {site : Site}
    (nowhere : ∀ specUrl, (partitionHash ref).1 ≠ "" → site.specUrl = some specUrl → specUrl = "") :
    resolveExternal (documents lib) ref site = pure site.unresolved := by
  unfold resolveExternal
  by_cases file : (partitionHash ref).1 = ""
  · simp [file]
  · simp only [file, if_false]
    split
    · rfl
    · rfl
    · rename_i specUrl nonempty same
      exact absurd (nowhere specUrl file same) nonempty

/-- A reference is resolved, if only to an empty node, exactly where it leads into
    no other file, or its URLs can be joined and taken apart and the file is on
    another host, known or readable. -/
theorem resolveRef_returns_iff (reporting : Reporting lib) (ref : String) (site : Site) (s : Net) :
    (∃ target s', exec (resolveRef (documents lib) (.scalar (.str ref)) site) s = (.ok target, s')) ↔
      ∀ specUrl, External ref site specUrl → ∃ url sibling, Followable lib ref specUrl s url sibling := by
  have read : refText (.scalar (.str ref)) = .ok ref := rfl
  by_cases given : ref = ""
  · subst given
    exact ⟨fun _ specUrl external => absurd rfl external.given, fun _ => ⟨_, _, rfl⟩⟩
  have truthy : (Node.scalar (.str ref)).truthy = true := by simpa [Node.truthy, Scalar.truthy] using given
  simp only [resolveRef, truthy, read, py_ok, pure_bind, Bool.not_true, Bool.false_eq_true, if_false]
  by_cases known : ref ∈ site.seen
  · rw [if_pos known]
    exact ⟨fun _ specUrl external => absurd known external.unseen, fun _ => ⟨_, _, rfl⟩⟩
  rw [if_neg known]
  by_cases here : "#/".toList.isPrefixOf ref.toList = true
  · rw [if_pos here]
    exact ⟨fun _ specUrl external => absurd here external.elsewhere, fun _ => ⟨_, _, rfl⟩⟩
  rw [if_neg here]
  by_cases leads : ∃ specUrl, External ref site specUrl
  · obtain ⟨specUrl, external⟩ := leads
    have branch : ({ site with seen := insert ref site.seen } : Site).specUrl = some specUrl := external.known
    rw [resolveExternal_returns_iff reporting external.file branch external.url]
    constructor
    · intro followable specUrl' external'
      obtain rfl := Option.some.inj (external.known.symm.trans external'.known)
      exact followable
    · intro followable
      exact followable specUrl external
  · have stays : resolveExternal (documents lib) ref { site with seen := insert ref site.seen } =
        pure (Site.unresolved { site with seen := insert ref site.seen }) :=
      resolveExternal_stays (fun specUrl file same => by_contra (fun nonempty =>
        leads ⟨specUrl, given, known, here, file, same, nonempty⟩))
    rw [stays]
    exact ⟨fun _ specUrl external => absurd ⟨specUrl, external⟩ leads, fun _ => ⟨_, _, rfl⟩⟩

/-- A portal that sends one JSON file, under any header. -/
def filePortal (contentType : String) : Library where
  urljoin _ file := if file = "http://[bank/common.json" then .error .valueError else .ok ("https://bank/" ++ file)
  urlparse _ := .ok ⟨"https", "bank"⟩
  text := { lower := id, isdigit := Char.isDigit, isspace := Char.isWhitespace, str := fun _ => "" }
  answer _ := .ok { status := 200, contentType := some contentType, chunks := [[123, 125]] }
  codecsLookup charset := if charset = "utf-8" ∨ charset = "hex" then .ok () else .error .lookupError
  decode _ charset := if charset = "hex" then .error .lookupError else .ok "{}"
  jsonLoads _ := .ok (.map [])
  yamlSafeLoad _ := .ok pyNone

def specSite : Site where
  schema := .map []
  spec := .map []
  specUrl := some "https://bank/spec.json"

theorem reporting_filePortal (contentType : String) : Reporting (filePortal contentType) where
  answer _ _ raised := by cases raised
  failure _ _ _ answered failed := by cases answered; cases failed
  urljoin _ file e raised := by
    simp only [filePortal] at raised
    split at raised
    · cases raised; rfl
    · cases raised
  urlparse _ _ raised := by cases raised
  codecsLookup charset e raised := by
    simp only [filePortal] at raised
    split at raised
    · cases raised
    · cases raised; exact .inl rfl

theorem resolveRef_returns_iff_filePortal : ∃ url sibling,
    Followable (filePortal "application/json; charset=utf-8") "common.json#/A" "https://bank/spec.json" {} url sibling := by
  have external : External "common.json#/A" specSite "https://bank/spec.json" :=
    ⟨by decide, by decide, by decide, by decide, rfl, by decide⟩
  exact (resolveRef_returns_iff (reporting_filePortal _) "common.json#/A" specSite {}).mp ⟨_, _, rfl⟩ _ external

/-- A header that names a codec for bytes, and a host in an open bracket. -/
theorem bad_references_raise :
    (∃ s', exec (resolveRef (documents (filePortal "application/json; charset=hex")) (.scalar (.str "common.json#/A"))
      specSite) {} = (.error .lookupError, s')) ∧
    ∃ s', exec (resolveRef (documents (filePortal "application/json")) (.scalar (.str "http://[bank/common.json#/A"))
      specSite) {} = (.error .valueError, s') :=
  ⟨⟨_, rfl⟩, ⟨_, rfl⟩⟩

end ScanApi.BadReferences
