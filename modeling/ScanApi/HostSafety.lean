import ScanApi.Replay
import ScanApi.Requests

/-!
Requests never leave the host. A redirect is checked against the URL that was
asked for, a reference against the URL of the document it stands in, and both
checks keep the network location of the start (`SameHost` is transitive), so
whatever servers answer and documents hold, every request on the way is on the
host of the start (`guardedGet_sameHost`, `requests_stay_on_host`).
-/
namespace ScanApi.HostSafety
open ScanApi.Raising ScanApi.Yaml ScanApi.Python ScanApi.Refs ScanApi.Requests ScanApi.Prog ScanApi.Replay

variable {lib : Library}

/-- A URL over http(s) with the network location of another. -/
def SameHost (lib : Library) (base url : String) : Prop :=
  ∃ target home, lib.urlparse url = .ok target ∧ lib.urlparse base = .ok home ∧
    (target.scheme = "http" ∨ target.scheme = "https") ∧ target.netloc = home.netloc

theorem isSameOrigin_true {url base : String} : isSameOrigin lib.toUrllib url base = .ok true ↔ SameHost lib base url := by
  simp only [isSameOrigin, bind_ok, pure_ok, decide_eq_true_eq]
  constructor
  · rintro ⟨target, parsed, home, parsed', scheme, same⟩; exact ⟨target, home, parsed, parsed', scheme, same⟩
  · rintro ⟨target, home, parsed, parsed', scheme, same⟩; exact ⟨target, parsed, home, parsed', scheme, same⟩

theorem sameHost_trans {base mid url : String} (first : SameHost lib base mid) (second : SameHost lib mid url) :
    SameHost lib base url := by
  obtain ⟨mid', home, parsed, base', _, same⟩ := first
  obtain ⟨target, mid'', url', parsed', scheme, same'⟩ := second
  obtain rfl := Except.ok.inj (parsed.symm.trans parsed')
  exact ⟨target, home, url', base', scheme, same'.trans same⟩

/-! ### Redirects -/

@[simp] theorem sessionGet_state (url : String) (s : Net) :
    (exec (sessionGet lib url) s).2 = { s with requests := s.requests ++ [url] } := by
  simp [sessionGet, exec_bind]

/-- A redirect that is followed stays on the host. -/
theorem redirectTarget_sameHost {url currentUrl nextUrl : String} {resp : Response}
    (found : redirectTarget lib url currentUrl resp = .ok (some nextUrl)) : SameHost lib url nextUrl := by
  unfold redirectTarget at found
  split at found
  · cases found
  · cases found
  · obtain ⟨joined, _, found⟩ := bind_ok.mp found
    obtain ⟨same, checked, found⟩ := bind_ok.mp found
    cases same with
    | true =>
      obtain rfl := Option.some.inj (pure_ok.mp found)
      exact isSameOrigin_true.mp checked
    | false => cases found

/-- At most `room` requests follow the first, all on the host of `url`, and
    nothing else changes. -/
theorem follow_requests {url : String} : ∀ (room : Nat) (currentUrl : String) (s : Net),
    ∃ later, (exec (follow lib url room currentUrl) s).2 = { s with requests := s.requests ++ currentUrl :: later } ∧
      later.length ≤ room ∧ ∀ u ∈ later, SameHost lib url u := by
  intro room
  induction room with
  | zero =>
    intro currentUrl s
    refine ⟨[], ?_, by simp, by simp⟩
    have asked := @sessionGet_state lib currentUrl s
    rw [follow, exec_bind]
    rcases ran : exec (sessionGet lib currentUrl) s with ⟨_ | resp, s'⟩ <;> rw [ran] at asked
    · exact asked
    · dsimp only
      split <;> exact asked
  | succ room ih =>
    intro currentUrl s
    have asked := @sessionGet_state lib currentUrl s
    rw [follow, exec_bind]
    rcases ran : exec (sessionGet lib currentUrl) s with ⟨_ | resp, s'⟩ <;> rw [ran] at asked
    · exact ⟨[], asked, by simp, by simp⟩
    · dsimp only
      split
      · exact ⟨[], asked, by simp, by simp⟩
      · rw [exec_bind, exec_py]
        cases target : redirectTarget lib url currentUrl resp with
        | error e => exact ⟨[], asked, by simp, by simp⟩
        | ok next =>
          cases next with
          | none => exact ⟨[], asked, by simp, by simp⟩
          | some nextUrl =>
            obtain ⟨later, made, short, inside⟩ := ih nextUrl s'
            refine ⟨nextUrl :: later, ?_, Nat.succ_le_succ short, ?_⟩
            · dsimp only at made asked ⊢
              rw [made, asked, List.append_assoc, List.singleton_append]
            · intro u member
              rcases List.mem_cons.mp member with rfl | old
              · exact redirectTarget_sameHost target
              · exact inside u old

/-! ### Sibling files -/

/-- A state that may only append requests on the host of `base`. -/
structure Visits (lib : Library) (base : String) where
  net : Net

instance (base : String) : Preorder (Visits lib base) where
  le v w := ∃ later, w.net = { v.net with requests := v.net.requests ++ later } ∧ ∀ u ∈ later, SameHost lib base u
  le_refl v := ⟨[], by simp, by simp⟩
  le_trans v w x first second := by
    obtain ⟨later, made, inside⟩ := first
    obtain ⟨later', made', inside'⟩ := second
    refine ⟨later ++ later', by rw [made', made, List.append_assoc], fun u member => ?_⟩
    exact (List.mem_append.mp member).elim (inside u) (inside' u)

/-- A state that may also learn files, and forgets none. -/
structure Progress (lib : Library) (base : String) where
  net : Net

instance (base : String) : Preorder (Progress lib base) where
  le v w := (∃ later, w.net.requests = v.net.requests ++ later ∧ ∀ u ∈ later, SameHost lib base u) ∧
    ∀ url spec, v.net.cache.get? url = some spec → w.net.cache.get? url = some spec
  le_refl v := ⟨⟨[], by simp, by simp⟩, fun _ _ => id⟩
  le_trans v w x first second := by
    obtain ⟨⟨later, made, inside⟩, known⟩ := first
    obtain ⟨⟨later', made', inside'⟩, known'⟩ := second
    refine ⟨⟨later ++ later', by rw [made', made, List.append_assoc], fun u member => ?_⟩, fun url spec read => ?_⟩
    · exact (List.mem_append.mp member).elim (inside u) (inside' u)
    · exact known' url spec (known url spec read)

/-- The files that are read, on record. -/
def record (lib : Library) (base : String) : Log Net (Progress lib base) (String → Except PyError Node) where
  view s := ⟨s⟩
  Fits v files := ∀ url spec, v.net.cache.get? url = some spec → files url = .ok spec
  earlier later fits url spec read := fits url spec (later.2 url spec read)

/-- Sibling files that lie ready. -/
def siblings (lib : Library) (files : String → Except PyError Node) : Documents (Except PyError) :=
  { lib.toUrllib with fetchExternalSpec := files }

/-- A document at the start or on its host. -/
def AtHost (lib : Library) (base : String) (site : Site) : Prop :=
  ∀ url, site.specUrl = some url → url = base ∨ SameHost lib base url

variable {base : String}

theorem sameHost_of_atHost {site : Site} {specUrl url : String} (here : AtHost lib base site)
    (known : site.specUrl = some specUrl) (sibling : SameHost lib specUrl url) : SameHost lib base url := by
  rcases here specUrl known with rfl | inside
  · exact sibling
  · exact sameHost_trans inside sibling

theorem recorded_py {α : Type} (x : Except PyError α) :
    Recorded (record lib base) (fun a => x = .ok a) (py x : Prog Net PyError α) (fun _ => (py x : Except PyError α)) := by
  intro s
  rw [exec_py]
  exact ⟨le_rfl, fun a returned => ⟨returned, fun _ _ => by rw [py_except]; exact returned⟩⟩

theorem guardedGet_grows {url : String} (inside : SameHost lib base url) :
    Grows (Visits.mk : Net → Visits lib base) (guardedGet lib url) := by
  intro s
  obtain ⟨later, made, _, others⟩ := @follow_requests lib url maxRedirectHops url s
  refine ⟨url :: later, made, fun u member => ?_⟩
  rcases List.mem_cons.mp member with rfl | old
  · exact inside
  · exact sameHost_trans inside (others u old)

theorem grows_py {α : Type} (x : Except PyError α) :
    Grows (Visits.mk : Net → Visits lib base) (py x : Prog Net PyError α) := by
  intro s
  rw [exec_py]

theorem loadExternal_grows {url : String} (inside : SameHost lib base url) :
    Grows (Visits.mk : Net → Visits lib base) (loadExternal lib url) := by
  have text : Grows (Visits.mk : Net → Visits lib base) (getCappedText lib url) := by
    refine grows_bind (guardedGet_grows inside) (fun resp => grows_bind (grows_py _) (fun _ => ?_))
    exact grows_bind (grows_py _) (fun _ => grows_bind (grows_py _) (fun _ => grows_py _))
  exact grows_bind text (fun _ => grows_bind (grows_py _) (fun _ => grows_pure _))

/-- A file is asked for on the host once, and what it was read as is on record. -/
theorem fetchExternalSpec_recorded {url : String} (inside : SameHost lib base url) :
    Recorded (record lib base) (fun _ => True) (fetchExternalSpec lib url) (fun files => files url) := by
  intro s
  rw [fetchExternalSpec, exec_bind, exec_get]
  dsimp only
  cases cached : s.cache.get? url with
  | some spec =>
    refine ⟨le_rfl, fun a same => ⟨trivial, fun files fits => ?_⟩⟩
    rw [fits url spec cached]
    exact same
  | none =>
    have loaded : Grows (Visits.mk : Net → Visits lib base)
        (tryCatch (loadExternal lib url) (fun e => if isLogged e then pure (.map []) else throw e)) := by
      refine grows_tryCatch (loadExternal_grows inside) (fun e => ?_)
      split
      · exact grows_pure _
      · exact grows_throw _
    obtain ⟨later, made, asked⟩ := loaded s
    rw [exec_bind]
    rcases ran : exec (tryCatch (loadExternal lib url) (fun e => if isLogged e then pure (.map []) else throw e)) s with
      ⟨e | spec, s'⟩ <;> (rw [ran] at made; dsimp only at made; obtain rfl := made)
    · exact ⟨⟨⟨later, rfl, asked⟩, fun _ _ => id⟩, fun a impossible => nomatch impossible⟩
    · refine ⟨⟨⟨later, rfl, asked⟩, fun url' spec' read => ?_⟩, fun a same => ⟨trivial, fun files fits => ?_⟩⟩
      · -- The file was not on record before.
        have known : s.cache.get? url' = some spec' := read
        have other : url' ≠ url := by rintro rfl; rw [cached] at known; cases known
        exact (Dict.get?_set _ _ _ _).trans ((if_neg other).trans known)
      · rw [fits url spec ((Dict.get?_set _ _ _ _).trans (if_pos rfl))]
        exact same

/-! ### References -/

theorem resolveExternal_recorded {ref : String} {site : Site} (here : AtHost lib base site) :
    Recorded (record lib base) (AtHost lib base) (resolveExternal (documents lib) ref site)
      (fun files => resolveExternal (siblings lib files) ref site) := by
  have unresolved : Recorded (record lib base) (AtHost lib base) (pure site.unresolved : Prog Net PyError Site)
      (fun _ => (pure site.unresolved : Except PyError Site)) := recorded_pure here
  simp only [resolveExternal]
  refine recorded_ite (fun _ => unresolved) (fun _ => ?_)
  split
  · exact unresolved
  · exact unresolved
  · rename_i specUrl _ known
    refine recorded_bind (recorded_py _) (fun externalUrl _ => recorded_bind (recorded_py _) (fun sibling checked => ?_))
    cases sibling with
    | false => exact unresolved
    | true =>
      have inside := sameHost_of_atHost here known (isSameOrigin_true.mp checked)
      refine recorded_bind (fetchExternalSpec_recorded inside) (fun externalSpec _ => ?_)
      refine recorded_ite (fun _ => unresolved) (fun _ => recorded_pure (fun url there => .inr ?_))
      obtain rfl := Option.some.inj there
      exact inside

/-- Resolving a reference asks only the host, and leads to a document on it. -/
theorem resolveRef_recorded {ref : Node} {site : Site} (here : AtHost lib base site) :
    Recorded (record lib base) (AtHost lib base) (resolveRef (documents lib) ref site)
      (fun files => resolveRef (siblings lib files) ref site) := by
  simp only [resolveRef]
  refine recorded_ite (fun _ => recorded_pure here) (fun _ => recorded_bind (recorded_py _) (fun text _ => ?_))
  refine recorded_ite (fun _ => recorded_pure here) (fun _ => ?_)
  exact recorded_ite (fun _ => recorded_pure here) (fun _ => resolveExternal_recorded here)

/-- Each reference resolved in the document that the one before led to. -/
def followRefs (docs : Documents (Prog Net PyError)) : List Node → Site → Prog Net PyError Site
  | [], site => return site
  | ref :: rest, site => do
    let target ← resolveRef docs ref site
    followRefs docs rest target

theorem followRefs_stays : ∀ {refs : List Node} {site : Site}, AtHost lib base site →
    GrowsTo (record lib base).view (AtHost lib base) (followRefs (documents lib) refs site) := by
  intro refs
  induction refs with
  | nil => intro site here; exact growsTo_pure here
  | cons ref rest ih =>
    intro site here
    exact growsTo_bind (growsTo_of_recorded (resolveRef_recorded here)) (fun target there => ih there)

/-! ### What is refused -/

theorem redirectTarget_refuses {url currentUrl location nextUrl : String} {resp : Response}
    (named : resp.location = some location) (nonempty : location ≠ "")
    (joined : lib.urljoin currentUrl location = .ok nextUrl) (foreign : ¬ SameHost lib url nextUrl) :
    ∃ e, redirectTarget lib url currentUrl resp = .error e := by
  cases found : redirectTarget lib url currentUrl resp with
  | error e => exact ⟨e, rfl⟩
  | ok next =>
    exfalso
    unfold redirectTarget at found
    rw [named] at found
    split at found
    · contradiction
    · rename_i empty
      exact nonempty (Option.some.inj empty)
    · rename_i same
      obtain rfl := Option.some.inj same
      obtain ⟨joined', ran, found⟩ := bind_ok.mp found
      obtain rfl := Except.ok.inj (joined.symm.trans ran)
      obtain ⟨sameOrigin, checked, found⟩ := bind_ok.mp found
      cases sameOrigin with
      | true => exact foreign (isSameOrigin_true.mp checked)
      | false => cases found

/-- A redirect elsewhere raises, and nothing is asked after the answer that named it. -/
theorem follow_refuses {url currentUrl location nextUrl : String} {s : Net} {resp : Response}
    (answered : lib.answer (s.requests ++ [currentUrl]) = .ok resp) (redirected : resp.status ∈ redirectStatusCodes)
    (named : resp.location = some location) (nonempty : location ≠ "")
    (joined : lib.urljoin currentUrl location = .ok nextUrl) (foreign : ¬ SameHost lib url nextUrl) (room : Nat) :
    ∃ e, exec (follow lib url room currentUrl) s = (.error e, { s with requests := s.requests ++ [currentUrl] }) := by
  have asked : exec (sessionGet lib currentUrl) s = (.ok resp, { s with requests := s.requests ++ [currentUrl] }) := by
    simp [sessionGet, exec_bind, answered]
  obtain ⟨e, refused⟩ := redirectTarget_refuses named nonempty joined foreign
  cases room with
  | zero =>
    rw [follow, exec_bind, asked]
    simp [redirected]
  | succ room =>
    rw [follow, exec_bind, asked]
    simp [redirected, exec_bind, refused]

/-- An empty node or an exception, with nothing asked. -/
def Refused (x : Prog Net PyError Site) (s : Net) : Prop :=
  ∃ result, exec x s = (result, s) ∧ ∀ target, result = .ok target → target.schema = .map []

theorem refused_unresolved (site : Site) (s : Net) : Refused (pure site.unresolved) s := by
  refine ⟨_, rfl, fun target same => ?_⟩
  obtain rfl := Except.ok.inj same
  rfl

theorem resolveExternal_refuses {ref specUrl externalUrl : String} {site : Site} {s : Net}
    (known : site.specUrl = some specUrl) (joined : lib.urljoin specUrl (partitionHash ref).1 = .ok externalUrl)
    (foreign : ¬ SameHost lib specUrl externalUrl) : Refused (resolveExternal (documents lib) ref site) s := by
  simp only [resolveExternal, known]
  split
  · exact refused_unresolved site s
  · split
    · exact refused_unresolved site s
    · exact refused_unresolved site s
    · rename_i _ same
      obtain rfl := Option.some.inj same
      have asked : exec (py ((documents lib).urljoin specUrl (partitionHash ref).1) : Prog Net PyError String) s =
          (.ok externalUrl, s) := by
        rw [exec_py]
        exact congrArg (·, s) joined
      rw [Refused, exec_bind, asked]
      dsimp only
      rw [exec_bind, exec_py]
      cases checked : isSameOrigin (documents lib).toUrllib externalUrl specUrl with
      | error e => exact ⟨.error e, rfl, fun target impossible => nomatch impossible⟩
      | ok sibling =>
        cases sibling with
        | true => exact absurd (isSameOrigin_true.mp checked) foreign
        | false => exact refused_unresolved site s

/-- A reference elsewhere raises or gives an empty node, and nothing is asked. -/
theorem resolveRef_refuses {ref specUrl externalUrl : String} {site : Site} {s : Net}
    (external : "#/".toList.isPrefixOf ref.toList = false) (known : site.specUrl = some specUrl)
    (joined : lib.urljoin specUrl (partitionHash ref).1 = .ok externalUrl) (foreign : ¬ SameHost lib specUrl externalUrl) :
    Refused (resolveRef (documents lib) (.scalar (.str ref)) site) s := by
  simp only [resolveRef, refText, py_ok, pure_bind, external]
  split
  · exact refused_unresolved site s
  · split
    · exact refused_unresolved site s
    · exact resolveExternal_refuses known joined foreign

/-- Whatever servers answer and documents hold: a request follows redirects to its
    own host only and makes at most six requests, a chain of references asks the
    host of the spec only, and any other target is refused before it is asked. -/
theorem requests_stay_on_host (lib : Library) :
    (∀ url s, ∃ later, (exec (guardedGet lib url) s).2.requests = s.requests ++ url :: later ∧
      (url :: later).length ≤ 6 ∧ ∀ u ∈ later, SameHost lib url u) ∧
    (∀ specUrl refs site s, site.specUrl = some specUrl →
      ∃ later, (exec (followRefs (documents lib) refs site) s).2.requests = s.requests ++ later ∧
        ∀ u ∈ later, SameHost lib specUrl u) ∧
    (∀ url currentUrl location nextUrl s resp, lib.answer (s.requests ++ [currentUrl]) = .ok resp →
      resp.status ∈ redirectStatusCodes → resp.location = some location → location ≠ "" →
      lib.urljoin currentUrl location = .ok nextUrl → ¬ SameHost lib url nextUrl → ∀ room, ∃ e,
        exec (follow lib url room currentUrl) s = (.error e, { s with requests := s.requests ++ [currentUrl] })) ∧
    (∀ ref specUrl externalUrl site s, "#/".toList.isPrefixOf ref.toList = false → site.specUrl = some specUrl →
      lib.urljoin specUrl (partitionHash ref).1 = .ok externalUrl → ¬ SameHost lib specUrl externalUrl →
        Refused (resolveRef (documents lib) (.scalar (.str ref)) site) s) := by
  refine ⟨fun url s => ?_, fun specUrl refs site s known => ?_, ?_, ?_⟩
  · obtain ⟨later, made, short, inside⟩ := @follow_requests lib url maxRedirectHops url s
    exact ⟨later, congrArg Net.requests made, Nat.succ_le_succ short, inside⟩
  · have start : AtHost lib specUrl site := fun url here => .inl (Option.some.inj (here.symm.trans known))
    exact (followRefs_stays start s).1.1
  · intro url currentUrl location nextUrl s resp answered redirected named nonempty joined foreign room
    exact follow_refuses answered redirected named nonempty joined foreign room
  · intro ref specUrl externalUrl site s external known joined foreign
    exact resolveRef_refuses external known joined foreign

/-- A portal that redirects everything to an internal address. -/
def attackedPortal : Library where
  urljoin _ location := .ok location
  urlparse url := .ok (if url = "https://bank/spec.yml" then ⟨"https", "bank"⟩ else ⟨"http", "169.254.169.254"⟩)
  text := { lower := id, isdigit := Char.isDigit, isspace := Char.isWhitespace, str := fun _ => "" }
  answer _ := .ok { status := 302, location := some "http://169.254.169.254/latest" }
  codecsLookup _ := .ok ()
  decode _ _ := .ok ""
  jsonLoads _ := .error .valueError
  yamlSafeLoad _ := .ok pyNone

theorem requests_stay_on_host_attackedPortal : ∃ e, exec (guardedGet attackedPortal "https://bank/spec.yml") {} =
    (.error e, { requests := ["https://bank/spec.yml"] }) := by
  have foreign : ¬ SameHost attackedPortal "https://bank/spec.yml" "http://169.254.169.254/latest" := by
    rintro ⟨target, home, parsed, parsed', _, same⟩
    obtain rfl := Except.ok.inj parsed
    obtain rfl := Except.ok.inj parsed'
    revert same
    decide
  exact (requests_stay_on_host attackedPortal).2.2.1 "https://bank/spec.yml" "https://bank/spec.yml" _ _ {} _ rfl
    (by decide) rfl (by decide) rfl foreign maxRedirectHops

end ScanApi.HostSafety
