import Mathlib.Data.List.Rotate
import ScanApi.ProxyUrls
import ScanApi.SharedObject

/-!
Outgoing proxies of the parsers (`bank_api_parser/proxy.py`): the rotator that all
threads share, and the adapter that sends a request through its candidates. What
the rotator answers depends on the calls before only: how often it was asked, and
when which proxy failed last.
-/
namespace ScanApi.ProxyRotation
open ScanApi.Interleaving ScanApi.EventLoop ScanApi.SharedObject ScanApi.UrlSplit ScanApi.ProxyUrls

abbrev Url := List Char

/-! ### The rotator -/

structure ProxyRotator where
  urls : List Url
  cooldown : Rat := 300
  maxAttempts : Int := 3
  next : Nat := 0
  failedAt : Dict Url Rat := Dict.empty

/-- `l[:n]`. -/
def slice {α : Type} (n : Int) (l : List α) : List α :=
  if 0 ≤ n then l.take n.toNat else l.take (l.length - (-n).toNat)

namespace ProxyRotator

/-- The proxies to try for one request. -/
def candidates (rotator : ProxyRotator) (now : Rat) : List Url × ProxyRotator :=
  if rotator.urls = [] then ([], rotator)
  else
    let start := rotator.next
    let ordered := rotator.urls.drop start ++ rotator.urls.take start
    let alive := ordered.filter (fun url =>
      rotator.cooldown ≤ now - (rotator.failedAt.get? url).getD (-rotator.cooldown))
    (slice rotator.maxAttempts alive, { rotator with next := (start + 1) % rotator.urls.length })

def reportFailure (rotator : ProxyRotator) (url : Url) (now : Rat) : ProxyRotator :=
  { rotator with failedAt := rotator.failedAt.set url now }

end ProxyRotator

/-! ### The adapter -/

/-- An exception, by the name of its class. -/
inductive Failure
  | connectionError (name : String)
  | timeout (name : String)
  | other (name : String)
deriving DecidableEq, Repr

namespace Failure

def name : Failure → String
  | .connectionError name => name
  | .timeout name => name
  | .other name => name

/-- Whether the next proxy is tried. -/
def caught : Failure → Bool
  | .other _ => false
  | _ => true

end Failure

inductive Question
  | candidates
  | reportFailure (url : Url)
  /-- `HTTPAdapter.send`, through a proxy or with the arguments as they are. -/
  | send (proxy : Option Url)
  | warning (message : List Char)
deriving DecidableEq

variable {ρ : Type}

/-- What a thread that sends requests asks; an answer to a request is any `ρ`. -/
abbrev adapter (ρ : Type) : Outside where
  Query := Question
  Reply
    | .candidates => List Url
    | .reportFailure _ => Unit
    | .send _ => Except Failure ρ
    | .warning _ => Unit

/-- The calls of the rotator, each under its lock. -/
def rotation (ρ : Type) : Object (adapter ρ) ProxyRotator Rat
  | .candidates, now, rotator => some (rotator.candidates now)
  | .reportFailure url, now, rotator => some ((), rotator.reportFailure url now)
  | .send _, _, _ => none
  | .warning _, _, _ => none

def failedMessage (shown : List Char) (exc : Failure) : List Char :=
  "Proxy ".toList ++ shown ++ " failed (".toList ++ exc.name.toList ++ "), trying next".toList

/-- What the adapter asks. -/
abbrev ask (q : Question) : Thread (adapter ρ) ((adapter ρ).Reply q) := Thread.query (w := adapter ρ) q

/-- `for url in candidates` of a request. -/
def tryEach (tables : TextTables) : List Url → Thread (adapter ρ) (Except Failure ρ)
  | [] => ask (.send none)
  | url :: others => do
    match ← ask (.send (some url)) with
    | .ok response => return .ok response
    | .error exc =>
      if exc.caught then
        ask (.reportFailure url)
        match mask tables url with
        | .ok shown =>
          ask (.warning (failedMessage shown exc))
          tryEach tables others
        | .error _ => return .error (.other "ValueError")
      else return .error exc

/-- `RotatingProxyAdapter.send`. -/
def send (tables : TextTables) : Thread (adapter ρ) (Except Failure ρ) := do
  tryEach tables (← ask .candidates)

/-! ### What the candidates are -/

abbrev History (ρ : Type) := List (Event (adapter ρ) Rat)

/-- How often candidates were asked for. -/
def asked (history : History ρ) : Nat := (history.filter (fun e => e.1.1 = .candidates)).length

/-- When a proxy was reported to fail. -/
def failures (url : Url) (history : History ρ) : List Rat :=
  (history.filter (fun e => e.1.1 = .reportFailure url)).map Prod.snd

/-- The latest reported failure is less than the cooldown ago. -/
def cooling (cooldown : Rat) (url : Url) (history : History ρ) (now : Rat) : Bool :=
  (failures url history).max?.any (fun t => now - t < cooldown)

/-- The candidates by the history alone. -/
def expected (urls : List Url) (cooldown : Rat) (maxAttempts : Int) (history : History ρ) (now : Rat) : List Url :=
  slice maxAttempts ((urls.rotate (asked history % urls.length)).filter (fun url => !cooling cooldown url history now))

/-- A clock that does not go back, and does not begin below zero. -/
structure Orderly (history : History ρ) : Prop where
  ascending : (history.map Prod.snd).Pairwise (· ≤ ·)
  nonneg : ∀ e ∈ history, 0 ≤ e.2

/-- What the rotator remembers of its history. -/
structure Tracks (urls : List Url) (cooldown : Rat) (maxAttempts : Int) (history : History ρ)
    (rotator : ProxyRotator) : Prop where
  urls_eq : rotator.urls = urls
  cooldown_eq : rotator.cooldown = cooldown
  maxAttempts_eq : rotator.maxAttempts = maxAttempts
  next_eq : urls ≠ [] → rotator.next = asked history % urls.length
  failedAt_eq : ∀ url, rotator.failedAt.get? url = (failures url history).max?

section
variable {urls : List Url} {cooldown now : Rat} {maxAttempts : Int} {history : History ρ} {rotator : ProxyRotator}

theorem candidates_eq (tracks : Tracks urls cooldown maxAttempts history rotator) (nonneg : 0 ≤ now) :
    (rotator.candidates now).1 = expected urls cooldown maxAttempts history now := by
  obtain ⟨rfl, rfl, rfl, next, failed⟩ := tracks
  rw [ProxyRotator.candidates, expected]
  by_cases empty : rotator.urls = []
  · simp [empty, slice]
  · have below : asked history % rotator.urls.length ≤ rotator.urls.length :=
      (Nat.mod_lt _ (List.length_pos_iff.mpr empty)).le
    rw [if_neg empty, List.rotate_eq_drop_append_take below, next empty]
    have alive : (fun url => decide (rotator.cooldown ≤ now - (rotator.failedAt.get? url).getD (-rotator.cooldown))) =
        fun url => !cooling rotator.cooldown url history now := by
      funext url
      rw [cooling, failed]
      cases (failures url history).max? with
      | none => simp [nonneg]
      | some t => simp [← not_lt]
    dsimp only
    rw [alive]

theorem tracks_candidates (tracks : Tracks urls cooldown maxAttempts history rotator) (given : List Url) :
    Tracks urls cooldown maxAttempts (history ++ [(⟨.candidates, given⟩, now)]) (rotator.candidates now).2 := by
  obtain ⟨rfl, rfl, rfl, next, failed⟩ := tracks
  have more : asked (history ++ [(⟨.candidates, given⟩, now)]) = asked history + 1 := by simp [asked]
  have same : ∀ url, failures url (history ++ [(⟨.candidates, given⟩, now)]) = failures url history := by
    intro url
    simp [failures]
  rw [ProxyRotator.candidates]
  by_cases empty : rotator.urls = []
  · rw [if_pos empty]
    exact ⟨rfl, rfl, rfl, fun some' => absurd empty some', fun url => by rw [failed, same]⟩
  · rw [if_neg empty]
    refine ⟨rfl, rfl, rfl, fun _ => ?_, fun url => by rw [same]; exact failed url⟩
    show (rotator.next + 1) % rotator.urls.length = _
    rw [more, next empty, Nat.mod_add_mod]

theorem max?_snoc {times : List Rat} (latest : ∀ t ∈ times, t ≤ now) : (times ++ [now]).max? = some now := by
  refine List.max?_eq_some_iff.mpr ⟨by simp, fun t member => ?_⟩
  rcases List.mem_append.mp member with earlier | last
  · exact latest t earlier
  · exact (List.mem_singleton.mp last).le

theorem tracks_reportFailure (tracks : Tracks urls cooldown maxAttempts history rotator) (url : Url)
    (latest : ∀ t ∈ failures url history, t ≤ now) :
    Tracks urls cooldown maxAttempts (history ++ [(⟨.reportFailure url, ()⟩, now)]) (rotator.reportFailure url now) := by
  obtain ⟨rfl, rfl, rfl, next, failed⟩ := tracks
  have same : asked (history ++ [(⟨.reportFailure url, ()⟩, now)]) = asked history := by simp [asked]
  refine ⟨rfl, rfl, rfl, fun some' => by rw [same]; exact next some', fun other => ?_⟩
  rw [ProxyRotator.reportFailure, Dict.get?_set]
  by_cases this : other = url
  · subst this
    have more : failures other (history ++ [(⟨.reportFailure other, ()⟩, now)]) = failures other history ++ [now] := by
      simp [failures]
    rw [if_pos rfl, more, max?_snoc latest]
  · have kept : failures other (history ++ [(⟨.reportFailure url, ()⟩, now)]) = failures other history := by
      simp [failures, Ne.symm this]
    rw [if_neg this, kept, failed]

theorem tracks_other (tracks : Tracks urls cooldown maxAttempts history rotator) {q : Question}
    (r : (adapter ρ).Reply q) (other : rotation ρ q now rotator = none) :
    Tracks urls cooldown maxAttempts (history ++ [(⟨q, r⟩, now)]) rotator := by
  have same : asked (history ++ [(⟨q, r⟩, now)]) = asked history ∧
      ∀ url, failures url (history ++ [(⟨q, r⟩, now)]) = failures url history := by
    cases q with
    | candidates => cases other
    | reportFailure url => cases other
    | send proxy => simp [asked, failures]
    | warning message => simp [asked, failures]
  obtain ⟨urls_eq, cooldown_eq, attempts_eq, next, failed⟩ := tracks
  exact ⟨urls_eq, cooldown_eq, attempts_eq, by rw [same.1]; exact next, fun url => by rw [same.2]; exact failed url⟩

theorem Orderly.of_append {later : History ρ} (orderly : Orderly (history ++ later)) : Orderly history := by
  obtain ⟨ascending, nonneg⟩ := orderly
  rw [List.map_append, List.pairwise_append] at ascending
  exact ⟨ascending.1, fun past member => nonneg past (List.mem_append_left _ member)⟩

theorem Orderly.le_last {e : Event (adapter ρ) Rat} (orderly : Orderly (history ++ [e])) :
    ∀ past ∈ history, past.2 ≤ e.2 := by
  have ascending := orderly.ascending
  rw [List.map_append, List.pairwise_append] at ascending
  exact fun past member => ascending.2.2 _ (List.mem_map_of_mem member) _ (by simp)

theorem Orderly.failures_le {e : Event (adapter ρ) Rat} (orderly : Orderly (history ++ [e])) (url : Url) :
    ∀ t ∈ failures url history, t ≤ e.2 := by
  intro t member
  obtain ⟨past, listed, rfl⟩ := List.mem_map.mp member
  exact orderly.le_last past (List.mem_of_mem_filter listed)

end

/-! ### Any threads -/

section
variable {ι : Type} [DecidableEq ι] {urls : List Url} {cooldown : Rat} {maxAttempts : Int}

/-- A new rotator, and threads that may do anything with it. -/
def fresh (urls : List Url) (cooldown : Rat) (maxAttempts : Int) (threads : ι → Thread (adapter ρ) (Except Failure ρ)) :
    Joint ProxyRotator ι (Thread (adapter ρ) (Except Failure ρ)) where
  shared := { urls := urls, cooldown := cooldown, maxAttempts := maxAttempts }
  place := threads

variable {threads : ι → Thread (adapter ρ) (Except Failure ρ)} {turns : List (ι × Event (adapter ρ) Rat)}
  {joint : Joint ProxyRotator ι (Thread (adapter ρ) (Except Failure ρ))}

/-- Every call for candidates is answered by the history before it. -/
theorem candidates_expected (run : Run (Served (rotation ρ)) (fresh urls cooldown maxAttempts threads) turns joint)
    (orderly : Orderly (turns.map Prod.snd)) {before after : History ρ} {given : List Url} {now : Rat}
    (split : turns.map Prod.snd = before ++ (⟨.candidates, given⟩, now) :: after) :
    given = expected urls cooldown maxAttempts before now := by
  have served := object_serves
    (P := fun past rotator => Orderly past → Tracks urls cooldown maxAttempts past rotator)
    (Q := fun past e => Orderly (past ++ [e]) → ∀ given now, e = (⟨.candidates, given⟩, now) →
      given = expected urls cooldown maxAttempts past now)
    (fun _ => ⟨rfl, rfl, rfl, fun _ => (Nat.zero_mod _).symm, fun _ => rfl⟩) ?_ ?_ run
  · have upTo : Orderly (before ++ [(⟨.candidates, given⟩, now)]) := by
      rw [split, List.append_cons] at orderly
      exact orderly.of_append
    exact served.2 before _ after split upTo given now rfl
  · intro past rotator q now r rotator' tracked answered
    cases q with
    | candidates =>
      obtain ⟨rfl, rfl⟩ : (rotator.candidates now).1 = r ∧ (rotator.candidates now).2 = rotator' :=
        Prod.mk.inj (Option.some.inj answered)
      refine ⟨fun orderly => tracks_candidates (tracked orderly.of_append) _, ?_⟩
      rintro orderly given now' same
      cases same
      exact candidates_eq (tracked orderly.of_append) (orderly.nonneg _ (List.mem_append_right _ List.mem_cons_self))
    | reportFailure url =>
      obtain ⟨-, rfl⟩ := Prod.mk.inj (Option.some.inj answered)
      refine ⟨fun orderly => tracks_reportFailure (tracked orderly.of_append) url (orderly.failures_le url), ?_⟩
      rintro - given now' same
      cases same
    | send proxy => cases answered
    | warning message => cases answered
  · intro past rotator q now r tracked other
    refine ⟨fun orderly => tracks_other (tracked orderly.of_append) r other, ?_⟩
    rintro - given now' same
    cases same
    cases other

end

/-! ### One request -/

/-- A proxy that could not be used, and how the warning shows it. -/
structure Failed where
  url : Url
  exc : Failure
  shown : List Char

/-- It is tried, reported and warned about. -/
def Failed.log (failed : Failed) : Log (adapter ρ) :=
  [⟨.send (some failed.url), .error failed.exc⟩, ⟨.reportFailure failed.url, ()⟩,
    ⟨.warning (failedMessage failed.shown failed.exc), ()⟩]

/-- What a request does with the proxies it was given: the first ones fail, and then the next one answers or raises
    something else, or none is left and the request goes out directly. -/
def Sent (tables : TextTables) (given : List Url) (log : Log (adapter ρ)) (result : Except Failure ρ) : Prop :=
  ∃ failed : List Failed, (∀ f ∈ failed, f.exc.caught = true ∧ mask tables f.url = .ok f.shown) ∧
    ((given = failed.map Failed.url ∧ log = failed.flatMap Failed.log ++ [⟨.send none, result⟩]) ∨
      ∃ url others, given = failed.map Failed.url ++ url :: others ∧
        log = failed.flatMap Failed.log ++ [⟨.send (some url), result⟩] ∧
        ∀ exc, result = .error exc → exc.caught = false)

section
variable {tables : TextTables} {given : List Url} {log : Log (adapter ρ)} {result : Except Failure ρ}

theorem Sent.cons {url : Url} {exc : Failure} {shown : List Char} (caught : exc.caught = true)
    (masked : mask tables url = .ok shown) (sent : Sent tables given log result) :
    Sent tables (url :: given) ((⟨url, exc, shown⟩ : Failed).log ++ log) result := by
  obtain ⟨failed, all, ends⟩ := sent
  refine ⟨⟨url, exc, shown⟩ :: failed, List.forall_mem_cons.mpr ⟨⟨caught, masked⟩, all⟩, ?_⟩
  rcases ends with ⟨rfl, rfl⟩ | ⟨next, others, rfl, rfl, final⟩
  · exact .inl ⟨rfl, by simp⟩
  · exact .inr ⟨next, others, rfl, by simp, final⟩

theorem sent_of_does (maskable : ∀ url ∈ given, ∃ shown, mask tables url = .ok shown)
    (does : Does (tryEach tables given) log (.ret result)) : Sent tables given log result := by
  induction given generalizing log with
  | nil =>
    rw [tryEach, does_query] at does
    exact ⟨[], by simp, .inl ⟨rfl, does⟩⟩
  | cons url others ih =>
    obtain ⟨⟨shown, masked⟩, maskable⟩ := List.forall_mem_cons.mp maskable
    rw [tryEach] at does
    obtain ⟨r, rest, rfl, tried⟩ := does_query_bind.mp does
    cases r with
    | ok response =>
      obtain ⟨rfl, rfl⟩ := does_pure.mp tried
      exact ⟨[], by simp, .inr ⟨url, others, rfl, rfl, fun exc impossible => by cases impossible⟩⟩
    | error exc =>
      by_cases caught : exc.caught = true
      · simp only [caught, if_true] at tried
        obtain ⟨_, rest, rfl, reported⟩ := does_query_bind.mp tried
        simp only [masked] at reported
        obtain ⟨_, rest, rfl, warned⟩ := does_query_bind.mp reported
        exact (ih maskable warned).cons caught masked
      · simp only [caught] at tried
        obtain ⟨rfl, rfl⟩ := does_pure.mp tried
        refine ⟨[], by simp, .inr ⟨url, others, rfl, rfl, fun other same => ?_⟩⟩
        cases same
        exact Bool.eq_false_iff.mpr caught

/-- What a request that has got its answer, or its exception, has done: it asked for candidates and used them. -/
def Requested (tables : TextTables) (log : Log (adapter ρ)) (result : Except Failure ρ) : Prop :=
  ∃ given rest, log = ⟨.candidates, given⟩ :: rest ∧ Sent tables given rest result

theorem requested_of_does
    (maskable : ∀ given, ⟨.candidates, given⟩ ∈ log → ∀ url ∈ given, ∃ shown, mask tables url = .ok shown)
    (does : Does (send tables) log (.ret result)) : Requested tables log result := by
  rw [send] at does
  obtain ⟨given, rest, rfl, asked⟩ := does_query_bind.mp does
  exact ⟨given, rest, rfl, sent_of_does (maskable given List.mem_cons_self) asked⟩

/-- A request that is under way can still come to its end. -/
theorem exists_requested {t : Thread (adapter ρ) (Except Failure ρ)}
    (maskable : ∀ given, ⟨.candidates, given⟩ ∈ log → ∀ url ∈ given, ∃ shown, mask tables url = .ok shown)
    (does : Does (send tables) log t) : ∃ more result, Requested tables (log ++ more) result := by
  cases log with
  | nil =>
    have direct : Sent tables [] [⟨.send none, .error (.other "")⟩] (.error (.other "") : Except Failure ρ) :=
      ⟨[], by simp, .inl ⟨rfl, rfl⟩⟩
    exact ⟨_, _, [], _, rfl, direct⟩
  | cons first rest =>
    have answer : ∀ q : Question, (adapter ρ).Reply q
      | .candidates => []
      | .reportFailure _ => ()
      | .send _ => .error (.other "")
      | .warning _ => ()
    rw [send] at does
    cases does with
    | ask given tried =>
      obtain ⟨more, result, ends⟩ := Does.ends (w := adapter ρ) answer t
      exact ⟨more, result, given, _, rfl, sent_of_does (maskable given List.mem_cons_self) (Does.trans tried ends)⟩

end

/-! ### All requests -/

theorem slice_subset {α : Type} (n : Int) (l : List α) : slice n l ⊆ l := by
  rw [slice]
  split
  · exact List.take_subset _ _
  · exact List.take_subset _ _

theorem expected_subset (urls : List Url) (cooldown : Rat) (maxAttempts : Int) (history : History ρ) (now : Rat) :
    expected urls cooldown maxAttempts history now ⊆ urls := by
  intro url member
  exact List.mem_rotate.mp (List.mem_of_mem_filter (slice_subset _ _ member))

section
variable {ι : Type} [DecidableEq ι] {urls : List Url} {cooldown : Rat} {maxAttempts : Int}
  {threads : ι → Thread (adapter ρ) (Except Failure ρ)} {turns : List (ι × Event (adapter ρ) Rat)}
  {joint : Joint ProxyRotator ι (Thread (adapter ρ) (Except Failure ρ))} {tables : TextTables}

omit [DecidableEq ι] in
/-- An address that was taken can be shown. -/
theorem mask_of_validated {url : Url} (taken : ∃ raw, validateUrl tables raw = .ok url) :
    ∃ shown, mask tables url = .ok shown := by
  obtain ⟨raw, accepted⟩ := taken
  obtain ⟨-, parts, ok⟩ := validateUrl_ok.mp accepted
  exact ⟨_, mask_accepted ok⟩

/-- The candidates that a request was given can be shown. -/
theorem maskable_given (run : Run (Served (rotation ρ)) (fresh urls cooldown maxAttempts threads) turns joint)
    (orderly : Orderly (turns.map Prod.snd)) (showable : ∀ url ∈ urls, ∃ shown, mask tables url = .ok shown) {i : ι}
    {given : List Url} (asked : ⟨.candidates, given⟩ ∈ logOf i turns) :
    ∀ url ∈ given, ∃ shown, mask tables url = .ok shown := by
  intro url member
  obtain ⟨turn, listed, same⟩ := List.mem_map.mp asked
  obtain ⟨before, after, split⟩ := List.append_of_mem (List.mem_map_of_mem (f := Prod.snd) (List.mem_of_mem_filter listed))
  have event : turn.2 = (⟨.candidates, given⟩, turn.2.2) := Prod.ext same rfl
  rw [event] at split
  rw [candidates_expected run orderly split] at member
  exact showable url (expected_subset _ _ _ _ _ member)

/-- The rotator answers every call by the history before it, whatever the threads do in which order, and every request
    does with its candidates what the adapter promises. -/
theorem rotation_refines (tables : TextTables)
    (run : Run (Served (rotation ρ)) (fresh urls cooldown maxAttempts threads) turns joint)
    (orderly : Orderly (turns.map Prod.snd)) :
    (∀ before given now after, turns.map Prod.snd = before ++ (⟨.candidates, given⟩, now) :: after →
      given = expected urls cooldown maxAttempts before now) ∧
    ((∀ url ∈ urls, ∃ shown, mask tables url = .ok shown) → ∀ i, threads i = send tables →
      (∃ more result, Requested tables (logOf i turns ++ more) result) ∧
      ∀ result, joint.place i = .ret result → Requested tables (logOf i turns) result) := by
  refine ⟨fun before given now after split => candidates_expected run orderly split, fun showable i sending => ?_⟩
  have does : Does (send tables) (logOf i turns) (joint.place i) := sending ▸ thread_does run i
  have maskable : ∀ given, ⟨.candidates, given⟩ ∈ logOf i turns → ∀ url ∈ given, ∃ shown, mask tables url = .ok shown :=
    fun given => maskable_given run orderly showable
  refine ⟨exists_requested maskable does, fun result final => ?_⟩
  rw [final] at does
  exact requested_of_does maskable does

end

/-! ### Three requests -/

def hungProxy : Url := "http://u:p@10.0.0.1:8000".toList
def goodProxy : Url := "http://10.0.0.3:3128".toList

/-- One of two proxies hangs. -/
def oneHangs (_ : Fin 3) : ∀ q : Question, (adapter Nat).Reply q
  | .candidates => []
  | .reportFailure _ => ()
  | .send proxy => if proxy = some hungProxy then .error (.timeout "ReadTimeout") else .ok 200
  | .warning _ => ()

/-- Three requests through both proxies. -/
def threeRequests : Joint ProxyRotator (Fin 3) (Thread (adapter Nat) (Except Failure Nat)) :=
  fresh [hungProxy, goodProxy] 300 3 (fun _ => send asciiTables)

def endsWith (result : Except Failure Nat) : Thread (adapter Nat) (Except Failure Nat) → Bool
  | .ret result' => result' = result
  | .ask _ _ => false

theorem eq_of_endsWith {result : Except Failure Nat} {t : Thread (adapter Nat) (Except Failure Nat)}
    (ended : endsWith result t = true) : t = .ret result := by
  cases t with
  | ret result' => rw [of_decide_eq_true ended]
  | ask q k => cases ended

/-- The first request tries the proxy that hangs, the second one begins with the other, and the third one leaves it out. -/
theorem rotation_refines_three : ∃ turns joint, Run (Served (rotation Nat)) threeRequests turns joint ∧
    (∀ before given now after, turns.map Prod.snd = before ++ (⟨.candidates, given⟩, now) :: after →
      given = expected [hungProxy, goodProxy] 300 3 before now) ∧
    ∀ i, Requested asciiTables (logOf i turns) (.ok 200) := by
  have scheduled : ∃ turns joint, Run (Served (rotation Nat)) threeRequests turns joint ∧ _ :=
    exists_scheduled oneHangs [(0, 0), (1, 1), (0, 2), (0, 3), (0, 4), (1, 5), (0, 6), (2, 7), (2, 8)]
      (fun ends => ends.1.map (fun turn => turn.2.2) = [0, 1, 2, 3, 4, 5, 6, 7, 8] ∧
        ∀ i, endsWith (.ok 200) (ends.2.place i) = true) (by decide +kernel)
  obtain ⟨turns, joint, run, tested⟩ := scheduled
  obtain ⟨moments, ended⟩ := of_decide_eq_true tested
  have orderly : Orderly (turns.map Prod.snd) := by
    have times : (turns.map Prod.snd).map Prod.snd = [0, 1, 2, 3, 4, 5, 6, 7, 8] := by
      rw [List.map_map]
      exact moments
    refine ⟨times ▸ by decide +kernel, fun e member => ?_⟩
    have listed : e.2 ∈ ([0, 1, 2, 3, 4, 5, 6, 7, 8] : List Rat) := times ▸ List.mem_map_of_mem member
    have nonneg : ∀ t ∈ ([0, 1, 2, 3, 4, 5, 6, 7, 8] : List Rat), 0 ≤ t := by decide +kernel
    exact nonneg _ listed
  have taken : ∀ url ∈ [hungProxy, goodProxy], ∃ raw, validateUrl asciiTables raw = .ok url := by
    intro url member
    rcases List.mem_pair.mp member with rfl | rfl
    · exact ⟨hungProxy, by decide +kernel⟩
    · exact ⟨goodProxy, by decide +kernel⟩
  obtain ⟨answered, requests⟩ := rotation_refines asciiTables run orderly
  have showable := fun url member => mask_of_validated (taken url member)
  exact ⟨turns, joint, run, answered, fun i => (requests showable i rfl).2 _ (eq_of_endsWith (ended i))⟩

end ScanApi.ProxyRotation
