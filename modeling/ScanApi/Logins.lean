import ScanApi.Sessions

/-!
Failed logins by client address (`LoginLimiter` of `app/auth.py`) and the login
that consults them (`app/web_auth.py`). Queues of failures are pruned from the
head when their address is asked for, and forgotten when their last failure is
stale. What remains is an exact sliding window over the wrong passwords since
the last login that succeeded.
-/
namespace ScanApi.Logins
open ScanApi.Sessions

/-- The failures of every remembered address, the oldest first. -/
structure LoginLimiter where
  maxFailures : Int := 5
  window : Rat := 15 * 60
  failures : Dict String (List Rat) := Dict.empty

namespace LoginLimiter

/-- The recent failures of an address; stale addresses are forgotten. -/
def recent (limiter : LoginLimiter) (key : String) (now : Rat) : List Rat × LoginLimiter :=
  let kept := limiter.failures.filter (fun _ queue => !queue.getLast?.any (· ≤ now - limiter.window))
  let opened := kept.setdefault key []
  let queue := ((opened.get? key).getD []).dropWhile (· ≤ now - limiter.window)
  (queue, { limiter with failures := opened.set key queue })

def blocked (limiter : LoginLimiter) (key : String) (now : Rat) : Bool × LoginLimiter :=
  let (queue, limiter) := limiter.recent key now
  (limiter.maxFailures ≤ queue.length, limiter)

def failure (limiter : LoginLimiter) (key : String) (now : Rat) : LoginLimiter :=
  let (queue, limiter) := limiter.recent key now
  { limiter with failures := limiter.failures.set key (queue ++ [now]) }

def reset (limiter : LoginLimiter) (key : String) : LoginLimiter :=
  { limiter with failures := limiter.failures.pop key }

end LoginLimiter

/-! ### Logins -/

structure Attempt where
  address : String
  now : Rat
  password : String
deriving DecidableEq

inductive Outcome
  /-- Answered with 429; the password is not looked at. -/
  | refused
  /-- Answered with 401. -/
  | wrong
  | loggedIn (role : Role)
deriving DecidableEq, Repr

/-- `POST /login`, which has no await; the cookie is left out. -/
def login (auth : Auth) (limiter : LoginLimiter) (attempt : Attempt) : Outcome × LoginLimiter :=
  let (refused, limiter) := limiter.blocked attempt.address attempt.now
  if refused then (.refused, limiter)
  else match checkPassword auth attempt.password with
    | none => (.wrong, limiter.failure attempt.address attempt.now)
    | some role => (.loggedIn role, limiter.reset attempt.address)

/-- Attempts and what they came to. -/
abbrev History := List (Attempt × Outcome)

/-- Attempts one after another. -/
def logins (auth : Auth) (limiter : LoginLimiter) (attempts : List Attempt) : History × LoginLimiter :=
  attempts.foldl (fun before attempt =>
    let (outcome, limiter) := login auth before.2 attempt
    (before.1 ++ [(attempt, outcome)], limiter)) ([], limiter)

/-! ### The window -/

/-- The times of an address's wrong passwords since its last login that succeeded. -/
def sinceSuccess (address : String) (history : History) : List Rat :=
  history.foldl (fun times entry =>
    if entry.1.address ≠ address then times
    else match entry.2 with
      | .refused => times
      | .wrong => times ++ [entry.1.now]
      | .loggedIn _ => []) []

/-- The times in `(now - window, now]`. -/
def within (window now : Rat) (times : List Rat) : List Rat := times.filter (fun t => now - window < t ∧ t ≤ now)

/-- What an attempt comes to by the window alone. -/
def expected (auth : Auth) (maxFailures : Int) (window : Rat) (history : History) (attempt : Attempt) : Outcome :=
  if maxFailures ≤ (within window attempt.now (sinceSuccess attempt.address history)).length then .refused
  else match checkPassword auth attempt.password with
    | none => .wrong
    | some role => .loggedIn role

theorem sinceSuccess_snoc (address : String) (history : History) (attempt : Attempt) (outcome : Outcome) :
    sinceSuccess address (history ++ [(attempt, outcome)]) =
      if attempt.address ≠ address then sinceSuccess address history
      else match outcome with
        | .refused => sinceSuccess address history
        | .wrong => sinceSuccess address history ++ [attempt.now]
        | .loggedIn _ => [] := by
  rw [sinceSuccess, List.foldl_append]
  rfl

/-! ### Queues -/

section
variable {limiter : LoginLimiter} {key address : String} {now cutoff : Rat}

/-- The failures remembered of an address. -/
def queueOf (limiter : LoginLimiter) (address : String) : List Rat := (limiter.failures.get? address).getD []

/-- The rest of a queue once times up to the cutoff are dropped from its head. -/
def Pruned (cutoff : Rat) (queue rest : List Rat) : Prop := ∃ old, queue = old ++ rest ∧ ∀ t ∈ old, t ≤ cutoff

theorem pruned_refl (queue : List Rat) : Pruned cutoff queue queue := ⟨[], rfl, by simp⟩

theorem pruned_trans {queue mid rest : List Rat} (first : Pruned cutoff queue mid) (second : Pruned cutoff mid rest) :
    Pruned cutoff queue rest := by
  obtain ⟨old, rfl, stale⟩ := first
  obtain ⟨old', rfl, stale'⟩ := second
  exact ⟨old ++ old', by simp, List.forall_mem_append.mpr ⟨stale, stale'⟩⟩

theorem pruned_mono {queue rest : List Rat} {cutoff' : Rat} (pruned : Pruned cutoff queue rest) (up : cutoff ≤ cutoff') :
    Pruned cutoff' queue rest := by
  obtain ⟨old, same, stale⟩ := pruned
  exact ⟨old, same, fun t member => (stale t member).trans up⟩

theorem pruned_snoc {queue rest : List Rat} (pruned : Pruned cutoff queue rest) (t : Rat) :
    Pruned cutoff (queue ++ [t]) (rest ++ [t]) := by
  obtain ⟨old, rfl, stale⟩ := pruned
  exact ⟨old, by simp, stale⟩

/-- A queue whose last time is stale is stale as a whole. -/
theorem pruned_of_last {queue : List Rat} (sorted : queue.Pairwise (· ≤ ·)) {last : Rat}
    (ends : queue.getLast? = some last) (stale : last ≤ cutoff) : Pruned cutoff queue [] := by
  refine ⟨queue, by simp, fun t member => ?_⟩
  obtain ⟨before, rfl⟩ := List.getLast?_eq_some_iff.mp ends
  rcases List.mem_append.mp member with earlier | here
  · exact ((List.pairwise_append.mp sorted).2.2 t earlier last (by simp)).trans stale
  · rwa [List.mem_singleton.mp here]

theorem pruned_dropWhile (queue : List Rat) : Pruned cutoff queue (queue.dropWhile (· ≤ cutoff)) := by
  refine ⟨queue.takeWhile (· ≤ cutoff), (List.takeWhile_append_dropWhile).symm, fun t member => ?_⟩
  simpa using List.mem_takeWhile_imp member

/-- What is left of an ordered queue is after the cutoff. -/
theorem lt_of_mem_dropWhile {queue : List Rat} (sorted : queue.Pairwise (· ≤ ·)) :
    ∀ t ∈ queue.dropWhile (· ≤ cutoff), cutoff < t := by
  induction queue with
  | nil => simp
  | cons s rest ih =>
    obtain ⟨first, others⟩ := List.pairwise_cons.mp sorted
    by_cases stale : s ≤ cutoff
    · simpa [List.dropWhile_cons, stale] using ih others
    · intro t member
      have head : cutoff < s := not_le.mp stale
      have inside : t = s ∨ t ∈ rest := by simpa [List.dropWhile_cons, stale] using member
      rcases inside with rfl | later
      · exact head
      · exact head.trans_le (first t later)

/-- The window of a queue is its rest, where only the rest is after the cutoff. -/
theorem within_of_pruned {window : Rat} {queue rest : List Rat} (pruned : Pruned (now - window) queue rest)
    (fresh : ∀ t ∈ rest, now - window < t) (past : ∀ t ∈ queue, t ≤ now) : within window now queue = rest := by
  obtain ⟨old, rfl, stale⟩ := pruned
  have none : within window now old = [] := by
    rw [within, List.filter_eq_nil_iff]
    intro t member inside
    exact absurd (of_decide_eq_true inside).1 (not_lt.mpr (stale t member))
  have all : within window now rest = rest := by
    rw [within, List.filter_eq_self]
    intro t member
    exact decide_eq_true ⟨fresh t member, past t (List.mem_append_right _ member)⟩
  rw [within, List.filter_append]
  exact (congrArg₂ (· ++ ·) none all).trans (List.nil_append rest)

/-! ### What the limiter remembers -/

/-- The queue of an address after the stale addresses are forgotten. -/
def swept (limiter : LoginLimiter) (now : Rat) (address : String) : List Rat :=
  if (queueOf limiter address).getLast?.any (· ≤ now - limiter.window) then [] else queueOf limiter address

theorem queueOf_kept : ((limiter.failures.filter
    (fun _ queue => !queue.getLast?.any (· ≤ now - limiter.window))).get? address).getD [] = swept limiter now address := by
  rw [Dict.get?_filter, swept, queueOf]
  cases found : limiter.failures.get? address with
  | none => simp
  | some queue => by_cases stale : queue.getLast?.any (· ≤ now - limiter.window) = true <;> simp [Option.filter, stale]

theorem recent_queue : (limiter.recent key now).1 = (swept limiter now key).dropWhile (· ≤ now - limiter.window) := by
  simp only [LoginLimiter.recent]
  rw [Dict.get?_setdefault, if_pos rfl, Option.getD_some, queueOf_kept]

@[simp] theorem recent_window : (limiter.recent key now).2.window = limiter.window := rfl
@[simp] theorem recent_maxFailures : (limiter.recent key now).2.maxFailures = limiter.maxFailures := rfl
@[simp] theorem failure_window : (limiter.failure key now).window = limiter.window := by
  simp only [LoginLimiter.failure, recent_window]
@[simp] theorem failure_maxFailures : (limiter.failure key now).maxFailures = limiter.maxFailures := by
  simp only [LoginLimiter.failure, recent_maxFailures]
@[simp] theorem reset_window : (limiter.reset key).window = limiter.window := rfl
@[simp] theorem reset_maxFailures : (limiter.reset key).maxFailures = limiter.maxFailures := rfl

theorem queueOf_recent : queueOf (limiter.recent key now).2 address =
    if address = key then (limiter.recent key now).1 else swept limiter now address := by
  by_cases here : address = key
  · simp [queueOf, LoginLimiter.recent, Dict.get?_set, here]
  · rw [if_neg here, ← queueOf_kept]
    simp [queueOf, LoginLimiter.recent, Dict.get?_set, Dict.get?_setdefault, here]

theorem pruned_swept (sorted : (queueOf limiter address).Pairwise (· ≤ ·)) :
    Pruned (now - limiter.window) (queueOf limiter address) (swept limiter now address) := by
  rw [swept]
  split
  · rename_i stale
    obtain ⟨last, ends, old⟩ := (Option.any_eq_true _ _).mp stale
    exact pruned_of_last sorted ends (of_decide_eq_true old)
  · exact pruned_refl _

theorem pruned_recent (sorted : (queueOf limiter address).Pairwise (· ≤ ·)) :
    Pruned (now - limiter.window) (queueOf limiter address) (queueOf (limiter.recent key now).2 address) := by
  rw [queueOf_recent]
  split
  · rename_i here
    subst here
    rw [recent_queue]
    exact pruned_trans (pruned_swept sorted) (pruned_dropWhile _)
  · exact pruned_swept sorted

theorem fresh_recent (sorted : (queueOf limiter key).Pairwise (· ≤ ·)) :
    ∀ t ∈ (limiter.recent key now).1, now - limiter.window < t := by
  obtain ⟨old, split, -⟩ := @pruned_swept limiter key now sorted
  rw [split] at sorted
  rw [recent_queue]
  exact lt_of_mem_dropWhile (List.pairwise_append.mp sorted).2.1

/-- The queues hold the wrong passwords since the last success, up to those that
    no window from now on reaches. -/
structure Windowed (limiter : LoginLimiter) (history : History) (now : Rat) : Prop where
  ordered : ∀ address, (sinceSuccess address history).Pairwise (· ≤ ·)
  past : ∀ address, ∀ t ∈ sinceSuccess address history, t ≤ now
  pruned : ∀ address, Pruned (now - limiter.window) (sinceSuccess address history) (queueOf limiter address)

variable {history : History} {auth : Auth} {attempt : Attempt}

theorem Windowed.mono {later : Rat} (windowed : Windowed limiter history now) (onward : now ≤ later) :
    Windowed limiter history later where
  ordered := windowed.ordered
  past address t member := (windowed.past address t member).trans onward
  pruned address := pruned_mono (windowed.pruned address) (by gcongr)

theorem Windowed.queue_ordered (windowed : Windowed limiter history now) (address : String) :
    (queueOf limiter address).Pairwise (· ≤ ·) := by
  obtain ⟨old, split, -⟩ := windowed.pruned address
  have ordered := windowed.ordered address
  rw [split] at ordered
  exact (List.pairwise_append.mp ordered).2.1

theorem Windowed.queue_past (windowed : Windowed limiter history now) (address : String) :
    ∀ t ∈ queueOf limiter address, t ≤ now := by
  obtain ⟨old, split, -⟩ := windowed.pruned address
  intro t member
  exact windowed.past address t (split ▸ List.mem_append_right _ member)

/-- The recent failures of an address are the window. -/
theorem within_recent (windowed : Windowed limiter history now) :
    within limiter.window now (sinceSuccess key history) = (limiter.recent key now).1 := by
  have ordered := windowed.queue_ordered key
  refine within_of_pruned (pruned_trans (windowed.pruned key) ?_) (fresh_recent ordered) (windowed.past key)
  have pruned := @pruned_recent limiter key key now ordered
  rwa [queueOf_recent, if_pos rfl] at pruned

theorem windowed_recent (windowed : Windowed limiter history now) (key : String) :
    Windowed (limiter.recent key now).2 history now where
  ordered := windowed.ordered
  past := windowed.past
  pruned address := by
    have recent : Pruned (now - limiter.window) (queueOf limiter address) (queueOf (limiter.recent key now).2 address) :=
      pruned_recent (windowed.queue_ordered address)
    rw [recent_window]
    exact pruned_trans (windowed.pruned address) recent

theorem queueOf_failure : queueOf (limiter.failure key now) address =
    if address = key then (limiter.recent key now).1 ++ [now] else queueOf (limiter.recent key now).2 address := by
  by_cases here : address = key <;> simp [queueOf, LoginLimiter.failure, Dict.get?_set, here]

theorem queueOf_reset : queueOf (limiter.reset key) address = if address = key then [] else queueOf limiter address := by
  by_cases here : address = key <;> simp [queueOf, LoginLimiter.reset, Dict.get?_pop, here]

theorem windowed_failure (windowed : Windowed limiter history attempt.now) :
    Windowed (limiter.failure attempt.address attempt.now) (history ++ [(attempt, .wrong)]) attempt.now where
  ordered address := by
    rw [sinceSuccess_snoc]
    split
    · exact windowed.ordered address
    · exact List.pairwise_append.mpr ⟨windowed.ordered address, by simp, by simpa using windowed.past address⟩
  past address := by
    rw [sinceSuccess_snoc]
    split
    · exact windowed.past address
    · exact List.forall_mem_append.mpr ⟨windowed.past address, by simp⟩
  pruned address := by
    have recent := (windowed_recent windowed attempt.address).pruned address
    rw [sinceSuccess_snoc, queueOf_failure]
    by_cases here : attempt.address = address
    · subst here
      rw [queueOf_recent, if_pos rfl] at recent
      simpa using pruned_snoc recent attempt.now
    · simpa [here, Ne.symm here] using recent

theorem windowed_reset {role : Role} (windowed : Windowed limiter history attempt.now) :
    Windowed (limiter.reset attempt.address) (history ++ [(attempt, .loggedIn role)]) attempt.now where
  ordered address := by
    rw [sinceSuccess_snoc]
    split
    · exact windowed.ordered address
    · exact List.Pairwise.nil
  past address := by
    rw [sinceSuccess_snoc]
    split
    · exact windowed.past address
    · simp
  pruned address := by
    rw [sinceSuccess_snoc, queueOf_reset]
    by_cases here : attempt.address = address
    · simpa [here] using pruned_refl []
    · simpa [here, Ne.symm here] using windowed.pruned address

theorem windowed_refused (windowed : Windowed limiter history attempt.now) :
    Windowed limiter (history ++ [(attempt, .refused)]) attempt.now := by
  have same : ∀ address, sinceSuccess address (history ++ [(attempt, .refused)]) = sinceSuccess address history := by
    intro address
    rw [sinceSuccess_snoc]
    split <;> rfl
  exact ⟨fun a => same a ▸ windowed.ordered a, fun a => same a ▸ windowed.past a, fun a => same a ▸ windowed.pruned a⟩

/-- What a login does, case by case. -/
theorem login_cases (auth : Auth) (limiter : LoginLimiter) (attempt : Attempt) :
    (limiter.maxFailures ≤ (limiter.recent attempt.address attempt.now).1.length ∧
      login auth limiter attempt = (.refused, (limiter.recent attempt.address attempt.now).2)) ∨
    (¬ limiter.maxFailures ≤ (limiter.recent attempt.address attempt.now).1.length ∧
      checkPassword auth attempt.password = none ∧ login auth limiter attempt =
        (.wrong, (limiter.recent attempt.address attempt.now).2.failure attempt.address attempt.now)) ∨
    (¬ limiter.maxFailures ≤ (limiter.recent attempt.address attempt.now).1.length ∧
      ∃ role, checkPassword auth attempt.password = some role ∧ login auth limiter attempt =
        (.loggedIn role, (limiter.recent attempt.address attempt.now).2.reset attempt.address)) := by
  by_cases refused : limiter.maxFailures ≤ (limiter.recent attempt.address attempt.now).1.length
  · refine .inl ⟨refused, ?_⟩
    simp only [login, LoginLimiter.blocked, recent_maxFailures, refused, decide_true, if_true]
  · cases checked : checkPassword auth attempt.password with
    | none =>
      refine .inr (.inl ⟨refused, rfl, ?_⟩)
      simp only [login, LoginLimiter.blocked, recent_maxFailures, refused, decide_false, checked, Bool.false_eq_true, if_false]
    | some role =>
      refine .inr (.inr ⟨refused, role, rfl, ?_⟩)
      simp only [login, LoginLimiter.blocked, recent_maxFailures, refused, decide_false, checked, Bool.false_eq_true, if_false]

theorem login_settings (auth : Auth) (limiter : LoginLimiter) (attempt : Attempt) :
    (login auth limiter attempt).2.maxFailures = limiter.maxFailures ∧
      (login auth limiter attempt).2.window = limiter.window := by
  rcases login_cases auth limiter attempt with ⟨-, same⟩ | ⟨-, -, same⟩ | ⟨-, role, -, same⟩
  all_goals simp [same]

theorem login_expected (windowed : Windowed limiter history attempt.now) :
    (login auth limiter attempt).1 = expected auth limiter.maxFailures limiter.window history attempt := by
  rw [expected, within_recent windowed]
  rcases login_cases auth limiter attempt with ⟨refused, same⟩ | ⟨open', checked, same⟩ | ⟨open', role, checked, same⟩
  · rw [same, if_pos refused]
  · rw [same, if_neg open', checked]
  · rw [same, if_neg open', checked]

theorem windowed_login (windowed : Windowed limiter history attempt.now) :
    Windowed (login auth limiter attempt).2 (history ++ [(attempt, (login auth limiter attempt).1)]) attempt.now := by
  have recent := windowed_recent windowed attempt.address
  rcases login_cases auth limiter attempt with ⟨-, same⟩ | ⟨-, -, same⟩ | ⟨-, role, -, same⟩ <;> rw [same]
  · exact windowed_refused recent
  · exact windowed_failure recent
  · exact windowed_reset recent

/-- Every address that is remembered has a failure in the window. -/
def Filled (limiter : LoginLimiter) (now : Rat) : Prop :=
  ∀ address queue, limiter.failures.get? address = some queue → ∃ t ∈ queue, now - limiter.window < t ∧ t ≤ now

/-- Addresses other than the one asked for are still remembered if they have a
    failure in the window. -/
theorem exists_recent (filled : ∀ queue, limiter.failures.get? address = some queue → queue ≠ [])
    (windowed : Windowed limiter history now) {queue : List Rat}
    (found : (limiter.recent key now).2.failures.get? address = some queue) (other : address ≠ key) :
    ∃ t ∈ queue, now - limiter.window < t ∧ t ≤ now := by
  simp only [LoginLimiter.recent, Dict.get?_set, Dict.get?_setdefault, if_neg other, Dict.get?_filter,
    Option.filter_eq_some_iff] at found
  obtain ⟨known, kept⟩ := found
  have whole : queueOf limiter address = queue := by rw [queueOf, known, Option.getD_some]
  obtain ⟨last, ends⟩ := Option.isSome_iff_exists.mp (List.getLast?_isSome.mpr (filled queue known))
  have inside := List.mem_of_getLast? ends
  exact ⟨last, inside, by simpa [ends] using kept, windowed.queue_past address last (whole ▸ inside)⟩

/-- The recent failures of an address that may not fail again are not empty. -/
theorem exists_own (windowed : Windowed limiter history now) {queue : List Rat}
    (found : (limiter.recent key now).2.failures.get? key = some queue) (filled : 0 < (limiter.recent key now).1.length) :
    ∃ t ∈ queue, now - limiter.window < t ∧ t ≤ now := by
  have own : queueOf (limiter.recent key now).2 key = (limiter.recent key now).1 := by rw [queueOf_recent, if_pos rfl]
  have whole : queueOf (limiter.recent key now).2 key = queue := by rw [queueOf, found, Option.getD_some]
  have past := (windowed_recent windowed key).queue_past key
  have fresh : ∀ t ∈ (limiter.recent key now).1, now - limiter.window < t := fresh_recent (windowed.queue_ordered key)
  rw [← own, whole] at fresh filled
  rw [whole] at past
  obtain ⟨t, member⟩ := List.exists_mem_of_length_pos filled
  exact ⟨t, member, fresh t member, past t member⟩

theorem filled_login {before : Rat} (filled : Filled limiter before) (windowed : Windowed limiter history attempt.now)
    (allowed : 0 < limiter.maxFailures) (lasting : 0 < limiter.window) :
    Filled (login auth limiter attempt).2 attempt.now := by
  have nonempty : ∀ address queue, limiter.failures.get? address = some queue → queue ≠ [] := by
    intro address queue known
    obtain ⟨t, member, -⟩ := filled address queue known
    exact List.ne_nil_of_mem member
  have others : ∀ address queue, (limiter.recent attempt.address attempt.now).2.failures.get? address = some queue →
      address ≠ attempt.address → ∃ t ∈ queue, attempt.now - limiter.window < t ∧ t ≤ attempt.now :=
    fun address queue found other => exists_recent (nonempty address) windowed found other
  intro address queue found
  rw [(login_settings auth limiter attempt).2]
  rcases login_cases auth limiter attempt with ⟨refused, same⟩ | ⟨-, -, same⟩ | ⟨-, role, -, same⟩ <;> rw [same] at found
  · by_cases here : address = attempt.address
    · subst here
      exact exists_own windowed found (by omega)
    · exact others address queue found here
  · by_cases here : address = attempt.address
    · -- the attempt itself is in the window
      subst here
      have whole : queueOf ((limiter.recent attempt.address attempt.now).2.failure attempt.address attempt.now)
          attempt.address = queue := by rw [queueOf, found, Option.getD_some]
      rw [queueOf_failure, if_pos rfl] at whole
      exact ⟨attempt.now, by simp [← whole], sub_lt_self _ lasting, le_rfl⟩
    · have again : ((limiter.recent attempt.address attempt.now).2.recent attempt.address attempt.now).2.failures.get?
          address = some queue := by simpa [LoginLimiter.failure, Dict.get?_set, here] using found
      refine exists_recent (fun queue known => ?_) (windowed_recent windowed attempt.address) again here
      obtain ⟨t, member, -⟩ := others address queue known here
      exact List.ne_nil_of_mem member
  · simp only [LoginLimiter.reset, Dict.get?_pop] at found
    split at found
    · cases found
    · rename_i other
      exact others address queue found other

end

/-! ### Runs -/

/-- A limiter that remembers nothing. -/
def fresh (maxFailures : Int) (window : Rat) : LoginLimiter := { maxFailures, window }

section
variable {auth : Auth} {maxFailures : Int} {window now : Rat} {attempts : List Attempt} {attempt : Attempt}

/-- Attempts at times that do not decrease. -/
def Ordered (attempts : List Attempt) : Prop := attempts.Pairwise (fun a b => a.now ≤ b.now)

theorem logins_snoc (limiter : LoginLimiter) : logins auth limiter (attempts ++ [attempt]) =
    ((logins auth limiter attempts).1 ++ [(attempt, (login auth (logins auth limiter attempts).2 attempt).1)],
      (login auth (logins auth limiter attempts).2 attempt).2) := by
  rw [logins, List.foldl_append]
  rfl

theorem ordered_snoc (ordered : Ordered (attempts ++ [attempt])) :
    Ordered attempts ∧ ∀ a ∈ attempts, a.now ≤ attempt.now := by
  obtain ⟨first, -, last⟩ := List.pairwise_append.mp ordered
  exact ⟨first, fun a member => last a member attempt (by simp)⟩

theorem logins_settings (limiter : LoginLimiter) : (logins auth limiter attempts).2.maxFailures = limiter.maxFailures ∧
    (logins auth limiter attempts).2.window = limiter.window := by
  induction attempts using List.reverseRecOn with
  | nil => exact ⟨rfl, rfl⟩
  | append_singleton attempts attempt ih =>
    rw [logins_snoc]
    exact ⟨(login_settings ..).1.trans ih.1, (login_settings ..).2.trans ih.2⟩

theorem windowed_logins (ordered : Ordered attempts) (past : ∀ a ∈ attempts, a.now ≤ now) :
    Windowed (logins auth (fresh maxFailures window) attempts).2 (logins auth (fresh maxFailures window) attempts).1 now := by
  induction attempts using List.reverseRecOn generalizing now with
  | nil => exact ⟨fun _ => .nil, fun _ _ member => (nomatch member), fun _ => pruned_refl []⟩
  | append_singleton attempts attempt ih =>
    obtain ⟨first, before⟩ := ordered_snoc ordered
    rw [logins_snoc]
    exact (windowed_login (ih first before)).mono (past attempt (by simp))

theorem filled_logins (allowed : 0 < maxFailures) (lasting : 0 < window) (ordered : Ordered (attempts ++ [attempt])) :
    Filled (logins auth (fresh maxFailures window) (attempts ++ [attempt])).2 attempt.now := by
  induction attempts using List.reverseRecOn generalizing attempt with
  | nil =>
    have none : Filled (fresh maxFailures window) attempt.now := fun _ _ found => (nomatch found)
    have windowed : Windowed (fresh maxFailures window) [] attempt.now :=
      @windowed_logins auth maxFailures window attempt.now [] .nil (by simp)
    exact filled_login none windowed allowed lasting
  | append_singleton attempts earlier ih =>
    obtain ⟨first, before⟩ := ordered_snoc ordered
    rw [logins_snoc]
    exact filled_login (ih first) (windowed_logins first before)
      (by rw [(logins_settings _).1]; exact allowed) (by rw [(logins_settings _).2]; exact lasting)

/-- Every attempt comes to what the window alone says. -/
theorem history_snoc (ordered : Ordered (attempts ++ [attempt])) :
    (logins auth (fresh maxFailures window) (attempts ++ [attempt])).1 =
      (logins auth (fresh maxFailures window) attempts).1 ++ [(attempt,
        expected auth maxFailures window (logins auth (fresh maxFailures window) attempts).1 attempt)] := by
  obtain ⟨first, before⟩ := ordered_snoc ordered
  have windowed : Windowed _ (logins auth (fresh maxFailures window) attempts).1 attempt.now := windowed_logins first before
  rw [logins_snoc, login_expected windowed, (logins_settings _).1, (logins_settings _).2]
  rfl

/-- Logins of other addresses do not matter to the window of an address. -/
theorem sinceSuccess_filter (address : String) (history : History) :
    sinceSuccess address (history.filter (fun e => e.1.address = address)) = sinceSuccess address history := by
  induction history using List.reverseRecOn with
  | nil => rfl
  | append_singleton history entry ih =>
    obtain ⟨attempt, outcome⟩ := entry
    by_cases here : attempt.address = address
    · rw [List.filter_append, List.filter_cons_of_pos (by simpa using here), List.filter_nil, sinceSuccess_snoc,
        sinceSuccess_snoc, ih]
    · rw [List.filter_append, List.filter_cons_of_neg (by simpa using here), List.filter_nil, List.append_nil, ih,
        sinceSuccess_snoc, if_pos here]

/-- The attempts of an address come to what they would come to without all others. -/
theorem history_filter (ordered : Ordered attempts) (address : String) :
    (logins auth (fresh maxFailures window) attempts).1.filter (fun e => e.1.address = address) =
      (logins auth (fresh maxFailures window) (attempts.filter (fun a => a.address = address))).1 := by
  induction attempts using List.reverseRecOn with
  | nil => rfl
  | append_singleton attempts attempt ih =>
    have tail := ih (ordered_snoc ordered).1
    rw [history_snoc ordered, List.filter_append, List.filter_append, tail]
    by_cases here : attempt.address = address
    · subst here
      have sublist : (attempts.filter (fun a => a.address = attempt.address) ++ [attempt]).Sublist
          (attempts ++ [attempt]) := List.filter_sublist.append_right _
      have own : Ordered (attempts.filter (fun a => a.address = attempt.address) ++ [attempt]) := ordered.sublist sublist
      rw [List.filter_cons_of_pos (by simp), List.filter_cons_of_pos (by simp), List.filter_nil, List.filter_nil,
        history_snoc own, ← tail, expected, expected, sinceSuccess_filter]
    · rw [List.filter_cons_of_neg (by simpa using here), List.filter_cons_of_neg (by simpa using here), List.filter_nil,
        List.filter_nil, List.append_nil, List.append_nil]

theorem within_snoc (t s : Rat) (times : List Rat) : within window t (times ++ [s]) =
    within window t times ++ if t - window < s ∧ s ≤ t then [s] else [] := by
  by_cases inside : t - window < s ∧ s ≤ t <;> simp [within, inside]

/-- A later window reaches back less far. -/
theorem length_within_le {t : Rat} {times : List Rat} (past : ∀ s ∈ times, s ≤ now) (onward : now ≤ t) :
    (within window t times).length ≤ (within window now times).length := by
  rw [within, within, ← List.countP_eq_length_filter, ← List.countP_eq_length_filter]
  refine List.countP_mono_left fun s member inside => decide_eq_true ⟨?_, past s member⟩
  exact (sub_le_sub_right onward window).trans_lt (of_decide_eq_true inside).1

/-- No window holds more wrong passwords of an address than are allowed. -/
theorem within_le (ordered : Ordered attempts) (address : String) (t : Rat) :
    (within window t (sinceSuccess address (logins auth (fresh maxFailures window) attempts).1)).length ≤
      maxFailures.toNat := by
  induction attempts using List.reverseRecOn generalizing t with
  | nil => exact Nat.zero_le _
  | append_singleton attempts attempt ih =>
    obtain ⟨first, before⟩ := ordered_snoc ordered
    have earlier := ih first
    have windowed : Windowed _ (logins auth (fresh maxFailures window) attempts).1 attempt.now :=
      windowed_logins first before
    rw [history_snoc ordered, sinceSuccess_snoc]
    split
    · exact earlier t
    rename_i here
    obtain rfl : attempt.address = address := not_not.mp here
    rw [expected]
    by_cases full : maxFailures ≤ (within window attempt.now
        (sinceSuccess attempt.address (logins auth (fresh maxFailures window) attempts).1)).length
    · rw [if_pos full]
      exact earlier t
    rw [if_neg full]
    cases checkPassword auth attempt.password with
    | some role => exact Nat.zero_le _
    | none =>
      -- the window at the attempt itself was not full, and no later one reaches further back
      rw [within_snoc]
      split
      · rename_i inside
        have shorter := @length_within_le window _ _ _ (windowed.past attempt.address) inside.2
        simp only [List.length_append, List.length_singleton]
        omega
      · rw [List.append_nil]
        exact earlier t

/-- What an attempt after a history comes to, and what is remembered then: it is
    refused exactly when the window is full, and its password decides otherwise. -/
structure Exact (auth : Auth) (maxFailures : Int) (window : Rat) (history : History) (attempt : Attempt)
    (answer : Outcome × LoginLimiter) : Prop where
  refused : answer.1 = .refused ↔
    maxFailures ≤ (within window attempt.now (sinceSuccess attempt.address history)).length
  checked : answer.1 ≠ .refused → (answer.1 = .wrong ↔ checkPassword auth attempt.password = none)
  filled : 0 < maxFailures → 0 < window → Filled answer.2 attempt.now

theorem exact_login (ordered : Ordered (attempts ++ [attempt])) :
    Exact auth maxFailures window (logins auth (fresh maxFailures window) attempts).1 attempt
      (login auth (logins auth (fresh maxFailures window) attempts).2 attempt) := by
  obtain ⟨first, past⟩ := ordered_snoc ordered
  have windowed : Windowed _ (logins auth (fresh maxFailures window) attempts).1 attempt.now := windowed_logins first past
  have same := @login_expected _ _ auth _ windowed
  rw [(logins_settings _).1, (logins_settings _).2] at same
  constructor
  case refused =>
    rw [same, expected]
    split
    · rename_i full
      exact ⟨fun _ => full, fun _ => rfl⟩
    · rename_i few
      refine ⟨fun refused => ?_, fun full => absurd full few⟩
      cases checked : checkPassword auth attempt.password <;> rw [checked] at refused <;> cases refused
  case checked =>
    rw [same, expected]
    split
    · exact fun impossible => absurd rfl impossible
    · intro _
      cases checkPassword auth attempt.password <;> simp
  case filled =>
    intro allowed lasting
    have filled := @filled_logins auth _ _ _ _ allowed lasting ordered
    rwa [logins_snoc] at filled

/-- The login limiter is an exact sliding window: over every sequence of attempts
    each is answered by the window alone, no window takes more wrong passwords than
    are allowed, and addresses do not influence one another. -/
theorem limiter_sliding_window (auth : Auth) (maxFailures : Int) (window : Rat) (attempts : List Attempt)
    (ordered : Ordered attempts) :
    (∀ before attempt after, attempts = before ++ attempt :: after →
      Exact auth maxFailures window (logins auth (fresh maxFailures window) before).1 attempt
        (login auth (logins auth (fresh maxFailures window) before).2 attempt)) ∧
    (∀ before after, attempts = before ++ after → ∀ address t,
      (within window t (sinceSuccess address (logins auth (fresh maxFailures window) before).1)).length ≤
        maxFailures.toNat) ∧
    ∀ address, (logins auth (fresh maxFailures window) attempts).1.filter (fun e => e.1.address = address) =
      (logins auth (fresh maxFailures window) (attempts.filter (fun a => a.address = address))).1 := by
  refine ⟨?_, ?_, history_filter ordered⟩
  · rintro before attempt after rfl
    exact exact_login (ordered.sublist (by simp))
  · rintro before after rfl address t
    exact within_le (ordered.sublist (List.sublist_append_left before after)) address t

/-- Two failures are allowed in a minute: the third attempt of the first address is
    refused, and a right password from the other one is not. -/
def visitors : List Attempt :=
  [⟨"10.0.0.1", 100, "guess"⟩, ⟨"10.0.0.1", 110, "again"⟩, ⟨"10.0.0.2", 115, "admin-password"⟩,
    ⟨"10.0.0.1", 120, "admin-password"⟩]

theorem limiter_sliding_window_visitors :
    (logins adminOnly (fresh 2 60) visitors).1.map Prod.snd = [.wrong, .wrong, .loggedIn .admin, .refused] ∧
    (∀ before attempt after, visitors = before ++ attempt :: after →
      Exact adminOnly 2 60 (logins adminOnly (fresh 2 60) before).1 attempt
        (login adminOnly (logins adminOnly (fresh 2 60) before).2 attempt)) := by
  have ordered : Ordered visitors := by unfold Ordered visitors; decide +kernel
  exact ⟨by decide +kernel, (limiter_sliding_window adminOnly 2 60 visitors ordered).1⟩

end

end ScanApi.Logins
