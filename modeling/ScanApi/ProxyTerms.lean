import ScanApi.ProxyExpiry

/-!
When a proxy is expired. The parsers leave it out (`usable_urls`), the dashboard
greys it (`isUsable` of `useProxies.ts`) and the reminder says so (`_proxy_line`).
The first one compares moments, the others read `days_left`, which counts calendar
days before the expiry and whole days since it.
-/
namespace ScanApi.ProxyTerms
open ScanApi.NotifyFormat ScanApi.ProxyExpiry

/-- The addresses of the proxies that the parsers may use. -/
def usableUrls (rows : List Proxy) (now : Int) : List Chars :=
  (rows.filter (fun row => row.expiresAt.all (now < ·))).map Proxy.url

/-- `isUsable` of the dashboard, on the `days_left` of the proxy. -/
def isUsable (daysLeft : Option Int) : Bool := daysLeft.all (0 ≤ ·)

/-- The reminder's line about a proxy; without an expiry there is no date to write. -/
def lineOf (zone : Zone) (urllib : Urlsplit) (now : Int) (row : Proxy) : Option Chars :=
  row.expiresAt.map (fun expiry => proxyLine zone urllib now ⟨row.id, row.url, row.label, expiry⟩)

/-- The line ends by calling the proxy expired. -/
def CalledExpired (line : Chars) : Prop := " — истёк".toList <:+ line

/-- Later moments have no earlier dates. -/
def Calendar (zone : Zone) : Prop := ∀ t t' : Int, t ≤ t' → (zone t).ordinal ≤ (zone t').ordinal

variable {zone : Zone} {expiry now later : Int}

/-- Days are left until the expiry, and not from then on. -/
theorem daysLeft_neg (calendar : Calendar zone) :
    (daysLeft zone (some expiry) now).any (· < 0) = true ↔ expiry ≤ now := by
  rw [daysLeft, Option.map_some, Option.any_some, decide_eq_true_eq]
  by_cases past : expiry ≤ now
  · simp only [past, if_true, iff_true]
    exact lt_of_le_of_lt (min_le_left _ _) (by decide)
  · have onward := calendar now expiry (by omega)
    simp only [past, if_false, iff_false]
    omega

theorem isUsable_daysLeft (calendar : Calendar zone) (expiresAt : Option Int) :
    isUsable (daysLeft zone expiresAt now) = expiresAt.all (now < ·) := by
  cases expiresAt with
  | none => rfl
  | some expiry =>
    have past := @daysLeft_neg zone expiry now calendar
    rw [daysLeft, Option.map_some] at past ⊢
    rw [Option.any_some, decide_eq_true_eq] at past
    rw [isUsable, Option.all_some, Option.all_some, decide_eq_decide]
    omega

/-- Time goes on, and no more days are left. -/
theorem daysLeft_antitone (calendar : Calendar zone) (onward : now ≤ later) (expiresAt : Option Int) :
    ∀ before ∈ daysLeft zone expiresAt now, ∀ after ∈ daysLeft zone expiresAt later, after ≤ before := by
  cases expiresAt with
  | none => intro before impossible; cases impossible
  | some expiry =>
    intro before first after second
    have passed := @daysLeft_neg zone expiry now calendar
    have passes := @daysLeft_neg zone expiry later calendar
    rw [first, Option.any_some, decide_eq_true_eq] at passed
    rw [second, Option.any_some, decide_eq_true_eq] at passes
    by_cases was : expiry ≤ now
    · rw [daysLeft, Option.map_some, if_pos was] at first
      rw [daysLeft, Option.map_some, if_pos (was.trans onward)] at second
      obtain rfl := Option.some.inj first
      obtain rfl := Option.some.inj second
      exact min_le_min_left _ (Int.ediv_le_ediv (by decide) (by omega))
    · by_cases past : expiry ≤ later
      -- The expiry lies between the two moments.
      · omega
      · have dates := calendar now later onward
        rw [daysLeft, Option.map_some, if_neg was] at first
        rw [daysLeft, Option.map_some, if_neg past] at second
        obtain rfl := Option.some.inj first
        obtain rfl := Option.some.inj second
        omega

/-- A date ends with a digit. -/
theorem getLast?_text (date : LocalDate) : ∃ c, date.text.getLast? = some c ∧ c.isDigit = true := by
  have digits : (toString date.year).toList ≠ [] := by simp
  obtain ⟨c, last⟩ : ∃ c, (toString date.year).toList.getLast? = some c := ⟨_, List.getLast?_eq_some_getLast digits⟩
  have member := List.mem_of_getLast? last
  refine ⟨c, ?_, Nat.isDigit_of_mem_toDigits (b := 10) (by decide) (by decide) (by simpa using member)⟩
  rw [LocalDate.text, List.getLast?_append, List.getLast?_cons, List.getLast?_append, List.getLast?_cons, last]
  rfl

/-- A line that does not call the proxy expired ends with a date. -/
theorem calledExpired_proxyLine (zone : Zone) (urllib : Urlsplit) (now : Int) (row : DueProxy) :
    CalledExpired (proxyLine zone urllib now row) ↔ (daysLeft zone (some row.expiresAt) now).any (· < 0) = true := by
  unfold proxyLine
  dsimp only
  cases past : (daysLeft zone (some row.expiresAt) now).any (· < 0) with
  | true =>
    rw [if_pos rfl, List.append_assoc]
    exact ⟨fun _ => rfl, fun _ => List.suffix_append _ _⟩
  | false =>
    obtain ⟨c, last, digit⟩ := getLast?_text (zone row.expiresAt)
    refine ⟨fun called => ?_, fun impossible => (by cases impossible)⟩
    obtain ⟨before, same⟩ := called
    have ends := congrArg List.getLast? same
    rw [if_neg Bool.false_ne_true, List.getLast?_append, List.getLast?_append, List.getLast?_append, last] at ends
    obtain rfl : 'к' = c := Option.some.inj ends
    exact absurd digit (by decide)

/-- The parsers use exactly the proxies that the dashboard shows as usable, the
    reminder calls exactly the others expired, and no day is ever gained. -/
theorem expired_agree (zone : Zone) (calendar : Calendar zone) :
    (∀ rows now, usableUrls rows now =
      (rows.filter (fun row => isUsable (daysLeft zone row.expiresAt now))).map Proxy.url) ∧
    (∀ urllib now row, (∃ line ∈ lineOf zone urllib now row, CalledExpired line) ↔
      (daysLeft zone row.expiresAt now).any (· < 0) = true) ∧
    ∀ expiresAt now later, now ≤ later →
      ∀ before ∈ daysLeft zone expiresAt now, ∀ after ∈ daysLeft zone expiresAt later, after ≤ before := by
  refine ⟨fun rows now => ?_, fun urllib now row => ?_, fun expiresAt now later onward => daysLeft_antitone calendar onward _⟩
  · simp only [usableUrls, isUsable_daysLeft calendar]
  · rw [lineOf]
    cases expiresAt : row.expiresAt with
    | none => simp [daysLeft]
    | some expiry =>
      rw [← calledExpired_proxyLine zone urllib now ⟨row.id, row.url, row.label, expiry⟩]
      simp

/-- Midnight in Moscow, between the 22nd and the 23rd of September 2026. -/
def midnight : Int := 1790110800000000

def hour : Int := 3600000000

/-- The dates around that midnight. -/
def moscow : Zone := fun t => if t < midnight then ⟨2026, 9, 22⟩ else ⟨2026, 9, 23⟩

theorem calendar_moscow : Calendar moscow := by
  intro t t' onward
  have dates : (⟨2026, 9, 22⟩ : LocalDate).ordinal ≤ (⟨2026, 9, 23⟩ : LocalDate).ordinal := by decide
  rw [moscow, moscow]
  split
  · split
    · exact le_refl _
    · exact dates
  · rw [if_neg (by omega)]

/-- An address without a password. -/
def plainUrl : Urlsplit where
  split url := ⟨none, none, some (url.drop 7), none⟩
  withNetloc url _ := url

/-- A proxy that expires one hour after midnight. -/
def nightProxy : Proxy := ⟨1, "http://10.0.0.5".toList, [], some (midnight + hour), none⟩

/-- Two hours before its expiry it has a day left and is used; then it is expired. -/
theorem expired_agree_night :
    daysLeft moscow nightProxy.expiresAt (midnight - hour) = some 1 ∧
    usableUrls [nightProxy] (midnight - hour) = ["http://10.0.0.5".toList] ∧
    (∃ line ∈ lineOf moscow plainUrl (midnight + hour) nightProxy, CalledExpired line) := by
  obtain ⟨used, called, -⟩ := expired_agree moscow calendar_moscow
  refine ⟨by decide, ?_, (called _ _ _).mpr (by decide)⟩
  rw [used]
  decide

end ScanApi.ProxyTerms
