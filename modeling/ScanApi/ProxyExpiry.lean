import ScanApi.Telegram

/-!
Reminders about proxies that expire (`app/proxies.py`, `app/notify_format.py`,
`app/runtime_settings.py` and `mask` of `bank_api_parser/proxy.py`). Moments are
microseconds; the Moscow time zone and the splitting of URLs are libraries.
-/
namespace ScanApi.ProxyExpiry
open ScanApi.NotifyFormat ScanApi.Telegram
open ScanApi.Settings (twoDigits)

/-! ### Dates -/

structure LocalDate where
  year : Nat
  month : Fin 13
  day : Fin 32
deriving DecidableEq, Repr

def isLeap (year : Nat) : Bool := year % 4 = 0 && (year % 100 ≠ 0 || year % 400 = 0)

def daysBeforeMonth (year : Nat) (month : Fin 13) : Nat :=
  [0, 0, 31, 59, 90, 120, 151, 181, 212, 243, 273, 304, 334].getD month 0 + if 2 < month.val ∧ isLeap year then 1 else 0

/-- `date.toordinal()`. -/
def LocalDate.ordinal (d : LocalDate) : Int :=
  let y := d.year - 1
  y * 365 + y / 4 - y / 100 + y / 400 + daysBeforeMonth d.year d.month + d.day

/-- `strftime("%d.%m.%Y")`. -/
def LocalDate.text (d : LocalDate) : Chars :=
  twoDigits d.day ++ '.' :: twoDigits d.month ++ '.' :: (toString d.year).toList

/-- A day in microseconds. -/
def day : Int := 86400000000

/-- The date of a moment in Moscow. -/
abbrev Zone := Int → LocalDate

/-! ### Proxies -/

structure Proxy where
  id : Int
  url : Chars
  label : Chars
  expiresAt : Option Int
  expiryNotifiedAt : Option Int
deriving DecidableEq, Repr

/-- A proxy whose expiry is known. -/
structure DueProxy where
  id : Int
  url : Chars
  label : Chars
  expiresAt : Int
deriving DecidableEq, Repr

/-- The table of proxies, by its primary key. -/
structure ProxyTable where
  rows : List Proxy
  distinct : (rows.map Proxy.id).Nodup

def warnDays : Int := 3

/-- Moscow calendar days until expiry; negative once expired. -/
def daysLeft (zone : Zone) (expiresAt : Option Int) (now : Int) : Option Int :=
  expiresAt.map (fun expiry =>
    if expiry ≤ now then min (-1) ((expiry - now) / day) else (zone expiry).ordinal - (zone now).ordinal)

/-- The entry of a proxy that expires soon, or has, and that nobody was told about. -/
def dueEntry (now : Int) (row : Proxy) : Option DueProxy :=
  match row.expiresAt with
  | none => none
  | some expiry =>
    if expiry ≤ now + warnDays * day ∧ row.expiryNotifiedAt = none then some ⟨row.id, row.url, row.label, expiry⟩ else none

def expiring (rows : List Proxy) (now : Int) : List DueProxy := rows.filterMap (dueEntry now)

/-! ### The message -/

/-- What `urlsplit` finds in the address of a stored proxy, whose port is a number. -/
structure UrlParts where
  username : Option Chars
  password : Option Chars
  hostname : Option Chars
  port : Option Nat

/-- `urllib.parse`: the parts of a URL, and the URL with another network location. -/
structure Urlsplit where
  split : Chars → UrlParts
  withNetloc : Chars → Chars → Chars

/-- The URL with the password replaced by `***`. -/
def mask (urllib : Urlsplit) (url : Chars) : Chars :=
  let parts := urllib.split url
  if parts.password = none then url
  else
    let host := parts.hostname.getD []
    let port := parts.port.getD 0
    urllib.withNetloc url (parts.username.getD "None".toList ++ ":***@".toList ++ host ++
      if port ≠ 0 then ':' :: (toString port).toList else [])

def maxProxiesListed : Nat := 30

def proxyLine (zone : Zone) (urllib : Urlsplit) (now : Int) (row : DueProxy) : Chars :=
  let left := daysLeft zone (some row.expiresAt) now
  let date := (zone row.expiresAt).text
  let state := if left.any (· < 0) then "истёк".toList else "истекает ".toList ++ date
  let label := if row.label ≠ [] then " (".toList ++ escape (clip row.label 60) ++ ")".toList else []
  "• <code>".toList ++ escape (clip (mask urllib row.url) 120) ++ "</code>".toList ++ label ++ " — ".toList ++ state

/-- The lines of the message: only the first proxies are listed. -/
def proxyExpiryLines (zone : Zone) (urllib : Urlsplit) (rows : List DueProxy) (now : Int) : List Chars :=
  "⏳ <b>Прокси скоро истекают</b>".toList :: (rows.take maxProxiesListed).map (proxyLine zone urllib now) ++
    (if maxProxiesListed < rows.length then
      ["…и ещё ".toList ++ (toString (rows.length - maxProxiesListed)).toList] else []) ++
    ["Продлите или замените их в «Настройках».".toList]

def formatProxyExpiry (zone : Zone) (urllib : Urlsplit) (rows : List DueProxy) (now : Int) : Chars :=
  ['\n'].intercalate (proxyExpiryLines zone urllib rows now)

/-! ### The reminder -/

/-- `UPDATE proxies SET expiry_notified_at = NOW() WHERE id = ANY(ids)`. -/
def markExpiryNotified (ids : List Int) (stamp : Int) (table : ProxyTable) : ProxyTable where
  rows := table.rows.map (fun row => if row.id ∈ ids then { row with expiryNotifiedAt := some stamp } else row)
  distinct := by
    have same : Proxy.id ∘ (fun row : Proxy => if row.id ∈ ids then { row with expiryNotifiedAt := some stamp } else row) =
        Proxy.id := by
      funext row
      simp only [Function.comp]
      split <;> rfl
    rw [List.map_map, same]
    exact table.distinct

/-- What a reminder finds around it: the libraries, and what Telegram and the database do. -/
structure Evening where
  zone : Zone
  urllib : Urlsplit
  answers : Nat → Answer
  removal : Int → Option DbError
  now : Int
  /-- `NOW()` of the database. -/
  stamp : Int

/-- One admin message about the proxies that expire soon; returns the table as it is then. -/
def notifyExpiring (evening : Evening) (notifier : Option TelegramBot) (table : ProxyTable) : Delivery ProxyTable :=
  match notifier with
  | none => pure table
  | some bot =>
    let due := expiring table.rows evening.now
    if due = [] then pure table
    else do
      sendAdmin bot evening.removal evening.answers (formatProxyExpiry evening.zone evening.urllib due evening.now)
      pure (markExpiryNotified (due.map DueProxy.id) evening.stamp table)

end ScanApi.ProxyExpiry
