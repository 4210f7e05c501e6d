import Mathlib.Algebra.GroupWithZero.Nat
import ScanApi.Dict
import ScanApi.EventLog
import ScanApi.Unicode

/-!
The settings an admin edits (`app/runtime_settings.py`, `app/settings_repo.py`),
the time of the daily parse (`app/scheduler.py`), and `PUT /settings`
(`app/admin_api.py`) as what a request does between two awaits: it reads the
rows, writes both of them back, and moves the schedule.
-/
namespace ScanApi.Settings
open ScanApi.Python ScanApi.Unicode ScanApi.EventLog

/-! ### Times of day -/

instance neZero24 : NeZero 24 := ⟨by decide⟩

instance neZero60 : NeZero 60 := ⟨by decide⟩

structure Clock where
  hour : Fin 24
  minute : Fin 60
deriving DecidableEq, Repr

/-- `f"{n:02d}"`. -/
def twoDigits (n : Nat) : List Char := [(n / 10).digitChar, (n % 10).digitChar]

/-- `f"{hour:02d}:{minute:02d}"`. -/
def Clock.text (clock : Clock) : String := String.ofList (twoDigits clock.hour ++ ':' :: twoDigits clock.minute)

def digit (unicode : CharTables) (c : Char) : Option (Fin 10) :=
  match found : unicode.decimal c with
  | some n => some ⟨n, unicode.decimal_lt c n found⟩
  | none => none

/-- `[01]?\\d|2[0-3]`: the tens are ASCII, the last digit may be of any alphabet. -/
def hourOf (unicode : CharTables) : List Char → Option (Fin 24)
  | [d] => (digit unicode d).map (Fin.castLE (by decide))
  | ['0', d] => (digit unicode d).map (Fin.castLE (by decide))
  | ['1', d] => (digit unicode d).map (fun n => (Fin.natAdd 10 n).castLE (by decide))
  | ['2', '0'] => some 20
  | ['2', '1'] => some 21
  | ['2', '2'] => some 22
  | ['2', '3'] => some 23
  | _ => none

/-- `[0-5]\\d`. -/
def minuteOf (unicode : CharTables) : List Char → Option (Fin 60)
  | [t, d] =>
    if tens : 48 ≤ t.toNat ∧ t.toNat < 54 then
      (digit unicode d).map (fun n : Fin 10 => ⟨10 * (t.toNat - 48) + n.val, by have := n.isLt; omega⟩)
    else none
  | _ => none

/-- `parse_time(text)`: `ValueError` unless the text is `HH:MM`. -/
def parseTime (unicode : CharTables) (text : String) : Except PyError Clock :=
  match (strip unicode text.toList).splitOn ':' with
  | [hours, minutes] => match hourOf unicode hours, minuteOf unicode minutes with
    | some hour, some minute => .ok ⟨hour, minute⟩
    | _, _ => .error .valueError
  | _ => .error .valueError

def defaultTime : Clock := ⟨10, 0⟩

/-! ### Stored settings -/

structure RuntimeSettings where
  schedulerTime : String
  proxyEnabled : Bool
deriving DecidableEq, Repr

def keyTime : String := "scheduler_time"
def keyProxy : String := "proxy_enabled"

/-- The table `app_settings`. -/
abbrev Rows := Dict String String

def fromRows (unicode : CharTables) (rows : Rows) (default : String) : RuntimeSettings where
  schedulerTime := match parseTime unicode ((rows.get? keyTime).getD default) with
    | .ok clock => clock.text
    | .error _ => default
  proxyEnabled := rows.get? keyProxy = some "true"

def boolText (value : Bool) : String := if value then "true" else "false"

def toRows (settings : RuntimeSettings) : List (String × String) :=
  [(keyTime, settings.schedulerTime), (keyProxy, boolText settings.proxyEnabled)]

/-- `put_settings(conn, values)`: all rows or, where the statement fails, none. -/
def putRows (rows : Rows) (values : List (String × String)) : Rows := values.foldl (fun d e => d.set e.1 e.2) rows

/-! ### The application -/

/-- What requests share: the stored rows, the time of the schedule, and the journal. -/
structure Server where
  rows : Rows
  time : Clock
  journal : List Event := []

/-- `Scheduler(runner, scheduler_time)`: a bad time gives the built-in one. -/
def scheduled (unicode : CharTables) (schedulerTime : String) : Clock :=
  (parseTime unicode schedulerTime).toOption.getD defaultTime

/-- The application after it started over what is stored. -/
def started (unicode : CharTables) (default : String) (rows : Rows) : Server where
  rows
  time := scheduled unicode (fromRows unicode rows default).schedulerTime

/-- The body of `PUT /settings`; a time is a valid one, and stands for its text. -/
structure SettingsPatch where
  schedulerTime : Option Clock := none
  proxyEnabled : Option Bool := none
deriving DecidableEq, Repr

/-- The body that a request may carry: at most five characters of time, which must
    be one; anything else is answered with 422. -/
def SettingsPatch.validate (unicode : CharTables) (schedulerTime : Option String) (proxyEnabled : Option Bool) :
    Except PyError SettingsPatch :=
  match schedulerTime with
  | none => .ok { proxyEnabled }
  | some text =>
    if 5 < text.length then .error .valueError
    else (parseTime unicode text).map (fun clock => { schedulerTime := some clock, proxyEnabled })

/-- The settings with the fields of the patch. -/
def SettingsPatch.apply (patch : SettingsPatch) (current : RuntimeSettings) : RuntimeSettings where
  schedulerTime := (patch.schedulerTime.map Clock.text).getD current.schedulerTime
  proxyEnabled := patch.proxyEnabled.getD current.proxyEnabled

/-- Why a request ends without an answer. -/
inductive PutError
  /-- The database did not answer. -/
  | connection
  /-- The schedule refused the time. -/
  | valueError
deriving DecidableEq, Repr

/-- Where a request is. -/
inductive Stage
  | arrived
  | loaded (current : RuntimeSettings)
  | stored (current updated : RuntimeSettings)
  | completed (updated : RuntimeSettings)
  | failed (error : PutError)
deriving DecidableEq, Repr

/-- What a request does next: a database operation, which may be lost, or the
    comparison with the schedule and its move. -/
inductive Action
  | read
  | write
  | reschedule
  | lose
deriving DecidableEq, Repr

def Server.record (server : Server) (message : String) : Server :=
  { server with journal := server.journal ++ [⟨.info, .settings, message⟩] }

/-- The end of `put_settings`, after its write: the schedule moves, and what changed
    goes to the journal. -/
def finish (unicode : CharTables) (current updated : RuntimeSettings) (server : Server) : Server × Stage :=
  let reported (server : Server) : Server :=
    if updated.proxyEnabled ≠ current.proxyEnabled then
      server.record (if updated.proxyEnabled then "Прокси для парсинга включены"
        else "Прокси для парсинга выключены — банки опрашиваются напрямую")
    else server
  if updated.schedulerTime ≠ server.time.text then
    match parseTime unicode updated.schedulerTime with
    | .ok time =>
      let moved := { server with time }.record
        ("Время ежедневного парсинга изменено с " ++ server.time.text ++ " на " ++ updated.schedulerTime ++ " МСК")
      (reported moved, .completed updated)
    | .error _ => (server, .failed .valueError)
  else (reported server, .completed updated)

/-- One action of a request at its stage. -/
def act (unicode : CharTables) (default : String) (patch : SettingsPatch) :
    Action → Server × Stage → Option (Server × Stage)
  | .read, (server, .arrived) => some (server, .loaded (fromRows unicode server.rows default))
  | .write, (server, .loaded current) =>
    let updated := patch.apply current
    some ({ server with rows := putRows server.rows (toRows updated) }, .stored current updated)
  | .reschedule, (server, .stored current updated) => some (finish unicode current updated server)
  | .lose, (server, .arrived) => some (server, .failed .connection)
  | .lose, (server, .loaded _) => some (server, .failed .connection)
  | _, _ => none

/-! ### What an action can do -/

theorem act_cases {unicode : CharTables} {default : String} {patch : SettingsPatch} {action : Action}
    {server server' : Server} {stage stage' : Stage}
    (acted : act unicode default patch action (server, stage) = some (server', stage')) :
    (action = .read ∧ stage = .arrived ∧ server' = server ∧ stage' = .loaded (fromRows unicode server.rows default)) ∨
    (∃ current, action = .write ∧ stage = .loaded current ∧
      server' = { server with rows := putRows server.rows (toRows (patch.apply current)) } ∧
      stage' = .stored current (patch.apply current)) ∨
    (∃ current updated, action = .reschedule ∧ stage = .stored current updated ∧
      (server', stage') = finish unicode current updated server) ∨
    (action = .lose ∧ (stage = .arrived ∨ ∃ current, stage = .loaded current) ∧ server' = server ∧
      stage' = .failed .connection) := by
  cases stage with
  | arrived =>
    cases action <;> cases acted
    · exact .inl ⟨rfl, rfl, rfl, rfl⟩
    · exact .inr (.inr (.inr ⟨rfl, .inl rfl, rfl, rfl⟩))
  | loaded current =>
    cases action <;> cases acted
    · exact .inr (.inl ⟨current, rfl, rfl, rfl, rfl⟩)
    · exact .inr (.inr (.inr ⟨rfl, .inr ⟨current, rfl⟩, rfl, rfl⟩))
  | stored current updated =>
    cases action with
    | reschedule => exact .inr (.inr (.inl ⟨current, updated, rfl, rfl, (Option.some.inj acted).symm⟩))
    | read | write | lose => cases acted
  | completed updated => cases action <;> cases acted
  | failed error => cases action <;> cases acted

theorem finish_rows {unicode : CharTables} {current updated : RuntimeSettings} {server : Server} :
    (finish unicode current updated server).1.rows = server.rows := by
  unfold finish
  split_ifs <;> (try split) <;> rfl

/-! ### A written time is read back -/

variable {unicode : CharTables}

theorem digit_digitChar (n : Fin 10) : digit unicode n.val.digitChar = some n := by
  have known : unicode.decimal n.val.digitChar = some n.val := decimal_digitChar n.isLt
  unfold digit
  split
  · rename_i m found
    rw [known] at found
    cases found
    rfl
  · rename_i missing
    rw [known] at missing
    cases missing

theorem hourOf_twoDigits (hour : Fin 24) : hourOf unicode (twoDigits hour) = some hour := by
  obtain ⟨h, small⟩ := hour
  have last : digit unicode (h % 10).digitChar = some ⟨h % 10, _⟩ := digit_digitChar ⟨h % 10, Nat.mod_lt h (by decide)⟩
  have tens : h / 10 = 0 ∨ h / 10 = 1 ∨ h / 10 = 2 := by omega
  rcases tens with zero | one | two
  · have whole : h % 10 = h := by omega
    simp only [twoDigits, zero]
    change (digit unicode (h % 10).digitChar).map _ = _
    rw [last]
    exact congrArg some (Fin.ext whole)
  · have whole : 10 + h % 10 = h := by omega
    simp only [twoDigits, one]
    change (digit unicode (h % 10).digitChar).map _ = _
    rw [last]
    exact congrArg some (Fin.ext whole)
  · have units : h = 20 ∨ h = 21 ∨ h = 22 ∨ h = 23 := by omega
    rcases units with rfl | rfl | rfl | rfl
    all_goals
      simp only [twoDigits]
      rfl

theorem minuteOf_twoDigits (minute : Fin 60) : minuteOf unicode (twoDigits minute) = some minute := by
  obtain ⟨m, small⟩ := minute
  have last : digit unicode (m % 10).digitChar = some ⟨m % 10, _⟩ := digit_digitChar ⟨m % 10, Nat.mod_lt m (by decide)⟩
  have code : (m / 10).digitChar.toNat = 48 + m / 10 := Nat.toNat_digitChar_of_lt_ten (by omega)
  have tens : 48 ≤ (m / 10).digitChar.toNat ∧ (m / 10).digitChar.toNat < 54 := by omega
  simp only [twoDigits, minuteOf]
  rw [dif_pos tens, last]
  refine congrArg some (Fin.ext ?_)
  show 10 * ((m / 10).digitChar.toNat - 48) + m % 10 = m
  omega

theorem isspace_digitChar {n : Nat} (small : n < 10) : unicode.isspace n.digitChar = false := by
  have code : n.digitChar.toNat = 48 + n := Nat.toNat_digitChar_of_lt_ten small
  rw [unicode.isspace_ascii _ (by omega), code]
  have above : ¬ (48 + n < 14) ∧ ¬ (48 + n < 33) := by omega
  simp [above]

/-- A time begins and ends with a digit. -/
theorem strip_text (clock : Clock) : strip unicode clock.text.toList = clock.text.toList := by
  obtain ⟨⟨h, hour⟩, ⟨m, minute⟩⟩ := clock
  have first : unicode.isspace (h / 10).digitChar = false := isspace_digitChar (by omega)
  have last : unicode.isspace (m % 10).digitChar = false := isspace_digitChar (by omega)
  simp [strip, Clock.text, twoDigits, first, List.rdropWhile, last]

theorem colon_not_mem {n : Nat} (small : n < 100) : ':' ∉ twoDigits n := by
  have other : ∀ d < 10, ':' ≠ d.digitChar := by decide
  have tens := other (n / 10) (by omega)
  have units := other (n % 10) (by omega)
  simp [twoDigits, tens, units]

@[simp] theorem parseTime_text (unicode : CharTables) (clock : Clock) : parseTime unicode clock.text = .ok clock := by
  have hours : ':' ∉ twoDigits clock.hour := colon_not_mem (by omega)
  have minutes : ':' ∉ twoDigits clock.minute := colon_not_mem (by omega)
  have parts : (strip unicode clock.text.toList).splitOn ':' = [twoDigits clock.hour, twoDigits clock.minute] := by
    rw [strip_text, Clock.text, String.toList_ofList, List.splitOn_append_cons_self_of_not_mem hours,
      List.splitOn_eq_singleton minutes]
  simp [parseTime, parts, hourOf_twoDigits, minuteOf_twoDigits]

/-! ### The end of a request -/

section
variable (current : RuntimeSettings) {updated : RuntimeSettings} (server : Server)

/-- A time that can be read moves the schedule there. -/
theorem finish_of_time {clock : Clock} (read : parseTime unicode updated.schedulerTime = .ok clock) :
    (finish unicode current updated server).1.time = clock ∧
      (finish unicode current updated server).2 = .completed updated := by
  by_cases moved : updated.schedulerTime = server.time.text
  · have here : server.time = clock := by
      rw [moved, parseTime_text] at read
      exact Except.ok.inj read
    simp only [finish, moved, ne_eq, not_true_eq_false, if_false]
    split_ifs <;> exact ⟨here, trivial⟩
  · simp only [finish, ne_eq, moved, not_false_eq_true, if_true, read]
    split_ifs <;> exact ⟨rfl, trivial⟩

/-- Any other is refused, after it was written. -/
theorem finish_of_no_time {e : PyError} (refused : parseTime unicode updated.schedulerTime = .error e) :
    finish unicode current updated server = (server, .failed .valueError) := by
  have moved : updated.schedulerTime ≠ server.time.text := by
    intro same
    rw [same, parseTime_text] at refused
    cases refused
  simp [finish, moved, refused]

theorem finish_stage : (finish unicode current updated server).2 = .completed updated ∨
    (finish unicode current updated server).2 = .failed .valueError := by
  cases read : parseTime unicode updated.schedulerTime with
  | ok clock => exact .inl (finish_of_time current server read).2
  | error e => exact .inr (by rw [finish_of_no_time current server read])

end

/-! ### What is written is read back -/

theorem get?_putRows_time (rows : Rows) (settings : RuntimeSettings) :
    (putRows rows (toRows settings)).get? keyTime = some settings.schedulerTime := by
  simp [putRows, toRows, Dict.get?_set, keyTime, keyProxy]

theorem get?_putRows_proxy (rows : Rows) (settings : RuntimeSettings) :
    (putRows rows (toRows settings)).get? keyProxy = some (boolText settings.proxyEnabled) := by
  simp [putRows, toRows, Dict.get?_set]

theorem fromRows_of_time {default : String} {rows : Rows} {clock : Clock} (stored : rows.get? keyTime = some clock.text) :
    (fromRows unicode rows default).schedulerTime = clock.text := by
  simp [fromRows, stored]

end ScanApi.Settings
