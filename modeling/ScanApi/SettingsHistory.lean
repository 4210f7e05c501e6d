import ScanApi.Settings

/-!
`PUT /settings` requests one after another, from the start of the application.
A time is written back in the form in which it was read. Where that is not the
form of a clock (nothing usable is stored and the configured default is no
`HH:MM`), the row is written before the schedule refuses it.
-/
namespace ScanApi.SettingsHistory
open ScanApi.Python ScanApi.Unicode ScanApi.Settings

/-- How far the database carries a request. -/
inductive Fate
  | noRead
  | noWrite
  | through
deriving DecidableEq, Repr

def Fate.actions : Fate → List Action
  | .noRead => [.lose]
  | .noWrite => [.read, .lose]
  | .through => [.read, .write, .reschedule]

structure Call where
  patch : SettingsPatch
  fate : Fate := .through
deriving DecidableEq, Repr

/-- A request on its own: all its actions in turn. -/
def putSettings (unicode : CharTables) (default : String) (call : Call) (server : Server) : Server × Stage :=
  call.fate.actions.foldl (fun state action => (act unicode default call.patch action state).getD state) (server, .arrived)

/-- A call completes with the stored time equal to the time of the schedule, or fails
    and changes neither the stored settings nor the schedule. -/
def Kept (before : Server) (after : Server × Stage) : Prop :=
  match after.2 with
  | .completed _ => after.1.rows.get? keyTime = some after.1.time.text
  | .failed _ => after.1.rows = before.rows ∧ after.1.time = before.time
  | _ => False

/-- Every call of a history is kept. -/
def InStep (unicode : CharTables) (default : String) : List Call → Server → Prop
  | [], _ => True
  | call :: rest, server =>
    Kept server (putSettings unicode default call server) ∧
      InStep unicode default rest (putSettings unicode default call server).1

/-- The time is read back as a clock shows it. -/
def Readable (unicode : CharTables) (default : String) (rows : Rows) : Prop :=
  ∃ clock : Clock, (fromRows unicode rows default).schedulerTime = clock.text

/-- The call brings a time, and the database carries it. -/
def Call.setsTime (call : Call) : Bool := call.fate = .through && call.patch.schedulerTime.isSome

/-- The default is no time, and the call writes what is stored already. -/
def Idle (unicode : CharTables) (default : String) (rows : Rows) (call : Call) : Prop :=
  (∃ e, parseTime unicode default = .error e) ∧
    ∀ e ∈ toRows (call.patch.apply (fromRows unicode rows default)), rows.get? e.1 = some e.2

/-! ### One call -/

section
variable {unicode : CharTables} {default : String} {rows : Rows} {server : Server} {patch : SettingsPatch}
  {current updated : RuntimeSettings}

/-- What is stored already is not changed by writing it. -/
theorem putRows_eq_iff (rows : Rows) (settings : RuntimeSettings) :
    putRows rows (toRows settings) = rows ↔ ∀ e ∈ toRows settings, rows.get? e.1 = some e.2 := by
  constructor
  · intro same e member
    have written : e = (keyTime, settings.schedulerTime) ∨ e = (keyProxy, boolText settings.proxyEnabled) := by
      simpa [toRows] using member
    rw [← same]
    rcases written with rfl | rfl
    · exact get?_putRows_time rows settings
    · exact get?_putRows_proxy rows settings
  · intro stored
    have time := stored (keyTime, settings.schedulerTime) (by simp [toRows])
    have proxy := stored (keyProxy, boolText settings.proxyEnabled) (by simp [toRows])
    simp [putRows, toRows, Dict.set_of_get? time, Dict.set_of_get? proxy]

theorem putSettings_noRead : putSettings unicode default ⟨patch, .noRead⟩ server = (server, .failed .connection) := rfl

theorem putSettings_noWrite : putSettings unicode default ⟨patch, .noWrite⟩ server = (server, .failed .connection) := rfl

theorem putSettings_through :
    putSettings unicode default ⟨patch, .through⟩ server =
      let current := fromRows unicode server.rows default
      let updated := patch.apply current
      finish unicode current updated { server with rows := putRows server.rows (toRows updated) } := rfl

/-- The time that is read back is a clock's, or the default as it stands. -/
theorem readable_or_default : Readable unicode default rows ∨ (fromRows unicode rows default).schedulerTime = default := by
  cases read : parseTime unicode ((rows.get? keyTime).getD default) with
  | ok clock => exact .inl ⟨clock, by simp [fromRows, read]⟩
  | error e => exact .inr (by simp [fromRows, read])

end

section
variable {unicode : CharTables} {default : String} {server : Server} {call : Call}

/-- A call that brings a clock's time, or writes one back, keeps the two in step. -/
theorem kept_of_clock {patch : SettingsPatch} (clock : Clock)
    (time : (patch.apply (fromRows unicode server.rows default)).schedulerTime = clock.text) :
    Kept server (putSettings unicode default ⟨patch, .through⟩ server) ∧
      Readable unicode default (putSettings unicode default ⟨patch, .through⟩ server).1.rows := by
  rw [putSettings_through]
  have read := parseTime_text unicode clock
  rw [← time] at read
  obtain ⟨moved, completed⟩ := finish_of_time (fromRows unicode server.rows default)
    { server with rows := putRows server.rows (toRows (patch.apply (fromRows unicode server.rows default))) } read
  have stored : (putRows server.rows (toRows (patch.apply (fromRows unicode server.rows default)))).get? keyTime =
      some clock.text := by rw [get?_putRows_time, time]
  constructor
  · simp only [Kept, completed, moved, finish_rows, stored]
  · simp only [finish_rows]
    exact ⟨clock, fromRows_of_time stored⟩

/-- A call that the database does not carry changes nothing. -/
theorem putSettings_lost (lost : call.fate ≠ .through) :
    putSettings unicode default call server = (server, .failed .connection) := by
  obtain ⟨patch, fate⟩ := call
  cases fate with
  | noRead => exact putSettings_noRead
  | noWrite => exact putSettings_noWrite
  | through => exact absurd rfl lost

theorem kept_of_readable (readable : Readable unicode default server.rows) :
    Kept server (putSettings unicode default call server) ∧
      Readable unicode default (putSettings unicode default call server).1.rows := by
  by_cases lost : call.fate = .through
  · obtain ⟨patch, fate⟩ := call
    cases lost
    obtain ⟨clock, time⟩ := readable
    cases brought : patch.schedulerTime with
    | some clock' => exact kept_of_clock clock' (by simp [SettingsPatch.apply, brought])
    | none => exact kept_of_clock clock (by simp [SettingsPatch.apply, brought, time])
  · rw [putSettings_lost lost]
    exact ⟨⟨rfl, rfl⟩, readable⟩

theorem kept_of_setsTime (sets : call.setsTime = true) :
    Kept server (putSettings unicode default call server) ∧
      Readable unicode default (putSettings unicode default call server).1.rows := by
  obtain ⟨patch, fate⟩ := call
  obtain ⟨through, brings⟩ : fate = .through ∧ patch.schedulerTime.isSome = true := by simpa [Call.setsTime] using sets
  subst through
  obtain ⟨clock, brought⟩ := Option.isSome_iff_exists.mp brings
  exact kept_of_clock clock (by simp [SettingsPatch.apply, brought])

/-- Where no clock's time is read back, a call that brings none is kept only if it
    changes nothing. -/
theorem kept_iff_idle (unreadable : ¬ Readable unicode default server.rows) (through : call.fate = .through)
    (brings : call.setsTime = false) :
    (Kept server (putSettings unicode default call server) ↔ Idle unicode default server.rows call) ∧
      (Idle unicode default server.rows call → (putSettings unicode default call server).1.rows = server.rows) := by
  obtain ⟨patch, fate⟩ := call
  subst through
  have none_brought : patch.schedulerTime = none := by simpa [Call.setsTime] using brings
  have written : (patch.apply (fromRows unicode server.rows default)).schedulerTime = default := by
    simpa [SettingsPatch.apply, none_brought] using readable_or_default.resolve_left unreadable
  rw [putSettings_through]
  cases read : parseTime unicode default with
  | ok clock =>
    obtain ⟨moved, completed⟩ := finish_of_time (fromRows unicode server.rows default)
      { server with rows := putRows server.rows (toRows (patch.apply (fromRows unicode server.rows default))) }
      ((congrArg (parseTime unicode) written).trans read)
    have odd : ¬ Idle unicode default server.rows ⟨patch, .through⟩ := by
      rintro ⟨⟨e, refused⟩, -⟩
      rw [read] at refused
      cases refused
    refine ⟨⟨fun kept => ?_, fun idle => absurd idle odd⟩, fun idle => absurd idle odd⟩
    simp only [Kept, completed, moved, finish_rows, get?_putRows_time, written, Option.some.injEq] at kept
    exact absurd ⟨clock, (readable_or_default.resolve_left unreadable).trans kept⟩ unreadable
  | error e =>
    have refused := finish_of_no_time (fromRows unicode server.rows default)
      { server with rows := putRows server.rows (toRows (patch.apply (fromRows unicode server.rows default))) }
      ((congrArg (parseTime unicode) written).trans read)
    simp only [refused]
    have idle : Idle unicode default server.rows ⟨patch, .through⟩ ↔
        putRows server.rows (toRows (patch.apply (fromRows unicode server.rows default))) = server.rows := by
      rw [putRows_eq_iff]
      exact ⟨fun both => both.2, fun stored => ⟨⟨e, read⟩, stored⟩⟩
    exact ⟨by simp [Kept, idle], idle.mp⟩

end

/-! ### Histories -/

theorem inStep_of_readable {unicode : CharTables} {default : String} : ∀ {calls : List Call} {server : Server},
    Readable unicode default server.rows → InStep unicode default calls server := by
  intro calls
  induction calls with
  | nil => intro server _; trivial
  | cons call rest ih =>
    intro server readable
    obtain ⟨kept, after⟩ := @kept_of_readable _ _ _ call readable
    exact ⟨kept, ih after⟩

/-- The calls up to the first one that sets a time. -/
def beforeTime (calls : List Call) : List Call := calls.takeWhile (fun call => !call.setsTime)

theorem inStep_iff (unicode : CharTables) (default : String) : ∀ (calls : List Call) (server : Server),
    InStep unicode default calls server ↔ Readable unicode default server.rows ∨
      ∀ call ∈ beforeTime calls, call.fate = .through → Idle unicode default server.rows call := by
  intro calls
  induction calls with
  | nil => intro server; simp [InStep, beforeTime]
  | cons call rest ih =>
    intro server
    by_cases readable : Readable unicode default server.rows
    · simp [readable, inStep_of_readable readable]
    · cases sets : call.setsTime with
      | true =>
        obtain ⟨kept, after⟩ := @kept_of_setsTime unicode default server call sets
        simp [InStep, kept, inStep_of_readable after, beforeTime, sets]
      | false =>
        have shape : beforeTime (call :: rest) = call :: beforeTime rest := by simp [beforeTime, sets]
        rw [InStep, ih, shape, List.forall_mem_cons]
        by_cases through : call.fate = .through
        · obtain ⟨kept, same⟩ := kept_iff_idle readable through sets
          rw [kept]
          constructor
          · rintro ⟨idle, tail⟩
            rw [same idle] at tail
            exact .inr ⟨fun _ => idle, tail.resolve_left readable⟩
          · rintro (impossible | ⟨idle, tail⟩)
            · exact absurd impossible readable
            · refine ⟨idle through, ?_⟩
              rw [same (idle through)]
              exact .inr tail
        · simp [putSettings_lost through, Kept, readable, through]

/-- Settings and schedule stay in step over a history of calls exactly when the
    stored time is read back as a clock's, or every call before the first time is
    idle: the default is no time, and the call writes what is stored already. -/
theorem history_in_step_iff (unicode : CharTables) (default : String) (rows : Rows) (calls : List Call) :
    InStep unicode default calls (started unicode default rows) ↔ Readable unicode default rows ∨
      ∀ call ∈ beforeTime calls, call.fate = .through → Idle unicode default rows call :=
  inStep_iff unicode default calls (started unicode default rows)

/-- With a default that is no time and nothing stored, turning the proxies on fails
    after it wrote the default as the stored time. -/
theorem bad_default_out_of_step :
    ¬ InStep latin1 "25:00" [⟨{ proxyEnabled := some true }, .through⟩] (started latin1 "25:00" Dict.empty) := by
  rintro ⟨kept, -⟩
  have failed : (putSettings latin1 "25:00" ⟨{ proxyEnabled := some true }, .through⟩
      (started latin1 "25:00" Dict.empty)).2 = .failed .valueError := by decide +kernel
  have written : (putSettings latin1 "25:00" ⟨{ proxyEnabled := some true }, .through⟩
      (started latin1 "25:00" Dict.empty)).1.rows.get? keyTime = some "25:00" := by decide +kernel
  simp only [Kept, failed] at kept
  rw [kept.1] at written
  cases written

end ScanApi.SettingsHistory
