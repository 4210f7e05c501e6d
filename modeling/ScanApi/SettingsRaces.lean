import ScanApi.Interleaving
import ScanApi.Settings

/-!
`PUT /settings` requests whose actions interleave. A request writes back both
fields, the one it was asked for and the other as it read it; its write and its
move of the schedule are separate actions. For two editors of different fields
this says exactly when both changes survive, and for any number of requests when
schedule and stored time agree in the end.
-/
namespace ScanApi.SettingsRaces
open ScanApi.Python ScanApi.Unicode ScanApi.Settings ScanApi.Interleaving

section
variable {ι : Type} [DecidableEq ι]

/-- Requests with the given patches that arrived at a server. -/
def arrivedAt (server : Server) : Joint Server ι Stage := ⟨server, fun _ => .arrived⟩

/-- The actions of requests with the given patches. -/
def acts (unicode : CharTables) (default : String) (patches : ι → SettingsPatch) (i : ι) :
    Action → Server × Stage → Option (Server × Stage) := act unicode default (patches i)

abbrev Requests (unicode : CharTables) (default : String) (patches : ι → SettingsPatch) : Turn Server ι Stage Action :=
  ofFunction (acts unicode default patches)

end

/-! ### Two editors -/

/-- One request patches only the time, the other only the proxies. -/
inductive Editor
  | time
  | proxy
deriving DecidableEq, Repr

namespace Editor

def other : Editor → Editor
  | time => proxy
  | proxy => time

def key : Editor → String
  | time => keyTime
  | proxy => keyProxy

/-- The editor's field as it is stored. -/
def field : Editor → RuntimeSettings → String
  | time, settings => settings.schedulerTime
  | proxy, settings => boolText settings.proxyEnabled

/-- What the editor sets its field to. -/
def target (clock : Clock) (enabled : Bool) : Editor → String
  | time => clock.text
  | proxy => boolText enabled

def patch (clock : Clock) (enabled : Bool) : Editor → SettingsPatch
  | time => { schedulerTime := some clock }
  | proxy => { proxyEnabled := some enabled }

theorem cases_of (e e' : Editor) : e' = e ∨ e' = e.other := by
  cases e <;> cases e' <;> simp [other]

variable {unicode : CharTables} {default : String} {clock : Clock} {enabled : Bool} {rows : Rows}

theorem get?_putRows (e : Editor) (rows : Rows) (settings : RuntimeSettings) :
    (putRows rows (toRows settings)).get? e.key = some (e.field settings) := by
  cases e
  · exact get?_putRows_time rows settings
  · exact get?_putRows_proxy rows settings

theorem field_apply (e : Editor) (current : RuntimeSettings) :
    e.field ((e.patch clock enabled).apply current) = e.target clock enabled := by
  cases e <;> rfl

theorem field_apply_other (e : Editor) (current : RuntimeSettings) :
    e.other.field ((e.patch clock enabled).apply current) = e.other.field current := by
  cases e <;> rfl

theorem field_fromRows {e : Editor} (stored : rows.get? e.key = some (e.target clock enabled)) :
    e.field (fromRows unicode rows default) = e.target clock enabled := by
  cases e with
  | time => exact fromRows_of_time stored
  | proxy =>
    have stored : rows.get? keyProxy = some (boolText enabled) := stored
    cases enabled <;> simp [field, target, fromRows, stored, boolText]

end Editor

section
variable (unicode : CharTables) (default : String) (clock : Clock) (enabled : Bool)

/-- The two requests. -/
abbrev Editors : Turn Server Editor Stage Action := Requests unicode default (fun e => e.patch clock enabled)

/-- Both fields are stored as their editors set them. -/
def BothStored (rows : Rows) : Prop := ∀ e : Editor, rows.get? e.key = some (e.target clock enabled)

/-- What an editor read of the other's field. -/
def seen (start : Rows) (turns : List (Editor × Action)) (e : Editor) : String :=
  if Before (e.other, .write) (e, .read) turns then e.other.target clock enabled
  else e.other.field (fromRows unicode start default)

/-- What a request's stage says about the turns taken. -/
def Placed (start : Rows) (turns : List (Editor × Action)) (e : Editor) : Stage → Prop
  | .arrived => (e, .read) ∉ turns ∧ (e, .write) ∉ turns
  | .loaded current => (e, .write) ∉ turns ∧ e.other.field current = seen unicode default clock enabled start turns e
  | .stored _ _ => (e, .write) ∈ turns
  | .completed _ => (e, .write) ∈ turns
  | .failed _ => True

/-- What is known after some turns: the rows are as at the start, or as the last
    writer left them. -/
structure Raced (start : Rows) (turns : List (Editor × Action)) (joint : Joint Server Editor Stage) : Prop where
  placed : ∀ e, Placed unicode default clock enabled start turns e (joint.place e)
  untouched : lastTo .write turns = none → joint.shared.rows = start
  rows : ∀ e, lastTo .write turns = some e → joint.shared.rows.get? e.key = some (e.target clock enabled) ∧
    joint.shared.rows.get? e.other.key = some (seen unicode default clock enabled start turns e)

end

section
variable {unicode : CharTables} {default : String} {clock : Clock} {enabled : Bool} {start : Rows}
  {turns : List (Editor × Action)} {joint : Joint Server Editor Stage} {e i : Editor} {a : Action}

theorem seen_snoc (other : (i, a) ≠ (e, .read)) :
    seen unicode default clock enabled start (turns ++ [(i, a)]) e = seen unicode default clock enabled start turns e := by
  simp [seen, before_snoc, Ne.symm other]

/-- A request that reads now sees the other's field as it was set, if it was. -/
theorem seen_read (unread : (e, .read) ∉ turns) :
    seen unicode default clock enabled start (turns ++ [(e, .read)]) e =
      if (e.other, .write) ∈ turns then e.other.target clock enabled
      else e.other.field (fromRows unicode start default) := by
  have none_before : ¬ Before (e.other, .write) (e, .read) turns := fun before => unread (before.subset (by simp))
  simp [seen, before_snoc, none_before]

/-- The turns of the other request do not matter to a stage. -/
theorem placed_snoc {stage : Stage} (other : e ≠ i) (placed : Placed unicode default clock enabled start turns e stage) :
    Placed unicode default clock enabled start (turns ++ [(i, a)]) e stage := by
  cases stage with
  | arrived => simpa [Placed, other] using placed
  | loaded current =>
    simp only [Placed] at placed ⊢
    rw [seen_snoc (by simp [Ne.symm other])]
    simpa [other] using placed
  | stored current updated => exact List.mem_append_left _ placed
  | completed updated => exact List.mem_append_left _ placed
  | failed error => trivial

/-- A turn that is neither a read nor a write leaves the rows to their last writer. -/
theorem raced_of_quiet {after : Server × Stage} (raced : Raced unicode default clock enabled start turns joint)
    (notRead : a ≠ .read) (notWrite : a ≠ .write) (same : after.1.rows = joint.shared.rows)
    (placed : Placed unicode default clock enabled start (turns ++ [(i, a)]) i after.2) :
    Raced unicode default clock enabled start (turns ++ [(i, a)]) (joint.moved i after) where
  placed e := by
    by_cases here : e = i
    · subst here; rwa [place_moved]
    · rw [place_moved_of_ne _ _ here]
      exact placed_snoc here (raced.placed e)
  untouched := by
    rw [lastTo_snoc, if_neg notWrite, shared_moved, same]
    exact raced.untouched
  rows e := by
    rw [lastTo_snoc, if_neg notWrite, shared_moved, same, seen_snoc (by simp [notRead])]
    exact raced.rows e

theorem raced_of_read {server : Server} (raced : Raced unicode default clock enabled start turns joint)
    (arrived : joint.place i = .arrived) (same : server = joint.shared) :
    Raced unicode default clock enabled start (turns ++ [(i, .read)])
      (joint.moved i (server, .loaded (fromRows unicode server.rows default))) where
  placed e := by
    by_cases here : e = i
    · subst here
      have fresh := raced.placed e
      rw [arrived] at fresh
      obtain ⟨unread, unwritten⟩ := fresh
      rw [place_moved]
      refine ⟨by simpa using unwritten, ?_⟩
      rw [seen_read unread, same]
      cases last : lastTo .write turns with
      | none =>
        have quiet : (e.other, Action.write) ∉ turns := by
          intro member
          obtain ⟨j, found⟩ := lastTo_isSome member
          rw [last] at found
          cases found
        rw [if_neg quiet, raced.untouched last]
      | some writer =>
        rcases e.cases_of writer with rfl | rfl
        · exact absurd (lastTo_mem last) unwritten
        · rw [if_pos (lastTo_mem last)]
          exact Editor.field_fromRows (raced.rows _ last).1
    · rw [place_moved_of_ne _ _ here]
      exact placed_snoc here (raced.placed e)
  untouched := by
    rw [lastTo_snoc, if_neg (by decide), shared_moved, same]
    exact raced.untouched
  rows e := by
    rw [lastTo_snoc, if_neg (by decide), shared_moved, same]
    intro last
    have unwritten := raced.placed i
    rw [arrived] at unwritten
    have elsewhere : i ≠ e := by
      rintro rfl
      exact unwritten.2 (lastTo_mem last)
    rw [seen_snoc (by simp [elsewhere])]
    exact raced.rows e last

theorem raced_of_write {current : RuntimeSettings} (raced : Raced unicode default clock enabled start turns joint)
    (loaded : joint.place i = .loaded current) :
    Raced unicode default clock enabled start (turns ++ [(i, .write)])
      (joint.moved i
        ({ joint.shared with rows := putRows joint.shared.rows (toRows ((i.patch clock enabled).apply current)) },
        .stored current ((i.patch clock enabled).apply current))) where
  placed e := by
    by_cases here : e = i
    · subst here
      rw [place_moved]
      show (e, Action.write) ∈ turns ++ [(e, .write)]
      simp
    · rw [place_moved_of_ne _ _ here]
      exact placed_snoc here (raced.placed e)
  untouched := by simp [lastTo_snoc]
  rows e := by
    rw [lastTo_snoc, if_pos rfl, shared_moved]
    rintro ⟨⟩
    have read := raced.placed i
    rw [loaded] at read
    refine ⟨by rw [Editor.get?_putRows, Editor.field_apply], ?_⟩
    rw [Editor.get?_putRows, Editor.field_apply_other, read.2, seen_snoc (by simp)]

theorem raced_next {after : Server × Stage} (raced : Raced unicode default clock enabled start turns joint)
    (taken : Editors unicode default clock enabled i a (joint.shared, joint.place i) after) :
    Raced unicode default clock enabled start (turns ++ [(i, a)]) (joint.moved i after) := by
  obtain ⟨server, stage⟩ := after
  have before := raced.placed i
  rcases act_cases taken with ⟨rfl, arrived, same, rfl⟩ | ⟨current, rfl, loaded, rfl, rfl⟩ |
    ⟨current, updated, rfl, stored, ended⟩ | ⟨rfl, -, same, rfl⟩
  · rw [← same]
    exact raced_of_read raced arrived same
  · exact raced_of_write raced loaded
  · rw [stored] at before
    rw [ended]
    refine raced_of_quiet raced (by decide) (by decide) finish_rows ?_
    rcases @finish_stage unicode current updated joint.shared with completed | failed
    · rw [completed]; exact List.mem_append_left _ before
    · rw [failed]; trivial
  · exact raced_of_quiet raced (by decide) (by decide) (by rw [same]) trivial

theorem raced_start (server : Server) :
    Raced unicode default clock enabled server.rows [] (arrivedAt server) where
  placed e := by
    show (e, Action.read) ∉ [] ∧ (e, Action.write) ∉ []
    simp
  untouched _ := rfl
  rows e last := by cases last

end

/-- Both changes survive exactly if the request that writes last read the settings
    after the other had written, or the other's new value was already there when
    they began. -/
theorem both_stored_iff (unicode : CharTables) (default : String) (clock : Clock) (enabled : Bool) (server : Server)
    (turns : List (Editor × Action)) (joint : Joint Server Editor Stage)
    (run : Run (Editors unicode default clock enabled) (arrivedAt server) turns joint)
    (done : ∀ e, ∃ updated, joint.place e = .completed updated) :
    BothStored clock enabled joint.shared.rows ↔
      ∀ e, lastTo .write turns = some e → Before (e.other, .write) (e, .read) turns ∨
        e.other.field (fromRows unicode server.rows default) = e.other.target clock enabled := by
  have raced : Raced unicode default clock enabled server.rows turns joint :=
    run.invariant (P := Raced unicode default clock enabled server.rows) (raced_start server)
      (fun _ _ _ _ _ => raced_next)
  have wrote : (Editor.time, Action.write) ∈ turns := by
    obtain ⟨updated, completed⟩ := done .time
    have placed := raced.placed .time
    rwa [completed] at placed
  obtain ⟨e, last⟩ := lastTo_isSome wrote
  obtain ⟨own, others⟩ := raced.rows e last
  have kept : BothStored clock enabled joint.shared.rows ↔
      seen unicode default clock enabled server.rows turns e = e.other.target clock enabled := by
    constructor
    · intro both
      exact Option.some.inj (others.symm.trans (both e.other))
    · intro same e'
      rcases e.cases_of e' with rfl | rfl
      · exact own
      · rw [others, same]
  rw [kept, last]
  simp only [Option.some.injEq, forall_eq', seen]
  by_cases before : Before (e.other, .write) (e, .read) turns <;> simp [before]

/-- A server that has the default settings stored. -/
def defaults : Server where
  rows := putRows Dict.empty (toRows ⟨"10:00", false⟩)
  time := ⟨10, 0⟩

/-- One request after the other: both changes are stored. -/
theorem both_stored_in_turn : ∃ turns joint,
    Run (Editors latin1 "10:00" ⟨12, 30⟩ true) (arrivedAt defaults) turns joint ∧
      BothStored ⟨12, 30⟩ true joint.shared.rows := by
  obtain ⟨joint, run, ended⟩ := exists_run (acts latin1 "10:00" (Editor.patch ⟨12, 30⟩ true)) (arrivedAt defaults)
    [(.time, .read), (.time, .write), (.time, .reschedule), (.proxy, .read), (.proxy, .write), (.proxy, .reschedule)]
    (fun joint => joint.place .time = .completed ⟨"12:30", false⟩ && joint.place .proxy = .completed ⟨"12:30", true⟩)
    (by decide +kernel)
  refine ⟨_, joint, run, (both_stored_iff latin1 "10:00" ⟨12, 30⟩ true defaults _ joint run ?_).mpr (by decide +kernel)⟩
  intro e
  simp only [Bool.and_eq_true, decide_eq_true_eq] at ended
  cases e
  · exact ⟨_, ended.1⟩
  · exact ⟨_, ended.2⟩

/-- Both read before either writes: the second write puts the old time back. -/
theorem update_lost : ∃ turns joint,
    Run (Editors latin1 "10:00" ⟨12, 30⟩ true) (arrivedAt defaults) turns joint ∧
      (∀ e, ∃ updated, joint.place e = .completed updated) ∧ ¬ BothStored ⟨12, 30⟩ true joint.shared.rows := by
  obtain ⟨joint, run, ended⟩ := exists_run (acts latin1 "10:00" (Editor.patch ⟨12, 30⟩ true)) (arrivedAt defaults)
    [(.time, .read), (.proxy, .read), (.time, .write), (.time, .reschedule), (.proxy, .write), (.proxy, .reschedule)]
    (fun joint => joint.place .time = .completed ⟨"12:30", false⟩ && joint.place .proxy = .completed ⟨"10:00", true⟩ &&
      joint.shared.rows.get? keyTime = some "10:00")
    (by decide +kernel)
  simp only [Bool.and_eq_true, decide_eq_true_eq] at ended
  obtain ⟨⟨time, proxy⟩, lost⟩ := ended
  refine ⟨_, joint, run, ?_, fun both => ?_⟩
  · intro e
    cases e
    · exact ⟨_, time⟩
    · exact ⟨_, proxy⟩
  · have kept : joint.shared.rows.get? keyTime = some "12:30" := both .time
    rw [lost] at kept
    exact absurd kept (by decide)

/-! ### Any number of requests -/

section
variable {ι : Type} [DecidableEq ι]

/-- No other request writes between a request's write and its move of the schedule. -/
def Undisturbed (turns : List (ι × Action)) : Prop :=
  ∀ i j, j ≠ i → ¬ [(i, Action.write), (j, .write), (i, .reschedule)].Sublist turns

variable {unicode : CharTables} {default : String} {patches : ι → SettingsPatch} {times : ι → Clock}
  {turns : List (ι × Action)} {joint : Joint Server ι Stage} {i j : ι} {a : Action}

/-- What a stage says about the turns of its request. -/
def Progress (times : ι → Clock) (turns : List (ι × Action)) (i : ι) : Stage → Prop
  | .arrived => (i, .write) ∉ turns ∧ (i, .reschedule) ∉ turns
  | .loaded _ => (i, .write) ∉ turns ∧ (i, .reschedule) ∉ turns
  | .stored _ updated => (i, .write) ∈ turns ∧ updated.schedulerTime = (times i).text
  | .completed _ => (i, .write) ∈ turns ∧ (i, .reschedule) ∈ turns
  | .failed _ => True

/-- The stored time is the last writer's, and the schedule is where the last mover put it. Where
    nobody writes in between, that is the same request once it has moved. -/
structure Following (times : ι → Clock) (turns : List (ι × Action)) (joint : Joint Server ι Stage) : Prop where
  progress : ∀ i, Progress times turns i (joint.place i)
  stored : ∀ i, lastTo .write turns = some i → joint.shared.rows.get? keyTime = some (times i).text
  moved : ∀ i, lastTo .reschedule turns = some i → joint.shared.time = times i
  own : Undisturbed turns → ∀ i, lastTo .write turns = some i → (i, .reschedule) ∈ turns →
    lastTo .reschedule turns = some i

omit [DecidableEq ι] in
theorem progress_snoc {stage : Stage} (other : i ≠ j) (progress : Progress times turns i stage) :
    Progress times (turns ++ [(j, a)]) i stage := by
  cases stage with
  | arrived => simpa [Progress, other] using progress
  | loaded current => simpa [Progress, other] using progress
  | stored current updated => exact ⟨List.mem_append_left _ progress.1, progress.2⟩
  | completed updated => exact ⟨List.mem_append_left _ progress.1, List.mem_append_left _ progress.2⟩
  | failed error => trivial

omit [DecidableEq ι] in
theorem undisturbed_of_snoc (undisturbed : Undisturbed (turns ++ [(i, a)])) : Undisturbed turns :=
  fun k j other between => undisturbed k j other (between.trans (List.sublist_append_left _ _))

/-- Every stage but the mover's own stays as it was. -/
theorem progress_moved {after : Server × Stage} (following : Following times turns joint)
    (progress : Progress times (turns ++ [(i, a)]) i after.2) :
    ∀ k, Progress times (turns ++ [(i, a)]) k ((joint.moved i after).place k) := by
  intro k
  by_cases here : k = i
  · subst here; rwa [place_moved]
  · rw [place_moved_of_ne _ _ here]
    exact progress_snoc here (following.progress k)

omit [DecidableEq ι] in
theorem following_start (server : Server) : Following times [] (arrivedAt server) where
  progress i := by
    show (i, Action.write) ∉ [] ∧ (i, Action.reschedule) ∉ []
    simp
  stored i last := by cases last
  moved i last := by cases last
  own _ i last := by cases last

theorem following_next {after : Server × Stage} (timed : ∀ i, (patches i).schedulerTime = some (times i))
    (following : Following times turns joint)
    (taken : Requests unicode default patches i a (joint.shared, joint.place i) after) :
    Following times (turns ++ [(i, a)]) (joint.moved i after) := by
  have before := following.progress i
  have own := fun undisturbed => following.own (undisturbed_of_snoc (i := i) (a := a) undisturbed)
  obtain ⟨server, stage⟩ := after
  rcases act_cases taken with ⟨rfl, arrived, rfl, rfl⟩ | ⟨current, rfl, loaded, rfl, rfl⟩ |
    ⟨current, updated, rfl, stored, ended⟩ | ⟨rfl, -, rfl, rfl⟩
  · rw [arrived] at before
    exact {
      progress := progress_moved following (by simpa [Progress] using before)
      stored := by simpa [lastTo_snoc] using following.stored
      moved := by simpa [lastTo_snoc] using following.moved
      own := by simpa [lastTo_snoc] using own }
  · rw [loaded] at before
    have time : ((patches i).apply current).schedulerTime = (times i).text := by simp [SettingsPatch.apply, timed i]
    refine ⟨progress_moved following ⟨by simp, time⟩, ?_, ?_, ?_⟩
    · rw [lastTo_snoc, if_pos rfl, shared_moved]
      rintro k ⟨⟩
      rw [get?_putRows_time, time]
    · simpa [lastTo_snoc] using following.moved
    · rw [lastTo_snoc, if_pos rfl]
      rintro - k ⟨⟩ moved
      exact absurd (by simpa using moved) before.2
  · rw [stored] at before
    obtain ⟨wrote, time⟩ := before
    have read : parseTime unicode updated.schedulerTime = .ok (times i) := by rw [time, parseTime_text]
    obtain ⟨moved, completed⟩ := finish_of_time current joint.shared read
    obtain ⟨k, last⟩ := lastTo_isSome wrote
    rw [ended]
    refine ⟨progress_moved following ?_, ?_, ?_, ?_⟩
    · rw [completed]
      exact ⟨List.mem_append_left _ wrote, by simp⟩
    · rw [lastTo_snoc, if_neg (by decide), shared_moved, finish_rows]
      exact following.stored
    · rw [lastTo_snoc, if_pos rfl, shared_moved]
      rintro j ⟨⟩
      exact moved
    · rw [lastTo_snoc, if_neg (by decide), lastTo_snoc, if_pos rfl, last]
      rintro undisturbed j ⟨⟩ -
      -- A later writer would stand between this request's write and its move.
      by_contra different
      have other : k ≠ i := fun same => different (by rw [same])
      have between := before_last (Ne.symm other) last wrote
      exact undisturbed i k other (between.append (List.Sublist.refl [(i, Action.reschedule)]))
  · exact {
      progress := progress_moved following trivial
      stored := by simpa [lastTo_snoc] using following.stored
      moved := by simpa [lastTo_snoc] using following.moved
      own := by simpa [lastTo_snoc] using own }

end

theorem text_inj (unicode : CharTables) {a b : Clock} (same : a.text = b.text) : a = b := by
  have read : parseTime unicode a.text = .ok b := by rw [same, parseTime_text]
  rw [parseTime_text] at read
  exact Except.ok.inj read

/-- Where every request brings a time and all have completed, schedule and stored time
    agree exactly if the last write and the last move carry the same time; they do where no
    other request writes between a request's write and its move. -/
theorem schedule_matches_stored {ι : Type} [DecidableEq ι] (unicode : CharTables) (default : String)
    (patches : ι → SettingsPatch) (times : ι → Clock) (timed : ∀ i, (patches i).schedulerTime = some (times i))
    (server : Server) (turns : List (ι × Action)) (joint : Joint Server ι Stage)
    (run : Run (Requests unicode default patches) (arrivedAt server) turns joint)
    (done : ∀ i, ∃ updated, joint.place i = .completed updated) (request : ι) :
    (joint.shared.rows.get? keyTime = some joint.shared.time.text ↔
      (lastTo .write turns).map times = (lastTo .reschedule turns).map times) ∧
    (Undisturbed turns → joint.shared.rows.get? keyTime = some joint.shared.time.text) := by
  have following : Following times turns joint :=
    run.invariant (P := Following times) (following_start server) (fun _ _ _ _ _ => following_next timed)
  have finished : ∀ i, (i, Action.write) ∈ turns ∧ (i, Action.reschedule) ∈ turns := by
    intro i
    obtain ⟨updated, completed⟩ := done i
    have progress := following.progress i
    rwa [completed] at progress
  obtain ⟨writer, wrote⟩ := lastTo_isSome (finished request).1
  obtain ⟨mover, moved⟩ := lastTo_isSome (finished request).2
  have stored := following.stored writer wrote
  have live := following.moved mover moved
  refine ⟨?_, fun undisturbed => ?_⟩
  · rw [stored, live, wrote, moved, Option.map_some, Option.map_some, Option.some_inj, Option.some_inj]
    exact ⟨text_inj unicode, congrArg Clock.text⟩
  · have same := following.own undisturbed writer wrote (finished writer).2
    rw [stored, following.moved writer same]

/-- The times of two requests. -/
def twoTimes : Bool → Clock
  | false => ⟨9, 0⟩
  | true => ⟨12, 30⟩

def twoPatches (i : Bool) : SettingsPatch := { schedulerTime := some (twoTimes i) }

/-- Two requests that both read first, but write and move in turn. -/
theorem schedule_matches_in_turn : ∃ turns joint,
    Run (Requests latin1 "10:00" twoPatches) (arrivedAt defaults) turns joint ∧
      joint.shared.rows.get? keyTime = some joint.shared.time.text := by
  obtain ⟨joint, run, ended⟩ := exists_run (acts latin1 "10:00" twoPatches) (arrivedAt defaults)
    [(false, .read), (true, .read), (false, .write), (false, .reschedule), (true, .write), (true, .reschedule)]
    (fun joint => joint.place false = .completed ⟨"09:00", false⟩ && joint.place true = .completed ⟨"12:30", false⟩)
    (by decide +kernel)
  simp only [Bool.and_eq_true, decide_eq_true_eq] at ended
  have done : ∀ i, ∃ updated, joint.place i = .completed updated := by
    intro i
    cases i
    · exact ⟨_, ended.1⟩
    · exact ⟨_, ended.2⟩
  have matched := schedule_matches_stored latin1 "10:00" twoPatches twoTimes (fun _ => rfl) defaults _ joint run done false
  exact ⟨_, joint, run, matched.2 (by unfold Undisturbed; decide)⟩

/-- The request that wrote first moves the schedule last. -/
theorem schedule_disagrees : ∃ turns joint,
    Run (Requests latin1 "10:00" twoPatches) (arrivedAt defaults) turns joint ∧
      (∀ i, ∃ updated, joint.place i = .completed updated) ∧
      joint.shared.rows.get? keyTime ≠ some joint.shared.time.text := by
  obtain ⟨joint, run, ended⟩ := exists_run (acts latin1 "10:00" twoPatches) (arrivedAt defaults)
    [(false, .read), (true, .read), (false, .write), (true, .write), (true, .reschedule), (false, .reschedule)]
    (fun joint => joint.place false = .completed ⟨"09:00", false⟩ && joint.place true = .completed ⟨"12:30", false⟩ &&
      joint.shared.rows.get? keyTime = some "12:30" && joint.shared.time = ⟨9, 0⟩)
    (by decide +kernel)
  simp only [Bool.and_eq_true, decide_eq_true_eq] at ended
  obtain ⟨⟨⟨first, second⟩, stored⟩, moved⟩ := ended
  refine ⟨_, joint, run, ?_, ?_⟩
  · intro i
    cases i
    · exact ⟨_, first⟩
    · exact ⟨_, second⟩
  · rw [stored, moved]
    decide

end ScanApi.SettingsRaces
