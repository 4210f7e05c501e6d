import ScanApi.Broadcast
import ScanApi.ProxyExpiry

/-!
Whether a reminder can be lost. The proxies that were due are marked whatever the
bot did, so none is lost exactly if the message was delivered and has a line for
each of them.
-/
namespace ScanApi.ExpiryReminders
open ScanApi.Prog ScanApi.Telegram ScanApi.ProxyExpiry ScanApi.Broadcast
open ScanApi.NotifyFormat (Chars)

/-! ### Marks -/

/-- Somebody was told that the proxy expires. -/
def IsMarked (table : ProxyTable) (id : Int) : Prop := ∃ row ∈ table.rows, row.id = id ∧ row.expiryNotifiedAt ≠ none

variable {table : ProxyTable} {ids : List Int} {stamp now later id : Int} {d : DueProxy}

theorem mem_expiring : d ∈ expiring table.rows now ↔
    ∃ row ∈ table.rows, row.expiryNotifiedAt = none ∧ row.expiresAt = some d.expiresAt ∧
      d.expiresAt ≤ now + warnDays * day ∧
      row.id = d.id ∧ row.url = d.url ∧ row.label = d.label := by
  simp only [expiring, List.mem_filterMap, dueEntry]
  constructor
  · rintro ⟨row, member, entry⟩
    split at entry
    · cases entry
    · rename_i expiry known
      split at entry
      · rename_i soon
        obtain rfl := Option.some.inj entry
        exact ⟨row, member, soon.2, known, soon.1, rfl, rfl, rfl⟩
      · cases entry
  · rintro ⟨row, member, untold, known, soon, same, url, label⟩
    refine ⟨row, member, ?_⟩
    rw [known]
    simp only [soon, untold, and_self, if_true, same, url, label]

/-- The rows of a table are known by their ids. -/
theorem row_of_id {row row' : Proxy} (member : row ∈ table.rows) (member' : row' ∈ table.rows) (same : row.id = row'.id) :
    row = row' := List.inj_on_of_nodup_map table.distinct member member' same

theorem due_of_id {d' : DueProxy} (due : d ∈ expiring table.rows now) (due' : d' ∈ expiring table.rows now)
    (same : d'.id = d.id) : d' = d := by
  obtain ⟨row, member, -, known, -, own, url, label⟩ := mem_expiring.mp due
  obtain ⟨row', member', -, known', -, own', url', label'⟩ := mem_expiring.mp due'
  obtain rfl := row_of_id member' member (by rw [own', own, same])
  have expiry : d'.expiresAt = d.expiresAt := Option.some.inj (known'.symm.trans known)
  cases d; cases d'
  simp_all

theorem isMarked_mark : IsMarked (markExpiryNotified ids stamp table) id ↔
    IsMarked table id ∨ (id ∈ ids ∧ ∃ row ∈ table.rows, row.id = id) := by
  simp only [IsMarked, markExpiryNotified, List.mem_map]
  constructor
  · rintro ⟨_, ⟨row, member, rfl⟩, same, marked⟩
    split at same
    · rename_i inside
      exact .inr ⟨same ▸ inside, row, member, same⟩
    · rename_i outside
      rw [if_neg outside] at marked
      exact .inl ⟨row, member, same, marked⟩
  · rintro (⟨row, member, same, marked⟩ | ⟨inside, row, member, same⟩)
    · refine ⟨_, ⟨row, member, rfl⟩, ?_, ?_⟩
      · split <;> exact same
      · split
        · simp
        · exact marked
    · refine ⟨_, ⟨row, member, rfl⟩, ?_, ?_⟩
      · split <;> exact same
      · rw [if_pos (same ▸ inside)]; simp

theorem not_marked_of_due (due : d ∈ expiring table.rows now) : ¬ IsMarked table d.id := by
  obtain ⟨row, member, untold, -, -, same, -⟩ := mem_expiring.mp due
  rintro ⟨row', member', same', marked⟩
  rw [row_of_id member' member (same'.trans same.symm)] at marked
  exact marked untold

theorem marked_of_due (due : d ∈ expiring table.rows now) :
    IsMarked (markExpiryNotified ((expiring table.rows now).map DueProxy.id) stamp table) d.id := by
  obtain ⟨row, member, -, -, -, same, -⟩ := mem_expiring.mp due
  exact isMarked_mark.mpr (.inr ⟨List.mem_map_of_mem due, row, member, same⟩)

/-! ### The message -/

variable {evening : Evening} {bot : TelegramBot}

/-- What the bot sends to the admin: nothing unless it runs and has an admin chat. -/
theorem exec_sendAdmin (removal : Int → Option DbError) (answers : Nat → Answer) (text : Chars) :
    ∃ t, exec (sendAdmin bot removal answers text) {} = (.ok (), t) ∧
      ∀ chat, bot.adminChatId = some chat →
        received chat t.sends = if bot.started = true ∧ isDelivered answers = true then [text] else [] := by
  unfold sendAdmin
  cases started : bot.started with
  | false => exact ⟨{}, rfl, fun chat _ => rfl⟩
  | true =>
    simp only [Bool.not_true, Bool.false_eq_true, if_false, true_and]
    cases admin : bot.adminChatId with
    | none => exact ⟨_, rfl, fun chat same => by cases same⟩
    | some chat =>
      obtain ⟨sends, ends⟩ := @exec_deliver bot removal answers chat text {}
      have kept : cannotDrop bot removal chat = false := by simp [cannotDrop, isConfigured, admin]
      dsimp only
      rw [exec_bind]
      generalize exec (deliver bot removal answers chat text) {} = ran at sends ends
      obtain ⟨error | reason, t⟩ := ran
      · rw [kept] at ends
        simp [EndsAs] at ends
      · have got : received chat t.sends = if isDelivered answers = true then [text] else [] := by
          change t.sends = _ at sends
          rw [sends, List.nil_append, tries, received_attempts]
          simp only [isDelivered_iff]
        dsimp only
        split
        · exact ⟨_, rfl, fun _ same => Option.some.inj same ▸ got⟩
        · exact ⟨_, rfl, fun _ same => Option.some.inj same ▸ got⟩

/-- The lines of the message that are not about a proxy begin otherwise. -/
theorem proxyLine_mem {zone : Zone} {urllib : Urlsplit} {rows : List DueProxy} :
    proxyLine zone urllib now d ∈ proxyExpiryLines zone urllib rows now ↔
      proxyLine zone urllib now d ∈ (rows.take maxProxiesListed).map (proxyLine zone urllib now) := by
  have bullet : ∃ rest, proxyLine zone urllib now d = '•' :: rest := ⟨_, rfl⟩
  obtain ⟨rest, line⟩ := bullet
  rw [line, proxyExpiryLines, List.mem_append, List.mem_append, List.mem_cons]
  have head : ¬ '•' :: rest = "⏳ <b>Прокси скоро истекают</b>".toList := by intro same; cases same
  have foot : ¬ '•' :: rest ∈ ["Продлите или замените их в «Настройках».".toList] := by
    intro member; cases List.mem_singleton.mp member
  have tail : ¬ '•' :: rest ∈ (if maxProxiesListed < rows.length then
      ["…и ещё ".toList ++ (toString (rows.length - maxProxiesListed)).toList] else []) := by
    split
    · intro member; cases List.mem_singleton.mp member
    · simp
  simp only [head, foot, tail, false_or, or_false]

/-! ### Reminders -/

/-- The message of an evening. -/
def message (evening : Evening) (table : ProxyTable) : Chars :=
  formatProxyExpiry evening.zone evening.urllib (expiring table.rows evening.now) evening.now

/-- The message was delivered to the admin chat, and has the line of the proxy. -/
def Told (evening : Evening) (bot : TelegramBot) (table : ProxyTable) (sends : List Send) (d : DueProxy) : Prop :=
  (∃ chat, bot.adminChatId = some chat ∧ message evening table ∈ received chat sends) ∧
    proxyLine evening.zone evening.urllib evening.now d ∈
      proxyExpiryLines evening.zone evening.urllib (expiring table.rows evening.now) evening.now

/-- A proxy is marked only if the admin was told; otherwise it is due again. -/
structure NeverLost (evening : Evening) (bot : TelegramBot) (table : ProxyTable)
    (result : Except DbError ProxyTable × Trace) :
    Prop where
  marked : ∀ table', result.1 = .ok table' → ∀ id, ¬ IsMarked table id → IsMarked table' id →
    ∃ d ∈ expiring table.rows evening.now, d.id = id ∧ Told evening bot table result.2.sends d
  kept : ∀ table', result.1 = .ok table' → ∀ d ∈ expiring table.rows evening.now,
    ¬ Told evening bot table result.2.sends d → ∀ later, evening.now ≤ later → d ∈ expiring table'.rows later

/-- The admin gets the message of the evening. -/
def AdminReached (evening : Evening) (bot : TelegramBot) : Prop :=
  bot.started = true ∧ bot.adminChatId.isSome ∧ isDelivered evening.answers = true

/-- Every proxy that is due and not listed has the line of one that is. -/
def AllListed (evening : Evening) (table : ProxyTable) : Prop :=
  ∀ d ∈ (expiring table.rows evening.now).drop maxProxiesListed,
    proxyLine evening.zone evening.urllib evening.now d ∈
      ((expiring table.rows evening.now).take maxProxiesListed).map (proxyLine evening.zone evening.urllib evening.now)

theorem told_iff {t : Trace} (sent : ∀ chat, bot.adminChatId = some chat → received chat t.sends =
      if bot.started = true ∧ isDelivered evening.answers = true then [message evening table] else []) :
    Told evening bot table t.sends d ↔ AdminReached evening bot ∧
      proxyLine evening.zone evening.urllib evening.now d ∈
        ((expiring table.rows evening.now).take maxProxiesListed).map (proxyLine evening.zone evening.urllib evening.now) := by
  unfold Told AdminReached
  rw [proxyLine_mem]
  refine and_congr_left (fun _ => ?_)
  constructor
  · rintro ⟨chat, admin, got⟩
    rw [sent chat admin] at got
    split at got
    · rename_i both
      exact ⟨both.1, by rw [admin]; rfl, both.2⟩
    · cases got
  · rintro ⟨started, some_chat, delivered⟩
    obtain ⟨chat, admin⟩ := Option.isSome_iff_exists.mp some_chat
    exact ⟨chat, admin, by rw [sent chat admin, if_pos ⟨started, delivered⟩]; exact List.mem_singleton_self _⟩

/-- All that is due is marked; who was told depends on the message alone. -/
theorem exec_notifyExpiring (evening : Evening) (bot : TelegramBot) (table : ProxyTable)
    (due : expiring table.rows evening.now ≠ []) :
    ∃ t, exec (notifyExpiring evening (some bot) table) {} =
        (.ok (markExpiryNotified ((expiring table.rows evening.now).map DueProxy.id) evening.stamp table), t) ∧
      ∀ d, Told evening bot table t.sends d ↔ AdminReached evening bot ∧
        proxyLine evening.zone evening.urllib evening.now d ∈
          ((expiring table.rows evening.now).take maxProxiesListed).map (proxyLine evening.zone evening.urllib evening.now) := by
  obtain ⟨t, sent, got⟩ := @exec_sendAdmin bot evening.removal evening.answers (message evening table)
  refine ⟨t, ?_, fun d => told_iff got⟩
  unfold notifyExpiring
  dsimp only
  unfold message at sent
  rw [if_neg due, exec_bind, sent]
  rfl

/-- Where no reminder is lost, the message had every proxy that was due. -/
theorem NeverLost.reached (due : expiring table.rows evening.now ≠ [])
    (safe : NeverLost evening bot table (exec (notifyExpiring evening (some bot) table) {})) :
    AdminReached evening bot ∧ AllListed evening table := by
  obtain ⟨t, ran, told⟩ := exec_notifyExpiring evening bot table due
  rw [ran] at safe
  -- every proxy that is due was marked, so the admin was told about it
  have all : ∀ d ∈ expiring table.rows evening.now, Told evening bot table t.sends d := by
    intro d member
    obtain ⟨d', member', same, heard⟩ := safe.marked _ rfl d.id (not_marked_of_due member) (marked_of_due member)
    exact due_of_id member member' same ▸ heard
  obtain ⟨d, member⟩ := List.exists_mem_of_ne_nil _ due
  refine ⟨((told d).mp (all d member)).1, ?_⟩
  intro d rest
  exact ((told d).mp (all d (List.mem_of_mem_drop rest))).2

/-- A reminder is never lost exactly if nothing is due, or the message reaches the
    admin and has a line for every proxy that is due. -/
theorem reminders_never_lost_iff (evening : Evening) (bot : TelegramBot) (table : ProxyTable) :
    NeverLost evening bot table (exec (notifyExpiring evening (some bot) table) {}) ↔
      expiring table.rows evening.now = [] ∨ (AdminReached evening bot ∧ AllListed evening table) := by
  by_cases due : expiring table.rows evening.now = []
  · have nothing : exec (notifyExpiring evening (some bot) table) {} = (.ok table, {}) := by simp [notifyExpiring, due]
    rw [nothing]
    refine ⟨fun _ => .inl due, fun _ => ⟨?_, ?_⟩⟩
    · rintro _ same id unmarked marked
      cases same
      exact absurd marked unmarked
    · intro _ _ d member
      rw [due] at member
      cases member
  · constructor
    · exact fun safe => .inr (safe.reached due)
    · rintro (nothing | ⟨reached, listed⟩)
      · exact absurd nothing due
      · obtain ⟨t, ran, told⟩ := exec_notifyExpiring evening bot table due
        rw [ran]
        have all : ∀ d ∈ expiring table.rows evening.now, Told evening bot table t.sends d := by
          intro d member
          rw [← List.take_append_drop maxProxiesListed (expiring table.rows evening.now), List.mem_append] at member
          rcases member with first | rest
          · exact (told d).mpr ⟨reached, List.mem_map_of_mem first⟩
          · exact (told d).mpr ⟨reached, listed d rest⟩
        refine ⟨?_, fun _ _ d member untold => absurd (all d member) untold⟩
        rintro _ same id unmarked marked
        cases same
        rcases isMarked_mark.mp marked with before | ⟨inside, -⟩
        · exact absurd before unmarked
        · obtain ⟨d, member, own⟩ := List.mem_map.mp inside
          exact ⟨d, member, own, all d member⟩

/-- An evening on which Telegram does not answer. -/
def networkDown : Evening where
  zone _ := ⟨2026, 9, 22⟩
  urllib := { split := fun _ => ⟨none, none, none, none⟩, withNetloc := fun url _ => url }
  answers _ := .networkError "TimedOut"
  removal _ := none
  now := 0
  stamp := 0

/-- One proxy, which expires in a day. -/
def oneProxy : ProxyTable where
  rows := [⟨1, "http://h:1".toList, [], some day, none⟩]
  distinct := by decide

theorem reminder_lost : ¬ NeverLost networkDown { adminChatId := some 42 } oneProxy
    (exec (notifyExpiring networkDown (some { adminChatId := some 42 }) oneProxy) {}) := by
  intro safe
  have due : expiring oneProxy.rows networkDown.now ≠ [] := by decide +kernel
  have delivered := (safe.reached due).1.2.2
  exact absurd delivered (by decide)

end ScanApi.ExpiryReminders
