import ScanApi.Telegram

/-!
Who gets a digest. Each chat is served on its own: its sends are decided by what
Telegram answers for it. Only a chat that blocked the bot and cannot be
unsubscribed costs the chats after it their digest.
-/
namespace ScanApi.Broadcast
open ScanApi.Prog ScanApi.Telegram
open ScanApi.NotifyFormat (Chars)

/-! ### One message -/

/-- The answers to the attempts that are made. -/
def attempts (answers : Nat → Answer) : List Nat → List Answer
  | [] => []
  | attempt :: rest =>
    match answers attempt with
    | .retryAfter seconds => .retryAfter seconds :: attempts answers rest
    | .networkError typeName => .networkError typeName :: attempts answers rest
    | answer => [answer]

def isForbidden : Answer → Bool
  | .forbidden _ => true
  | _ => false

/-- Unsubscribing the chat fails. -/
def cannotDrop (bot : TelegramBot) (removal : Int → Option DbError) (chat : Int) : Bool :=
  !isConfigured bot chat && (removal chat).isSome

/-- How a delivery ends after its last attempt. -/
def EndsAs (stuck : Bool) (last : Option Answer) : Except DbError (Option String) → Prop
  | .ok none => last = some .sent
  | .ok (some reason) => reason ≠ "" ∧ last ≠ some .sent ∧ (last.any isForbidden && stuck) = false
  | .error _ => (last.any isForbidden && stuck) = true

variable {bot : TelegramBot} {removal : Int → Option DbError} {answers : Nat → Answer} {chat : Int} {text : Chars}

theorem append_ne_empty {s : String} (filled : s ≠ "") (t : String) : s ++ t ≠ "" := by
  simp [filled]

@[simp] theorem exec_sleep (seconds : ℚ) (t : Trace) :
    exec (sleep seconds) t = (.ok (), { t with pauses := t.pauses ++ [seconds] }) := rfl

@[simp] theorem exec_record (level : EventLog.Level) (message : String) (t : Trace) :
    exec (record level message) t = (.ok (), { t with events := t.events ++ [⟨level, .telegram, message⟩] }) := rfl

theorem exec_retryPause (attempt : Nat) (seconds : ℚ) (t : Trace) :
    ∃ t', exec (retryPause attempt seconds) t = (.ok (), t') ∧ t'.sends = t.sends := by
  unfold retryPause
  split
  · exact ⟨_, rfl, rfl⟩
  · exact ⟨_, rfl, rfl⟩

theorem exec_partGap (i : Nat) (t : Trace) : ∃ t', exec (partGap i) t = (.ok (), t') ∧ t'.sends = t.sends := by
  unfold partGap
  split
  · exact ⟨_, rfl, rfl⟩
  · exact ⟨_, rfl, rfl⟩

/-- Dropping a chat raises where it cannot be done, and sends nothing. -/
theorem exec_dropChat (t : Trace) : ∃ t' error, t'.sends = t.sends ∧
    exec (dropChat bot removal chat) t = (if cannotDrop bot removal chat then .error error else .ok (), t') := by
  unfold dropChat cannotDrop
  by_cases known : isConfigured bot chat = true
  · exact ⟨t, ⟨""⟩, rfl, by simp [known]⟩
  · cases failed : removal chat with
    | some error => exact ⟨t, error, rfl, by simp [known]⟩
    | none =>
      rw [if_neg known]
      simp only [exec_bind, exec_modify, exec_record, Option.isSome_none, Bool.and_false, Bool.false_eq_true, if_false]
      refine ⟨_, ⟨""⟩, ?_, rfl⟩
      rfl

theorem EndsAs.retried {stuck : Bool} {answer : Answer} {rest : List Answer} {result : Except DbError (Option String)}
    (unsent : answer ≠ .sent) (allowed : isForbidden answer = false) (ends : EndsAs stuck rest.getLast? result) :
    EndsAs stuck (answer :: rest).getLast? result := by
  cases rest with
  | cons next rest => exact ends
  | nil =>
    rcases result with error | _ | reason
    · cases ends
    · cases ends
    · exact ⟨ends.1, by simpa using unsent, by simp [allowed]⟩

/-- The sends of a delivery are the attempts that are made, and the last decides its end. -/
theorem exec_deliverFrom (reason : String) (filled : reason ≠ "") (left : List Nat) (t : Trace) :
    (exec (deliverFrom bot removal answers chat text reason left) t).2.sends =
        t.sends ++ (attempts answers left).map (fun answer => ⟨chat, text, answer⟩) ∧
      EndsAs (cannotDrop bot removal chat) (attempts answers left).getLast?
        (exec (deliverFrom bot removal answers chat text reason left) t).1 := by
  induction left generalizing reason t with
  | nil => exact ⟨by simp [deliverFrom, attempts], filled, by simp [attempts], by simp [attempts]⟩
  | cons attempt rest ih =>
    rw [deliverFrom, exec_bind, exec_modify, attempts]
    dsimp only
    -- an answer after which the next attempt is made
    have retry : ∀ (seconds : ℚ) (reason : String) (answer : Answer), reason ≠ "" → answer ≠ .sent →
        isForbidden answer = false →
        let again : Delivery (Option String) := retryPause attempt seconds >>= fun _ =>
          deliverFrom bot removal answers chat text reason rest
        let ran := exec again { t with sends := t.sends ++ [⟨chat, text, answer⟩] }
        ran.2.sends = t.sends ++ (answer :: attempts answers rest).map (fun answer => ⟨chat, text, answer⟩) ∧
          EndsAs (cannotDrop bot removal chat) (answer :: attempts answers rest).getLast? ran.1 := by
      intro seconds reason answer filled unsent allowed
      dsimp only
      obtain ⟨t', paused, same⟩ := exec_retryPause attempt seconds { t with sends := t.sends ++ [⟨chat, text, answer⟩] }
      obtain ⟨sends, ends⟩ := ih reason filled t'
      rw [exec_bind, paused]
      exact ⟨by rw [sends, same]; simp, ends.retried unsent allowed⟩
    cases answers attempt with
    | sent => exact ⟨by simp, rfl⟩
    | retryAfter seconds => exact retry seconds _ (.retryAfter seconds) (by decide) (by simp) rfl
    | networkError typeName =>
      exact retry _ _ (.networkError typeName) (append_ne_empty (append_ne_empty (append_ne_empty (by decide) _) _) _) (by simp) rfl
    | badRequest exc => exact ⟨by simp, append_ne_empty (append_ne_empty (by decide) _) _, by simp, rfl⟩
    | other typeName => exact ⟨by simp, append_ne_empty (append_ne_empty (by decide) _) _, by simp, rfl⟩
    | forbidden exc =>
      obtain ⟨t', error, same, dropped⟩ :=
        @exec_dropChat bot removal chat { t with sends := t.sends ++ [⟨chat, text, .forbidden exc⟩] }
      dsimp only
      rw [exec_bind, dropped]
      cases stuck : cannotDrop bot removal chat with
      | true => exact ⟨by simp [same], rfl⟩
      | false => exact ⟨by simp [same], append_ne_empty (append_ne_empty (by decide) _) _, by simp, rfl⟩

/-! ### One chat -/

/-- The answers to the attempts at one message. -/
def tries (answers : Nat → Answer) : List Answer := attempts answers (List.range sendAttempts)

def isDelivered (answers : Nat → Answer) : Bool := (tries answers).getLast? = some .sent

def isBlocked (answers : Nat → Answer) : Bool := (tries answers).getLast?.any isForbidden

/-- The sends to a chat: up to the first part that is not delivered. -/
def deliveries (answers : Nat → Nat → Answer) (chat : Int) : Nat → List Chars → List Send
  | _, [] => []
  | i, text :: rest =>
    (tries (answers i)).map (fun answer => ⟨chat, text, answer⟩) ++
      if isDelivered (answers i) then deliveries answers chat (i + 1) rest else []

/-- The first part that is not delivered is refused because the chat blocked the bot. -/
def blocksFrom (answers : Nat → Nat → Answer) : Nat → List Chars → Bool
  | _, [] => false
  | i, _ :: rest => if isDelivered (answers i) then blocksFrom answers (i + 1) rest else isBlocked (answers i)

theorem attempts_ne_nil (answers : Nat → Answer) (attempt : Nat) (rest : List Nat) :
    attempts answers (attempt :: rest) ≠ [] := by
  rw [attempts]
  cases answers attempt <;> simp

theorem tries_ne_nil (answers : Nat → Answer) : tries answers ≠ [] := attempts_ne_nil answers 0 [1, 2]

theorem exec_deliver (t : Trace) :
    (exec (deliver bot removal answers chat text) t).2.sends =
      t.sends ++ (tries answers).map (fun answer => ⟨chat, text, answer⟩) ∧
      EndsAs (cannotDrop bot removal chat) (tries answers).getLast? (exec (deliver bot removal answers chat text) t).1 :=
  exec_deliverFrom "неизвестная ошибка" (by decide) (List.range sendAttempts) t

theorem undelivered_of_blocked {answers : Nat → Answer} (blocked : isBlocked answers = true) :
    isDelivered answers = false := by
  unfold isBlocked at blocked
  unfold isDelivered
  cases last : (tries answers).getLast? with
  | none => rfl
  | some answer =>
    rw [last] at blocked
    cases answer <;> first | rfl | cases blocked

variable {world : World}

/-- The sends to a chat are decided by its own answers; it raises where it blocked the
    bot and cannot be unsubscribed. -/
theorem exec_sendParts (i : Nat) (texts : List Chars) (t : Trace) :
    (exec (sendParts bot world chat i texts) t).2.sends = t.sends ++ deliveries (world.answer chat) chat i texts ∧
      ((exec (sendParts bot world chat i texts) t).1.isOk =
        !(blocksFrom (world.answer chat) i texts && cannotDrop bot world.removal chat)) := by
  induction texts generalizing i t with
  | nil => exact ⟨by simp [sendParts, deliveries], rfl⟩
  | cons text rest ih =>
    obtain ⟨t₁, gap, same⟩ := exec_partGap i t
    obtain ⟨sends, ends⟩ := @exec_deliver bot world.removal (world.answer chat i) chat text t₁
    rw [sendParts, exec_bind, gap]
    dsimp only
    rw [exec_bind]
    generalize exec (deliver bot world.removal (world.answer chat i) chat text) t₁ = ran at sends ends
    obtain ⟨result, t₂⟩ := ran
    dsimp only at sends ends
    rw [deliveries, blocksFrom]
    rcases result with error | _ | reason
    · have blocked : isBlocked (world.answer chat i) = true ∧ cannotDrop bot world.removal chat = true := by
        simpa [EndsAs, isBlocked] using ends
      dsimp only
      rw [undelivered_of_blocked blocked.1, blocked.1, blocked.2, sends, same]
      exact ⟨by simp, rfl⟩
    · have delivered : isDelivered (world.answer chat i) = true := by simpa [isDelivered, EndsAs] using ends
      obtain ⟨rest_sends, rest_ends⟩ := ih (i + 1) t₂
      simp only [Option.getD_none, ne_eq, not_true, if_false, delivered, if_true]
      exact ⟨by rw [rest_sends, sends, same, List.append_assoc], rest_ends⟩
    · obtain ⟨filled, unsent, free⟩ := ends
      have undelivered : isDelivered (world.answer chat i) = false := by simpa [isDelivered] using unsent
      have kept : (isBlocked (world.answer chat i) && cannotDrop bot world.removal chat) = false := free
      simp only [Option.getD_some, ne_eq, filled, not_false_eq_true, if_true, undelivered, Bool.false_eq_true, if_false,
        kept]
      exact ⟨by rw [List.append_nil, ← same, ← sends]; rfl, rfl⟩

/-! ### All chats -/

/-- A chat costs those after it their digest. -/
def isStuck (bot : TelegramBot) (world : World) (texts : List Chars) (chat : Int) : Bool :=
  blocksFrom (world.answer chat) 0 texts && cannotDrop bot world.removal chat

/-- The chats up to the first that is stuck. -/
def reached (stuck : Int → Bool) : List Int → List Int
  | [] => []
  | chat :: rest => chat :: if stuck chat then [] else reached stuck rest

theorem reached_of_none {stuck : Int → Bool} {chats : List Int}
    (none_stuck : ∀ chat ∈ chats.dropLast, stuck chat = false) :
    reached stuck chats = chats := by
  induction chats with
  | nil => rfl
  | cons chat rest ih =>
    cases rest with
    | nil => simp [reached]
    | cons next rest =>
      have first : stuck chat = false := none_stuck chat (by simp)
      have others := ih (fun c member => none_stuck c (by simp [member]))
      rw [reached, first, others]
      simp

theorem reached_of_stuck {stuck : Int → Bool} {early : List Int} {chat : Int} (member : chat ∈ early)
    (here : stuck chat = true)
    (late : List Int) : ∀ c ∈ reached stuck (early ++ late), c ∈ early := by
  induction early with
  | nil => cases member
  | cons first rest ih =>
    rw [List.cons_append, reached]
    by_cases now : stuck first = true
    · simp [now]
    · have later : chat ∈ rest := by
        rcases List.mem_cons.mp member with rfl | later
        · exact absurd here now
        · exact later
      simp only [now, Bool.false_eq_true, if_false, List.mem_cons]
      rintro c (rfl | inside)
      · exact .inl rfl
      · exact .inr (ih later c inside)

/-- What is sent to the chats, one after another. -/
theorem exec_sendChats (texts : List Chars) (chats : List Int) (failures : Dict Int String) (t : Trace) :
    (exec (sendChats bot world texts chats failures) t).2.sends =
      t.sends ++ (reached (isStuck bot world texts) chats).flatMap
        (fun chat => deliveries (world.answer chat) chat 0 texts) := by
  induction chats generalizing failures t with
  | nil => simp [sendChats, reached]
  | cons chat rest ih =>
    obtain ⟨sends, ends⟩ := @exec_sendParts bot chat world 0 texts t
    rw [sendChats, exec_bind]
    generalize exec (sendParts bot world chat 0 texts) t = ran at sends ends
    obtain ⟨result, t₁⟩ := ran
    dsimp only at sends ends
    rw [reached, List.flatMap_cons]
    rcases result with error | reason
    · have stuck : isStuck bot world texts chat = true := by
        rw [isStuck, ← Bool.not_eq_false', ← ends]; rfl
      rw [stuck]
      simp [sends]
    · have free : isStuck bot world texts chat = false := by
        rw [isStuck, ← Bool.not_eq_true', ← ends]; rfl
      -- whether the chat failed decides what is noted, and nothing that is sent
      cases reason with
      | none => rw [free, ih, sends]; simp
      | some reason => rw [free, ih, sends]; simp

theorem exec_recordBroadcast (total : Nat) (failures : Dict Int String) (t : Trace) :
    (exec (recordBroadcast total failures) t).2.sends = t.sends := by
  simp only [recordBroadcast]
  split
  · rfl
  · rfl

/-- The sends of a broadcast. -/
theorem exec_broadcast (started : bot.started = true) {texts : List Chars} (filled : texts ≠ []) :
    (exec (broadcast bot world texts) {}).2.sends =
      (reached (isStuck bot world texts) (chatsOf bot world)).flatMap
        (fun chat => deliveries (world.answer chat) chat 0 texts) := by
  have going : ¬ ((!bot.started) = true ∨ texts = []) := by simp [started, filled]
  unfold broadcast
  rw [if_neg going]
  dsimp only
  by_cases none : chatsOf bot world = []
  · rw [if_pos none, none]; rfl
  · rw [if_neg none, exec_bind]
    have sends := @exec_sendChats bot world texts (chatsOf bot world) Dict.empty {}
    generalize exec (sendChats bot world texts (chatsOf bot world) Dict.empty) {} = ran at sends
    obtain ⟨error | failures, t⟩ := ran
    · exact sends
    · dsimp only
      rw [exec_recordBroadcast]
      exact sends

/-! ### Who gets what -/

/-- The texts that reached a chat. -/
def received (chat : Int) (sends : List Send) : List Chars :=
  (sends.filter (fun s => s.chat = chat && s.answer = .sent)).map Send.text

/-- The sends to a chat follow one another, and there are some. -/
def TriedOnce (chat : Int) (sends : List Send) : Prop :=
  ∃ before own after, sends = before ++ own ++ after ∧ own ≠ [] ∧ (∀ s ∈ own, s.chat = chat) ∧
    ∀ s ∈ before ++ after, s.chat ≠ chat

/-- The last send to a chat failed. -/
def LastFailed (chat : Int) (sends : List Send) : Prop :=
  ∃ s, (sends.filter (fun s => s.chat = chat)).getLast? = some s ∧ s.answer ≠ .sent

theorem received_append (chat : Int) (sends sends' : List Send) :
    received chat (sends ++ sends') = received chat sends ++ received chat sends' := by
  simp [received]

/-- Among the attempts at a message only the last may deliver it. -/
theorem received_attempts (chat : Int) (text : Chars) (answers : Nat → Answer) (left : List Nat) :
    received chat ((attempts answers left).map (fun answer => ⟨chat, text, answer⟩)) =
      if (attempts answers left).getLast? = some .sent then [text] else [] := by
  induction left with
  | nil => rfl
  | cons attempt rest ih =>
    have again : ∀ answer : Answer, answer ≠ .sent →
        received chat ((answer :: attempts answers rest).map (fun answer => ⟨chat, text, answer⟩)) =
          if (answer :: attempts answers rest).getLast? = some .sent then [text] else [] := by
      intro answer unsent
      have skipped : received chat ((answer :: attempts answers rest).map (fun answer => ⟨chat, text, answer⟩)) =
          received chat ((attempts answers rest).map (fun answer => ⟨chat, text, answer⟩)) := by
        simp [received, unsent]
      rw [skipped, ih]
      cases here : attempts answers rest with
      | nil => simp [unsent]
      | cons next others => simp
    rw [attempts]
    cases answers attempt with
    | sent => simp [received]
    | retryAfter seconds => exact again _ (by simp)
    | networkError typeName => exact again _ (by simp)
    | forbidden exc => simp [received]
    | badRequest exc => simp [received]
    | other typeName => simp [received]

theorem chat_of_deliveries {answers : Nat → Nat → Answer} {chat : Int} {i : Nat} {texts : List Chars} :
    ∀ s ∈ deliveries answers chat i texts, s.chat = chat := by
  induction texts generalizing i with
  | nil => simp [deliveries]
  | cons text rest ih =>
    intro s member
    rw [deliveries, List.mem_append] at member
    rcases member with own | later
    · obtain ⟨answer, -, rfl⟩ := List.mem_map.mp own
      rfl
    · split at later
      · exact ih s later
      · simp at later

theorem deliveries_ne_nil (answers : Nat → Nat → Answer) (chat : Int) {texts : List Chars} (filled : texts ≠ []) :
    deliveries answers chat 0 texts ≠ [] := by
  obtain ⟨text, rest, rfl⟩ := List.exists_cons_of_ne_nil filled
  simp [deliveries, tries_ne_nil]

theorem isDelivered_iff {answers : Nat → Answer} :
    isDelivered answers = true ↔ (attempts answers (List.range sendAttempts)).getLast? = some .sent := decide_eq_true_iff

/-- A chat gets a first part of the texts: all of them, unless its last send failed. -/
theorem received_deliveries (answers : Nat → Nat → Answer) (chat : Int) (i : Nat) (texts : List Chars) :
    received chat (deliveries answers chat i texts) <+: texts ∧
      (received chat (deliveries answers chat i texts) = texts ∨
        ∃ s, (deliveries answers chat i texts).getLast? = some s ∧ s.answer ≠ .sent) := by
  induction texts generalizing i with
  | nil => exact ⟨by simp [deliveries, received], .inl rfl⟩
  | cons text rest ih =>
    rw [deliveries, received_append, tries, received_attempts]
    by_cases delivered : isDelivered (answers i) = true
    · have last := isDelivered_iff.mp delivered
      obtain ⟨begins, ends⟩ := ih (i + 1)
      rw [if_pos last, if_pos delivered]
      refine ⟨by simpa using begins, ?_⟩
      rcases ends with all | ⟨s, ended, failed⟩
      · exact .inl (by simp [all])
      · exact .inr ⟨s, by simp [List.getLast?_append, ended], failed⟩
    · have last : (attempts (answers i) (List.range sendAttempts)).getLast? ≠ some .sent :=
        fun sent => delivered (isDelivered_iff.mpr sent)
      rw [if_neg last, if_neg delivered]
      refine ⟨List.nil_prefix, .inr ?_⟩
      cases ended : (attempts (answers i) (List.range sendAttempts)).getLast? with
      | none => exact absurd (List.getLast?_eq_none_iff.mp ended) (tries_ne_nil (answers i))
      | some answer =>
        rw [ended] at last
        exact ⟨⟨chat, text, answer⟩, by simp [ended], fun sent => last (congrArg some sent)⟩

variable {texts : List Chars}

theorem mem_chatsOf : chat ∈ chatsOf bot world ↔ chat ∈ world.subscribers ∨ bot.fixedChatId = some chat := by
  have keys : chat ∈ chatsOf bot world ↔ chat ∈ (Dict.firstBy id (world.subscribers ++ bot.fixedChatId.toList)).keys := by
    simp [chatsOf, Dict.keys]
  rw [keys, Dict.mem_keys_firstBy]
  simp

theorem nodup_chatsOf : (chatsOf bot world).Nodup := Dict.distinct _

/-- The sends to one chat among those to distinct chats. -/
theorem filter_sends {chats : List Int} (distinct : chats.Nodup) (answers : Int → Nat → Nat → Answer) (chat : Int) :
    (chats.flatMap (fun c => deliveries (answers c) c 0 texts)).filter (fun s => s.chat = chat) =
      if chat ∈ chats then deliveries (answers chat) chat 0 texts else [] := by
  induction chats with
  | nil => rfl
  | cons c rest ih =>
    obtain ⟨absent, rest_distinct⟩ := List.nodup_cons.mp distinct
    rw [List.flatMap_cons, List.filter_append, ih rest_distinct]
    by_cases same : c = chat
    · subst same
      have own : (deliveries (answers c) c 0 texts).filter (fun s => s.chat = c) = deliveries (answers c) c 0 texts :=
        List.filter_eq_self.mpr (fun s member => by simp [chat_of_deliveries s member])
      rw [own, if_neg absent, if_pos List.mem_cons_self, List.append_nil]
    · have others : (deliveries (answers c) c 0 texts).filter (fun s => s.chat = chat) = [] :=
        List.filter_eq_nil_iff.mpr (fun s member => by simp [chat_of_deliveries s member, same])
      have other : chat ≠ c := Ne.symm same
      simp [others, other]

theorem received_filter (chat : Int) (sends : List Send) :
    received chat (sends.filter (fun s => s.chat = chat)) = received chat sends := by
  simp [received, List.filter_filter, Bool.and_comm]

/-- Who gets a digest: the subscribers and the fixed chat. -/
def Recipient (bot : TelegramBot) (world : World) (chat : Int) : Prop :=
  chat ∈ world.subscribers ∨ bot.fixedChatId = some chat

/-- One chat's trouble never costs another chat its digest. -/
structure Isolated (bot : TelegramBot) (world : World) (texts : List Chars) (sends : List Send) : Prop where
  tried : ∀ chat, Recipient bot world chat → TriedOnce chat sends
  only : ∀ s ∈ sends, Recipient bot world s.chat
  inOrder : ∀ chat, received chat sends <+: texts
  complete : ∀ chat, Recipient bot world chat → received chat sends = texts ∨ LastFailed chat sends

theorem triedOnce_of_mem {chats : List Int} (distinct : chats.Nodup) (filled : texts ≠ [])
    (answers : Int → Nat → Nat → Answer) (member : chat ∈ chats) :
    TriedOnce chat (chats.flatMap (fun c => deliveries (answers c) c 0 texts)) := by
  obtain ⟨early, late, rfl⟩ := List.append_of_mem member
  refine ⟨early.flatMap (fun c => deliveries (answers c) c 0 texts), deliveries (answers chat) chat 0 texts,
    late.flatMap (fun c => deliveries (answers c) c 0 texts), by simp, deliveries_ne_nil _ chat filled,
    chat_of_deliveries, ?_⟩
  intro s inside same
  rw [← List.flatMap_append] at inside
  obtain ⟨c, other, sent⟩ := List.mem_flatMap.mp inside
  rw [chat_of_deliveries s sent] at same
  subst same
  have apart : c ∉ early ++ late := (List.nodup_middle.mp distinct |> List.nodup_cons.mp).1
  exact apart other

/-- A broadcast isolates the chats exactly if none before the last blocked the bot
    and cannot be unsubscribed. -/
theorem broadcast_isolates_iff (started : bot.started = true) (filled : texts ≠ []) :
    Isolated bot world texts (exec (broadcast bot world texts) {}).2.sends ↔
      ∀ chat ∈ (chatsOf bot world).dropLast,
        ¬ (blocksFrom (world.answer chat) 0 texts = true ∧ cannotDrop bot world.removal chat = true) := by
  have stuck_iff : ∀ c, isStuck bot world texts c = true ↔
      blocksFrom (world.answer c) 0 texts = true ∧ cannotDrop bot world.removal c = true := by
    intro c; simp [isStuck]
  rw [exec_broadcast started filled]
  constructor
  · intro isolated chat early blocked
    have none_empty : chatsOf bot world ≠ [] := by
      intro empty; rw [empty] at early; cases early
    -- the last chat is not reached
    have split := List.dropLast_append_getLast none_empty
    have last := mem_chatsOf.mp (List.getLast_mem none_empty)
    have apart : (chatsOf bot world).getLast none_empty ∉ (chatsOf bot world).dropLast := by
      have distinct := @nodup_chatsOf bot world
      rw [← split] at distinct
      exact fun again => (List.nodup_append.mp distinct).2.2 _ again _ (List.mem_singleton_self _) rfl
    obtain ⟨before, own, after, sends, some_sends, ours, -⟩ := isolated.tried _ last
    obtain ⟨s, member⟩ := List.exists_mem_of_ne_nil own some_sends
    have inside : s ∈ (reached (isStuck bot world texts) (chatsOf bot world)).flatMap
        (fun c => deliveries (world.answer c) c 0 texts) := by rw [sends]; simp [member]
    obtain ⟨c, reached_c, sent⟩ := List.mem_flatMap.mp inside
    have same : c = (chatsOf bot world).getLast none_empty := by rw [← chat_of_deliveries s sent, ours s member]
    rw [← split] at reached_c
    exact apart (same ▸ reached_of_stuck early ((stuck_iff chat).mpr blocked) _ c reached_c)
  · intro free
    have all : reached (isStuck bot world texts) (chatsOf bot world) = chatsOf bot world :=
      reached_of_none (fun c member => Bool.eq_false_iff.mpr (fun stuck => free c member ((stuck_iff c).mp stuck)))
    rw [all]
    have own : ∀ chat, received chat ((chatsOf bot world).flatMap (fun c => deliveries (world.answer c) c 0 texts)) =
        received chat (if chat ∈ chatsOf bot world then deliveries (world.answer chat) chat 0 texts else []) := by
      intro chat
      rw [← received_filter, filter_sends nodup_chatsOf]
    refine ⟨?_, ?_, ?_, ?_⟩
    · exact fun chat recipient => triedOnce_of_mem nodup_chatsOf filled world.answer (mem_chatsOf.mpr recipient)
    · intro s member
      obtain ⟨c, inside, sent⟩ := List.mem_flatMap.mp member
      rw [chat_of_deliveries s sent]
      exact mem_chatsOf.mp inside
    · intro chat
      rw [own]
      split
      · exact (received_deliveries _ chat 0 texts).1
      · exact List.nil_prefix
    · intro chat recipient
      have member := mem_chatsOf.mpr recipient
      rw [own, if_pos member, LastFailed, filter_sends nodup_chatsOf, if_pos member]
      exact (received_deliveries _ chat 0 texts).2

/-- Two subscribers, of whom the first has blocked the bot. -/
def blockedFirst (removal : Int → Option DbError) : World where
  subscribers := [1, 2]
  answer chat _ _ := if chat = 1 then .forbidden "bot was blocked by the user" else .sent
  removal := removal

theorem blocked_is_isolated : Isolated {} (blockedFirst fun _ => none) ["a".toList, "b".toList]
    (exec (broadcast {} (blockedFirst fun _ => none) ["a".toList, "b".toList]) {}).2.sends :=
  (broadcast_isolates_iff rfl (by decide)).mpr (by decide)

/-- The database cannot unsubscribe the first chat: the second gets nothing. -/
theorem second_gets_nothing : ¬ Isolated {} (blockedFirst fun _ => some ⟨"connection is closed"⟩) ["a".toList]
    (exec (broadcast {} (blockedFirst fun _ => some ⟨"connection is closed"⟩) ["a".toList]) {}).2.sends := by
  have sends : (exec (broadcast {} (blockedFirst fun _ => some ⟨"connection is closed"⟩) ["a".toList]) {}).2.sends =
      [⟨1, "a".toList, .forbidden "bot was blocked by the user"⟩] := by decide +kernel
  intro isolated
  obtain ⟨before, own, after, split, some_sends, ours, -⟩ := isolated.tried 2 (.inl (by decide))
  obtain ⟨s, member⟩ := List.exists_mem_of_ne_nil own some_sends
  rw [sends] at split
  have only : s = ⟨1, "a".toList, .forbidden "bot was blocked by the user"⟩ :=
    List.mem_singleton.mp (by rw [split]; simp [member])
  have second := ours s member
  rw [only] at second
  cases second

end ScanApi.Broadcast
