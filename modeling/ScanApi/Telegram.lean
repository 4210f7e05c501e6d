import Mathlib.Data.Rat.Defs
import ScanApi.EventLog
import ScanApi.NotifyFormat
import ScanApi.Prog

/-!
Delivery of messages by the bot (`app/telegram_bot.py`). What Telegram answers to
each attempt and whether the database can unsubscribe a chat is given from
outside; what the bot does is recorded in the order in which it happens.
-/
namespace ScanApi.Telegram
open ScanApi.EventLog
open ScanApi.NotifyFormat (Chars)

def sendAttempts : Nat := 3
/-- Seconds between parts of one digest to the same chat. -/
def partPause : ℚ := 1
/-- Network error backoff: 2s, 4s. -/
def backoffBase : ℚ := 2

/-- What a call of `send_message` comes to. -/
inductive Answer
  | sent
  | retryAfter (seconds : ℚ)
  | forbidden (text : String)
  | badRequest (text : String)
  | networkError (typeName : String)
  | other (typeName : String)
deriving DecidableEq, Repr

/-- A call of `send_message`. -/
structure Send where
  chat : Int
  text : Chars
  answer : Answer
deriving DecidableEq, Repr

structure DbError where
  text : String
deriving DecidableEq, Repr

/-- What the bot has done so far. -/
structure Trace where
  sends : List Send := []
  pauses : List ℚ := []
  removed : List Int := []
  events : List Event := []
deriving DecidableEq

abbrev Delivery := Prog Trace DbError

/-- The fields that delivery reads; `started` is `self._app is not None`. -/
structure TelegramBot where
  started : Bool := true
  fixedChatId : Option Int := none
  adminChatId : Option Int := none

/-- The subscribers in the database, what Telegram answers to the attempts at each
    part for each chat, and the error of unsubscribing a chat, if it fails. -/
structure World where
  subscribers : List Int
  answer : Int → Nat → Nat → Answer
  removal : Int → Option DbError

def record (level : Level) (message : String) : Delivery Unit :=
  modify (fun t => { t with events := t.events ++ [⟨level, .telegram, message⟩] })

def sleep (seconds : ℚ) : Delivery Unit := modify (fun t => { t with pauses := t.pauses ++ [seconds] })

/-- A chat of the configuration is never unsubscribed. -/
def isConfigured (bot : TelegramBot) (chat : Int) : Bool := bot.fixedChatId = some chat || bot.adminChatId = some chat

def dropChat (bot : TelegramBot) (removal : Int → Option DbError) (chat : Int) : Delivery Unit :=
  if isConfigured bot chat then pure ()
  else
    match removal chat with
    | some error => throw error
    | none => do
      modify (fun t => { t with removed := t.removed ++ [chat] })
      record .info ("Чат " ++ toString chat ++ " заблокировал бота — он отписан от рассылки")

/-- The pause before the next attempt, if there is one. -/
def retryPause (attempt : Nat) (seconds : ℚ) : Delivery Unit :=
  if attempt + 1 < sendAttempts then sleep seconds else pure ()

/-- The attempts that are left, after those that came to `reason`. -/
def deliverFrom (bot : TelegramBot) (removal : Int → Option DbError) (answers : Nat → Answer) (chat : Int) (text : Chars) :
    String → List Nat → Delivery (Option String)
  | reason, [] => pure (some reason)
  | _, attempt :: rest => do
    modify (fun t => { t with sends := t.sends ++ [⟨chat, text, answers attempt⟩] })
    match answers attempt with
    | .sent => pure none
    | .retryAfter seconds => do
      retryPause attempt seconds
      deliverFrom bot removal answers chat text "Telegram ограничил частоту отправки (слишком много сообщений)" rest
    | .forbidden exc => do
      dropChat bot removal chat
      pure (some ("бот заблокировал пользователь или его удалили из чата (" ++ exc ++ ")"))
    | .badRequest exc => pure (some ("Telegram отклонил сообщение (" ++ exc ++ ")"))
    | .networkError typeName => do
      retryPause attempt (backoffBase * 2 ^ attempt)
      deliverFrom bot removal answers chat text
        ("сеть: Telegram не ответил за " ++ toString sendAttempts ++ " попытки (" ++ typeName ++ ")") rest
    | .other typeName => pure (some ("непредвиденная ошибка (" ++ typeName ++ ")"))

/-- Sends one message: `none` on success, otherwise why it failed. -/
def deliver (bot : TelegramBot) (removal : Int → Option DbError) (answers : Nat → Answer) (chat : Int) (text : Chars) :
    Delivery (Option String) :=
  deliverFrom bot removal answers chat text "неизвестная ошибка" (List.range sendAttempts)

/-- The pause before every part but the first. -/
def partGap (i : Nat) : Delivery Unit := if i ≠ 0 then sleep partPause else pure ()

/-- The parts from the `i`-th on, until one fails. -/
def sendParts (bot : TelegramBot) (world : World) (chat : Int) : Nat → List Chars → Delivery (Option String)
  | _, [] => pure none
  | i, text :: rest => do
    partGap i
    let reason ← deliver bot world.removal (world.answer chat i) chat text
    if reason.getD "" ≠ "" then pure reason
    else sendParts bot world chat (i + 1) rest

/-- Every chat in turn; the chats that failed, with the reasons. -/
def sendChats (bot : TelegramBot) (world : World) (texts : List Chars) :
    List Int → Dict Int String → Delivery (Dict Int String)
  | [], failures => pure failures
  | chat :: rest, failures => do
    match ← sendParts bot world chat 0 texts with
    | some reason => sendChats bot world texts rest (failures.set chat reason)
    | none => sendChats bot world texts rest failures

/-- The distinct chats: `dict.fromkeys` of the subscribers and the fixed chat. -/
def chatsOf (bot : TelegramBot) (world : World) : List Int :=
  ((Dict.firstBy id (world.subscribers ++ bot.fixedChatId.toList)).entries).map Prod.fst

def countChats (n : Nat) : String := count n "чат" "чата" "чатов"

def recordBroadcast (total : Nat) (failures : Dict Int String) : Delivery Unit :=
  let delivered := total - failures.entries.length
  if delivered = 0 then record .error ("Сводка изменений не доставлена ни в один из " ++ countChats total)
  else record (if failures.entries = [] then .success else .warning)
    ("Сводка отправлена в Telegram: доставлено в " ++ toString delivered ++ " из " ++ countChats total)

/-- Sends every part of the digest to each subscriber and the fixed chat. -/
def broadcast (bot : TelegramBot) (world : World) (texts : List Chars) : Delivery Unit :=
  if !bot.started ∨ texts = [] then pure ()
  else
    let chats := chatsOf bot world
    if chats = [] then
      record .warning "Сводка изменений готова, но её некому отправить: нет подписчиков и не задан TELEGRAM_CHAT_ID"
    else do
      let failures ← sendChats bot world texts chats Dict.empty
      recordBroadcast chats.length failures

/-- Sends to the admin chat; what fails is only recorded. -/
def sendAdmin (bot : TelegramBot) (removal : Int → Option DbError) (answers : Nat → Answer) (text : Chars) :
    Delivery Unit :=
  if !bot.started then pure ()
  else
    match bot.adminChatId with
    | none => record .warning "Уведомление администратору не отправлено: не задан TELEGRAM_ADMIN_CHAT"
    | some chat => do
      let reason ← deliver bot removal answers chat text
      if reason.getD "" ≠ "" then record .error "Не удалось отправить уведомление администратору в Telegram"
      else record .success "Уведомление администратору отправлено в Telegram"

end ScanApi.Telegram
