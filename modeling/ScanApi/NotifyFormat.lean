import ScanApi.Diff
import ScanApi.Settings

/-!
Telegram messages (`app/notify_format.py`), as characters: the digest of changes
and the admin alerts. Text that comes from a bank is escaped, and cut before it
is escaped.
-/
namespace ScanApi.NotifyFormat
open ScanApi.Diff ScanApi.Unicode
open ScanApi.Settings (Clock twoDigits)

/-! ### Banks -/

inductive Bank
  | tbank
  | tochka
  | alfabank
  | sber
deriving DecidableEq, Repr

def bankKeys : List Bank := [.tbank, .tochka, .alfabank, .sber]

def bankLabel : Bank → String
  | .tbank => "Т-Банк"
  | .tochka => "Точка"
  | .alfabank => "Альфа-Банк"
  | .sber => "Сбер"

/-! ### Helpers -/

abbrev Chars := List Char

def tgLimit : Nat := 4096
def maxLinesPerBank : Nat := 10
/-- More changes than this: counts only. -/
def bulkThreshold : Nat := 30
def maxFieldsShown : Nat := 5
def maxErrorChars : Nat := 400
def maxNameChars : Nat := 200
def maxUrlChars : Nat := 500

def escapeChar : Char → Chars
  | '&' => "&amp;".toList
  | '<' => "&lt;".toList
  | '>' => "&gt;".toList
  | '"' => "&quot;".toList
  | '\'' => "&#x27;".toList
  | c => [c]

/-- `escape(text, quote=True)`. -/
def escape (text : Chars) : Chars := text.flatMap escapeChar

/-- `text if len(text) <= limit else text[:limit] + "…"`. -/
def clip (text : Chars) (limit : Nat) : Chars := if text.length ≤ limit then text else text.take limit ++ ['…']

def isHttp (url : Chars) : Bool := "https://".toList.isPrefixOf url || "http://".toList.isPrefixOf url

/-- Only http(s) links; anything else is dropped. -/
def link (url title : Chars) : Chars :=
  if !isHttp url || maxUrlChars < url.length then []
  else "<a href=\"".toList ++ escape url ++ "\">".toList ++ escape title ++ "</a>".toList

def withLink (text url : Chars) : Chars :=
  let link := link url "док".toList
  if link = [] then text else text ++ " · ".toList ++ link

/-- What stands before the first `" / "`, if it occurs. -/
def beforeSlash : Chars → Option Chars
  | ' ' :: '/' :: ' ' :: _ => some []
  | c :: rest => (beforeSlash rest).map (c :: ·)
  | [] => none

def serviceOf (change : Change) : Chars := (beforeSlash change.entityPath.toList).getD []

/-- The nonempty parts of a list of names, stripped. -/
def names (unicode : CharTables) (value : String) : List Chars :=
  ((value.toList.splitOn ',').map (strip unicode)).filter (· ≠ [])

def fieldDiff (unicode : CharTables) (change : Change) : Chars :=
  let added := names unicode change.newValue
  let removed := (names unicode change.oldValue).map (fun f => '−' :: f.dropWhile (· = '-'))
  let items := added ++ removed
  let shown := ", ".toList.intercalate (items.take maxFieldsShown)
  let text :=
    if maxFieldsShown < items.length then
      shown ++ " … (+".toList ++ (toString (items.length - maxFieldsShown)).toList ++ ")".toList
    else shown
  clip text (maxNameChars * 2)

/-! ### Digest -/

def emoji : Action → Char
  | .added => '🟢'
  | .removed => '🔴'
  | .modified => '🟡'

def changeLine (unicode : CharTables) (c : Change) : Chars :=
  let name := escape (clip c.entityName.toList maxNameChars)
  match c.changeType with
  | .service => withLink (emoji c.action :: " Сервис «".toList ++ name ++ "»".toList) c.url.toList
  | .field => emoji c.action :: " <code>".toList ++ name ++ "</code>: ".toList ++ escape (fieldDiff unicode c)
  | .method =>
    let service := clip (serviceOf c) maxNameChars
    let text := emoji c.action :: " <code>".toList ++ name ++ "</code>".toList
    withLink (if service = [] then text else text ++ " · ".toList ++ escape service) c.url.toList

/-- `f"+{n}"` or `f"−{n}"`, unless there is none. -/
def signed (sign : Char) (n : Nat) : List Chars := if n = 0 then [] else [sign :: (toString n).toList]

/-- The number of changes of a kind. -/
def number (changes : List Change) (kind : ChangeType) (action : Action) : Nat :=
  (changes.filter (fun c => c.changeType = kind && c.action = action)).length

/-- How many came and went, unless none did. -/
def plusMinus (label : String) (plus minus : Nat) : List Chars :=
  if plus = 0 ∧ minus = 0 then []
  else [" ".toList.intercalate (label.toList :: (signed '+' plus ++ signed '−' minus))]

def counts (changes : List Change) : Chars :=
  let fields := number changes .field .modified
  " · ".toList.intercalate (
    plusMinus "сервисы" (number changes .service .added) (number changes .service .removed) ++
    plusMinus "методы" (number changes .method .added) (number changes .method .removed) ++
    (if fields = 0 then [] else ["поля изменены: ".toList ++ (toString fields).toList]))

def head (bank : Bank) (changes : List Change) : Chars :=
  "🏦 <b>".toList ++ escape (bankLabel bank).toList ++ "</b>: ".toList ++ counts changes

/-- The place of a change in its block. -/
def order (c : Change) : Nat :=
  match c.changeType, c.action with
  | .service, .added => 0
  | .service, .removed => 1
  | .method, .added => 2
  | .method, .removed => 3
  | .field, .modified => 4
  | _, _ => 9

/-- `sorted(changes, key=..)`, which is stable. -/
def ordered (changes : List Change) : List Change := changes.insertionSort (fun a b => order a ≤ order b)

/-- The changes that a block lists. -/
def listed (changes : List Change) : List Change := (ordered changes).take maxLinesPerBank

def bulkNote : Chars := "Слишком много изменений разом — похоже на переработку документации.".toList

def dashboardLink (dashboardUrl title : Chars) : Chars := link (dashboardUrl ++ "/changes".toList) title

def bankBlock (unicode : CharTables) (bank : Bank) (changes : List Change) (dashboardUrl : Chars) : List Chars :=
  if bulkThreshold < changes.length then
    let more := if dashboardUrl = [] then [] else dashboardLink dashboardUrl "Подробности в дашборде".toList
    [head bank changes, bulkNote] ++ (if more = [] then [] else [more])
  else
    let lines := head bank changes :: (listed changes).map (changeLine unicode)
    if maxLinesPerBank < changes.length then
      let place := if dashboardUrl = [] then "в дашборде".toList else dashboardLink dashboardUrl "в дашборде".toList
      lines ++ ["…и ещё ".toList ++ (toString (changes.length - maxLinesPerBank)).toList ++ " — ".toList ++ place]
    else lines

/-- The messages that are full, and the one that is being filled. -/
structure Packed where
  messages : List Chars := []
  current : Chars := []
deriving DecidableEq

/-- `add(piece, sep)` of `_pack`. -/
def add (limit : Nat) (packed : Packed) (piece sep : Chars) : Packed :=
  let candidate := if packed.current = [] then piece else packed.current ++ sep ++ piece
  if candidate.length ≤ limit then { packed with current := candidate }
  else {
    messages := if packed.current = [] then packed.messages else packed.messages ++ [packed.current]
    current := piece.take limit }

def blank : Chars := ['\n', '\n']

/-- One block: whole where it fits a message, else line by line. -/
def addBlock (limit : Nat) (packed : Packed) (block : List Chars) : Packed :=
  let text := ['\n'].intercalate block
  if text.length ≤ limit then add limit packed text blank
  else match block with
    | [] => packed
    | first :: rest => rest.foldl (fun packed line => add limit packed line ['\n']) (add limit packed first blank)

/-- Greedy packing into messages of at most `limit` characters. -/
def pack (blocks : List (List Chars)) (limit : Nat) : List Chars :=
  let packed := blocks.foldl (addBlock limit) {}
  if packed.current = [] then packed.messages else packed.messages ++ [packed.current]

instance neZero13 : NeZero 13 := ⟨by decide⟩

instance neZero32 : NeZero 32 := ⟨by decide⟩

/-- A moment in Moscow. -/
structure MskTime where
  day : Fin 32
  month : Fin 13
  clock : Clock

/-- The header with `f"{when:%d.%m, %H:%M} МСК"`. -/
def header (moment : MskTime) : Chars :=
  "📡 <b>Изменения API банков</b> — ".toList ++ twoDigits moment.day ++ '.' :: twoDigits moment.month ++ ", ".toList ++
    moment.clock.text.toList ++ " МСК".toList

/-- The banks that have changes. -/
def changedBanks (changesByBank : Bank → List Change) : List Bank := bankKeys.filter (fun b => changesByBank b ≠ [])

/-- The blocks of a digest: the header, then a block for each changed bank. -/
def digestBlocks (unicode : CharTables) (changesByBank : Bank → List Change) (moment : MskTime) (dashboardUrl : Chars) :
    List (List Chars) :=
  let url := dashboardUrl.rdropWhile (· = '/')
  [header moment] :: (changedBanks changesByBank).map (fun b => bankBlock unicode b (changesByBank b) url)

/-- Messages for one parse run; none when nothing changed. -/
def buildDigest (unicode : CharTables) (changesByBank : Bank → List Change) (moment : MskTime) (dashboardUrl : Chars) :
    List Chars :=
  if changedBanks changesByBank = [] then []
  else pack (digestBlocks unicode changesByBank moment dashboardUrl) tgLimit

/-! ### Admin alerts -/

def formatFailure (bank : Bank) (error : String) (rejected : Bool) : Chars :=
  let reason := if rejected then "снимок отклонён (резко меньше методов, чем в прошлый раз)" else "разбор не удался"
  "⚠️ <b>".toList ++ escape (bankLabel bank).toList ++ "</b>: ".toList ++ reason.toList ++ "\n<code>".toList ++
    escape (clip error.toList maxErrorChars) ++
    "</code>\nВ дашборде остаются данные прошлого успешного разбора.".toList

def formatRecovery (bank : Bank) : Chars :=
  "✅ <b>".toList ++ escape (bankLabel bank).toList ++ "</b>: разбор снова проходит".toList

end ScanApi.NotifyFormat
