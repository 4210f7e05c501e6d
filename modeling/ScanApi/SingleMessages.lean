import Mathlib.Algebra.Order.BigOperators.Group.List
import ScanApi.DigestFits
import ScanApi.ParserRunner
import ScanApi.ProxyExpiry

/-!
Texts that are sent as one message: the alert about a failed bank, the answer to
`/status` and the reminder about proxies. Their parts are cut one by one, but
nothing cuts what they make together: that fits a message as long as the parts
are not too wide once they are escaped.
-/
namespace ScanApi.SingleMessages
open ScanApi.NotifyFormat ScanApi.DigestFits ScanApi.ParserRunner ScanApi.ProxyExpiry
open ScanApi.Settings (twoDigits)

/-! ### The answer to `/status` -/

def plural (n : Nat) (one few many : String) : String :=
  if n % 10 = 1 ∧ n % 100 ≠ 11 then one
  else if (2 ≤ n % 10 ∧ n % 10 ≤ 4) ∧ ¬ (12 ≤ n % 100 ∧ n % 100 ≤ 14) then few
  else many

/-- A number and what is counted. -/
def counted (n : Nat) (one few many : String) : Chars := (toString n).toList ++ ' ' :: (plural n one few many).toList

/-- `st.error or 'ошибка'`. -/
def errorText (st : BankStatus) : String := if st.error.getD "" = "" then "ошибка" else st.error.getD ""

def bankStatusLine (bank : Bank) (st : BankStatus) : Chars :=
  let label := escape (bankLabel bank).toList
  match st.status with
  | .done => "✅ ".toList ++ label ++ " — ".toList ++ counted st.services "сервис" "сервиса" "сервисов" ++ ", ".toList ++
    counted st.methods "метод" "метода" "методов" ++ ", изменений: ".toList ++ (toString st.changes).toList
  | .error => "❌ ".toList ++ label ++ " — ".toList ++ escape (clip (errorText st).toList maxErrorChars)
  | .running => "⏳ ".toList ++ label ++ " — идёт разбор".toList
  | .pending => "▫️ ".toList ++ label ++ " — не запускался".toList

/-- No run has begun, or an empty end of one is known. -/
def notStarted (status : ParseStatus) : Bool := !status.running && status.finishedAt.getD "" = ""

def statusHead (status : ParseStatus) : Chars :=
  if status.running then "⏳ Разбор идёт с ".toList ++ (status.startedAt.getD "None").toList
  else "Последний разбор: ".toList ++ (status.finishedAt.getD "None").toList

def formatStatus : Option ParseStatus → Chars
  | none => "Разбор ещё не запускался.".toList
  | some status =>
    if notStarted status then "Разбор ещё не запускался.".toList
    else ['\n'].intercalate (statusHead status :: bankKeys.map (fun bank => bankStatusLine bank (status.banks bank)))

theorem formatStatus_some (status : ParseStatus) : formatStatus (some status) =
    if notStarted status then "Разбор ещё не запускался.".toList
    else ['\n'].intercalate (statusHead status :: bankKeys.map (fun bank => bankStatusLine bank (status.banks bank))) := rfl

/-! ### Widths -/

def labelWidth (bank : Bank) : Nat := (bankLabel bank).toList.length

def countedWidth (n : Nat) (one few many : String) : Nat := digits n + 1 + (plural n one few many).toList.length

/-- How wide the line of a bank is. -/
def bankStatusWidth (bank : Bank) (st : BankStatus) : Nat :=
  labelWidth bank + match st.status with
  | .done => 20 + countedWidth st.services "сервис" "сервиса" "сервисов" + countedWidth st.methods "метод" "метода" "методов" +
    digits st.changes
  | .error => 5 + escWidth (clip (errorText st).toList maxErrorChars)
  | .running => 16
  | .pending => 19

/-- How wide the line about the run is. -/
def statusHeadWidth (status : ParseStatus) : Nat :=
  if status.running then 16 + (status.startedAt.getD "None").toList.length
  else 18 + (status.finishedAt.getD "None").toList.length

/-- How wide an answer about a run is: the lines, and what joins them. -/
def statusWidth (status : ParseStatus) : Nat :=
  statusHeadWidth status + (bankKeys.map (fun bank => bankStatusWidth bank (status.banks bank))).sum + bankKeys.length

/-- How wide the line of a proxy is: what is shown of its address, its label, and when it expires. -/
def proxyWidth (zone : Zone) (urllib : Urlsplit) (now : Int) (row : DueProxy) : Nat :=
  18 + escWidth (clip (mask urllib row.url) 120) + (if row.label = [] then 0 else 3 + escWidth (clip row.label 60)) +
    if (daysLeft zone (some row.expiresAt) now).any (· < 0) then 5 else 15 + digits (zone row.expiresAt).year

/-- How wide a reminder is: two lines around it, the listed proxies, and how many are not listed. -/
def reminderWidth (zone : Zone) (urllib : Urlsplit) (rows : List DueProxy) (now : Int) : Nat :=
  71 + ((rows.take maxProxiesListed).map (fun row => 1 + proxyWidth zone urllib now row)).sum +
    if maxProxiesListed < rows.length then 8 + digits (rows.length - maxProxiesListed) else 0

theorem escWidth_label (bank : Bank) : escWidth (bankLabel bank).toList = labelWidth bank := by
  cases bank <;> rfl

theorem length_counted (n : Nat) (one few many : String) :
    (counted n one few many).length = countedWidth n one few many := by
  rw [counted, countedWidth, List.length_append, List.length_cons, digits]
  omega

theorem length_bankStatusLine (bank : Bank) (st : BankStatus) :
    (bankStatusLine bank st).length = bankStatusWidth bank st := by
  unfold bankStatusLine bankStatusWidth
  cases st.status <;> simp only [List.length_append, length_escape, escWidth_label, length_counted]
  case done =>
    rw [show "✅ ".toList.length = 2 from rfl, show " — ".toList.length = 3 from rfl, show ", ".toList.length = 2 from rfl,
      show ", изменений: ".toList.length = 13 from rfl, digits]
    omega
  case error =>
    rw [show "❌ ".toList.length = 2 from rfl, show " — ".toList.length = 3 from rfl]
    omega
  case running =>
    rw [show "⏳ ".toList.length = 2 from rfl, show " — идёт разбор".toList.length = 14 from rfl]
    omega
  case pending =>
    rw [show "▫️ ".toList.length = 3 from rfl, show " — не запускался".toList.length = 16 from rfl]
    omega

theorem length_statusHead (status : ParseStatus) : (statusHead status).length = statusHeadWidth status := by
  unfold statusHead statusHeadWidth
  split
  · rw [List.length_append]; rfl
  · rw [List.length_append]; rfl

/-- A list of lines, one below the other. -/
theorem length_lines (first : Chars) (rest : List Chars) :
    (['\n'].intercalate (first :: rest)).length = first.length + (rest.map (fun line => 1 + line.length)).sum := by
  induction rest generalizing first with
  | nil => simp
  | cons next rest ih =>
    rw [List.intercalate_cons_cons, List.length_append, List.length_append, ih, List.map_cons, List.sum_cons]
    simp only [List.length_singleton]
    omega

theorem length_formatStatus (status : ParseStatus) (started : notStarted status = false) :
    (formatStatus (some status)).length = statusWidth status := by
  have banks : (bankKeys.map (fun bank => bankStatusLine bank (status.banks bank))).map (fun line => 1 + line.length) =
      bankKeys.map (fun bank => 1 + bankStatusWidth bank (status.banks bank)) := by
    simp only [List.map_map, Function.comp_def, length_bankStatusLine]
  have text : formatStatus (some status) =
      ['\n'].intercalate (statusHead status :: bankKeys.map (fun bank => bankStatusLine bank (status.banks bank))) := by
    rw [formatStatus_some, started, if_neg Bool.false_ne_true]
  rw [text, length_lines, banks, length_statusHead, statusWidth, bankKeys]
  simp only [List.map_cons, List.map_nil, List.sum_cons, List.sum_nil, List.length_cons, List.length_nil]
  omega

theorem length_date (date : LocalDate) : date.text.length = 6 + digits date.year := by
  simp only [LocalDate.text, digits, twoDigits, List.length_append, List.length_cons, List.length_nil]
  omega

theorem length_proxyLine (zone : Zone) (urllib : Urlsplit) (now : Int) (row : DueProxy) :
    (proxyLine zone urllib now row).length = proxyWidth zone urllib now row := by
  have state : (if (daysLeft zone (some row.expiresAt) now).any (· < 0) then "истёк".toList
      else "истекает ".toList ++ (zone row.expiresAt).text).length =
      if (daysLeft zone (some row.expiresAt) now).any (· < 0) then 5 else 15 + digits (zone row.expiresAt).year := by
    split
    · rfl
    · rw [List.length_append, length_date, show "истекает ".toList.length = 9 from rfl]
      omega
  have label : (if row.label ≠ [] then " (".toList ++ escape (clip row.label 60) ++ ")".toList else []).length =
      if row.label = [] then 0 else 3 + escWidth (clip row.label 60) := by
    by_cases none : row.label = []
    · rw [if_neg (not_not_intro none), if_pos none]; rfl
    · rw [if_pos none, if_neg none, List.length_append, List.length_append, length_escape,
        show " (".toList.length = 2 from rfl, show ")".toList.length = 1 from rfl]
      omega
  unfold proxyLine proxyWidth
  simp only [List.length_append, length_escape, state, label]
  rw [show "• <code>".toList.length = 8 from rfl, show "</code>".toList.length = 7 from rfl,
    show " — ".toList.length = 3 from rfl]
  omega

theorem length_formatProxyExpiry (zone : Zone) (urllib : Urlsplit) (rows : List DueProxy) (now : Int) :
    (formatProxyExpiry zone urllib rows now).length = reminderWidth zone urllib rows now := by
  have listed : ((rows.take maxProxiesListed).map (proxyLine zone urllib now)).map (fun line => 1 + line.length) =
      (rows.take maxProxiesListed).map (fun row => 1 + proxyWidth zone urllib now row) := by
    simp only [List.map_map, Function.comp_def, length_proxyLine]
  rw [formatProxyExpiry, proxyExpiryLines, List.cons_append, List.cons_append, length_lines, List.map_append,
    List.map_append, listed, List.sum_append, List.sum_append, reminderWidth]
  rw [show "⏳ <b>Прокси скоро истекают</b>".toList.length = 30 from rfl]
  simp only [List.map_cons, List.map_nil, List.sum_cons, List.sum_nil]
  rw [show "Продлите или замените их в «Настройках».".toList.length = 40 from rfl]
  split
  · rw [List.map_singleton, List.sum_singleton, List.length_append, show "…и ещё ".toList.length = 7 from rfl, digits]
    omega
  · simp only [List.map_nil, List.sum_nil]
    omega

/-! ### What fits a message -/

/-- An alert about a failed bank fits, whatever the error is. -/
theorem formatFailure_fits (bank : Bank) (error : String) (rejected : Bool) :
    (formatFailure bank error rejected).length ≤ tgLimit := by
  have short := length_clip_le error.toList maxErrorChars
  have width := (escWidth_bounds (clip error.toList maxErrorChars)).2
  have label : labelWidth bank ≤ 10 := by cases bank <;> decide
  unfold formatFailure
  simp only [List.length_append, length_escape, escWidth_label]
  rw [show "⚠️ <b>".toList.length = 6 from rfl, show "</b>: ".toList.length = 6 from rfl,
    show "\n<code>".toList.length = 7 from rfl,
    show "</code>\nВ дашборде остаются данные прошлого успешного разбора.".toList.length = 62 from rfl]
  have reason : (if rejected then "снимок отклонён (резко меньше методов, чем в прошлый раз)"
      else "разбор не удался").toList.length ≤ 60 := by cases rejected <;> decide
  unfold maxErrorChars at *
  unfold tgLimit
  omega

/-- What the answer to `/status` takes up. -/
def answerWidth : Option ParseStatus → Nat
  | none => 25
  | some status => if notStarted status then 25 else statusWidth status

theorem length_answer (status : Option ParseStatus) : (formatStatus status).length = answerWidth status := by
  cases status with
  | none => rfl
  | some status =>
    cases started : notStarted status with
    | true =>
      rw [formatStatus_some, answerWidth, started, if_pos rfl, if_pos rfl]
      rfl
    | false => rw [length_formatStatus status started, answerWidth, started, if_neg Bool.false_ne_true]

/-- The alert always fits one message. The other two texts do exactly where the widths of their parts add up to no more. -/
theorem single_messages_fit_iff (zone : Zone) (urllib : Urlsplit) :
    (∀ bank error rejected, (formatFailure bank error rejected).length ≤ tgLimit) ∧
    (∀ status, (formatStatus status).length ≤ tgLimit ↔ answerWidth status ≤ tgLimit) ∧
    ∀ rows now, (formatProxyExpiry zone urllib rows now).length ≤ tgLimit ↔ reminderWidth zone urllib rows now ≤ tgLimit :=
  ⟨formatFailure_fits, fun status => by rw [length_answer], fun rows now => by rw [length_formatProxyExpiry]⟩

/-! ### Texts that do not fit -/

/-- Proxies as the database admits them. -/
structure Admitted (rows : List DueProxy) : Prop where
  few : rows.length ≤ 100
  ids : (rows.map DueProxy.id).Nodup
  urls : (rows.map DueProxy.url).Nodup
  url : ∀ row ∈ rows, 1 ≤ row.url.length ∧ row.url.length ≤ 500
  label : ∀ row ∈ rows, row.label.length ≤ 100

/-- All banks have failed with an error of 400 quotes. -/
def quoted : ParseStatus where
  finishedAt := some "2026-09-22 09:49:58 UTC"
  banks _ := { status := .error, error := some (String.ofList (List.replicate 400 '"')) }

theorem bankStatusWidth_quoted (bank : Bank) : bankStatusWidth bank (quoted.banks bank) = labelWidth bank + 2405 := by
  have text : (errorText (quoted.banks bank)).toList = List.replicate 400 '"' := by
    have filled : String.ofList (List.replicate 400 '"') ≠ "" := by
      intro empty
      have length := congrArg (fun s => s.toList.length) empty
      simp only [String.toList_ofList, List.length_replicate] at length
      exact absurd length (by decide)
    rw [errorText, show (quoted.banks bank).error.getD "" = String.ofList (List.replicate 400 '"') from rfl, if_neg filled,
      String.toList_ofList]
  have kept : clip (List.replicate 400 '"') maxErrorChars = List.replicate 400 '"' :=
    if_pos (by rw [List.length_replicate]; exact Nat.le_refl 400)
  rw [bankStatusWidth, show (quoted.banks bank).status = .error from rfl, text, kept]
  simp only [escWidth_quotes]

/-- A proxy without a password whose address has this many letters. -/
def longProxy (n : Nat) : DueProxy := ⟨n, "http://".toList ++ List.replicate n 'a', [], 0⟩

/-- `urlsplit` of an address that has nothing but a host. -/
def plainUrl : Urlsplit where
  split url := ⟨none, none, some (url.drop 7), none⟩
  withNetloc url _ := url

theorem length_longProxy (n : Nat) : (longProxy n).url.length = 7 + n := by
  rw [longProxy, List.length_append, List.length_replicate]
  rfl

/-- Thirty of them, which expired at the first moment of the epoch. -/
def longProxies : List DueProxy := (List.range 30).map (fun i => longProxy (400 + i))

theorem mem_longProxies {row : DueProxy} : row ∈ longProxies ↔ ∃ i < 30, longProxy (400 + i) = row := by
  simp [longProxies]

theorem admitted_longProxies : Admitted longProxies where
  few := by simp [longProxies]
  ids := by
    have numbers : longProxies.map DueProxy.id = (List.range 30).map (fun i => ((400 + i : Nat) : Int)) := by
      simp only [longProxies, List.map_map, Function.comp_def, longProxy]
    rw [numbers]
    exact List.nodup_range.map (fun i j same => by omega)
  urls := by
    have lengths : ((longProxies.map DueProxy.url).map List.length).Nodup := by
      simp only [longProxies, List.map_map, Function.comp_def, length_longProxy]
      exact List.nodup_range.map (fun i j same => by omega)
    exact List.Nodup.of_map _ lengths
  url row member := by
    obtain ⟨i, small, rfl⟩ := mem_longProxies.mp member
    rw [length_longProxy]
    omega
  label row member := by
    obtain ⟨i, small, rfl⟩ := mem_longProxies.mp member
    exact Nat.zero_le _

/-- What is shown of a long address is cut, and still 121 characters wide. -/
theorem proxyWidth_longProxy (zone : Zone) (n : Nat) (long : 400 ≤ n) : 144 ≤ proxyWidth zone plainUrl 1 (longProxy n) := by
  have url := length_longProxy n
  have shown : mask plainUrl (longProxy n).url = (longProxy n).url := by
    unfold mask
    exact if_pos rfl
  have cut : (clip (longProxy n).url 120).length = 121 := by
    rw [clip, if_neg (by omega), List.length_append, List.length_take, url]
    simp only [List.length_singleton]
    omega
  have width := (escWidth_bounds (clip (longProxy n).url 120)).1
  have expired : (daysLeft zone (some (longProxy n).expiresAt) 1).any (· < 0) = true := by
    have past : daysLeft zone (some (longProxy n).expiresAt) 1 = some (-1) := by
      simp [daysLeft, longProxy, day]
    rw [past]
    rfl
  rw [proxyWidth, shown, expired, if_pos rfl]
  omega

theorem overlong : ¬ (formatStatus (some quoted)).length ≤ tgLimit ∧
    Admitted longProxies ∧ ¬ (formatProxyExpiry (fun _ => ⟨1970, 1, 1⟩) plainUrl longProxies 1).length ≤ tgLimit := by
  refine ⟨?_, admitted_longProxies, ?_⟩
  · have finished : quoted.finishedAt = some "2026-09-22 09:49:58 UTC" := rfl
    have started : notStarted quoted = false := by simp [notStarted, finished]
    have wide := List.card_nsmul_le_sum (bankKeys.map (fun bank => bankStatusWidth bank (quoted.banks bank))) 2405 (by
      intro width member
      obtain ⟨bank, -, rfl⟩ := List.mem_map.mp member
      rw [bankStatusWidth_quoted]
      omega)
    have enough : 4 * 2405 ≤ _ := wide
    rw [length_formatStatus quoted started, statusWidth]
    unfold tgLimit
    omega
  · have all : longProxies.take maxProxiesListed = longProxies := List.take_of_length_le (by simp [longProxies, maxProxiesListed])
    have wide := List.card_nsmul_le_sum
      (longProxies.map (fun row => 1 + proxyWidth (fun _ => ⟨1970, 1, 1⟩) plainUrl 1 row)) 145 (by
        intro width member
        obtain ⟨row, inside, rfl⟩ := List.mem_map.mp member
        obtain ⟨i, small, rfl⟩ := mem_longProxies.mp inside
        have := proxyWidth_longProxy (fun _ => ⟨1970, 1, 1⟩) (400 + i) (by omega)
        omega)
    have number : (longProxies.map (fun row => 1 + proxyWidth (fun _ => ⟨1970, 1, 1⟩) plainUrl 1 row)).length = 30 := by
      simp [longProxies]
    rw [number] at wide
    rw [length_formatProxyExpiry, reminderWidth, all]
    unfold tgLimit
    have enough : 30 * 145 ≤ _ := wide
    omega

end ScanApi.SingleMessages
