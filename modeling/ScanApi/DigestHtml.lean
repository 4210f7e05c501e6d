import Mathlib.Tactic.IntervalCases
import ScanApi.NotifyFormat

/-!
The digest as Telegram HTML. A digest is valid if no message is too long, every
line stands whole in one message and all tags are closed. It is valid exactly if
every line fits a message, and that depends on how wide the names and links of
the listed changes become by escaping.
-/
namespace ScanApi.DigestHtml
open ScanApi.Diff ScanApi.NotifyFormat ScanApi.Unicode
open ScanApi.Settings (twoDigits)

/-! ### Markup -/

/-- What `escape` puts for a character that Telegram would read. -/
def entities : List Chars := ["&amp;".toList, "&lt;".toList, "&gt;".toList, "&quot;".toList, "&#x27;".toList]

/-- Text in which every tag is closed. -/
inductive Markup : Chars → Prop
  | nil : Markup []
  | plain (c : Char) : c ∉ ['<', '>', '&'] → Markup [c]
  | entity {e : Chars} : e ∈ entities → Markup e
  | append {s t : Chars} : Markup s → Markup t → Markup (s ++ t)
  | bold {t : Chars} : Markup t → Markup ("<b>".toList ++ t ++ "</b>".toList)
  | code {t : Chars} : Markup t → Markup ("<code>".toList ++ t ++ "</code>".toList)
  | anchor {href t : Chars} : '"' ∉ href → '<' ∉ href → '>' ∉ href → Markup t →
      Markup ("<a href=\"".toList ++ href ++ "\">".toList ++ t ++ "</a>".toList)

def isPlain (c : Char) : Bool := c ∉ ['<', '>', '&']

theorem markup_cons {c : Char} {t : Chars} (plain : isPlain c = true) (rest : Markup t) : Markup (c :: t) :=
  Markup.append (.plain c (by simpa [isPlain] using plain)) rest

theorem markup_plain : ∀ {t : Chars}, t.all isPlain = true → Markup t
  | [], _ => .nil
  | c :: t, plain => by
    obtain ⟨first, rest⟩ : isPlain c = true ∧ t.all isPlain = true := by simpa using plain
    exact markup_cons first (markup_plain rest)

/-- A character as it is, or the entity for it. -/
theorem escapeChar_cases (c : Char) :
    escapeChar c ∈ entities ∨ (escapeChar c = [c] ∧ c ∉ ['<', '>', '&'] ∧ c ≠ '"') := by
  unfold escapeChar
  split
  · exact .inl (by decide)
  · exact .inl (by decide)
  · exact .inl (by decide)
  · exact .inl (by decide)
  · exact .inl (by decide)
  · rename_i amp lt gt quot _
    refine .inr ⟨rfl, ?_, fun h => quot h⟩
    simp only [List.mem_cons, List.not_mem_nil, or_false, not_or]
    exact ⟨fun h => lt h, fun h => gt h, fun h => amp h⟩

theorem markup_escape (text : Chars) : Markup (escape text) := by
  induction text with
  | nil => exact .nil
  | cons c rest ih =>
    show Markup (escapeChar c ++ escape rest)
    refine Markup.append ?_ ih
    rcases escapeChar_cases c with entity | ⟨same, plain, -⟩
    · exact .entity entity
    · rw [same]; exact .plain c plain

/-- Escaped text may stand in an attribute. -/
theorem not_mem_escape (text : Chars) : '"' ∉ escape text ∧ '<' ∉ escape text ∧ '>' ∉ escape text := by
  have none_of : ∀ c, '"' ∉ escapeChar c ∧ '<' ∉ escapeChar c ∧ '>' ∉ escapeChar c := by
    intro c
    rcases escapeChar_cases c with entity | ⟨same, plain, quote⟩
    · have outside : ∀ e ∈ entities, '"' ∉ e ∧ '<' ∉ e ∧ '>' ∉ e := by decide
      exact outside _ entity
    · rw [same]
      simp only [List.mem_cons, List.not_mem_nil, or_false, not_or] at plain ⊢
      exact ⟨Ne.symm quote, Ne.symm plain.1, Ne.symm plain.2.1⟩
  refine ⟨?_, ?_, ?_⟩
  · simpa [escape] using fun c _ => (none_of c).1
  · simpa [escape] using fun c _ => (none_of c).2.1
  · simpa [escape] using fun c _ => (none_of c).2.2

theorem markup_link (url title : Chars) : Markup (link url title) := by
  unfold link
  split
  · exact .nil
  · obtain ⟨quote, open_, close⟩ := not_mem_escape url
    exact .anchor quote open_ close (markup_escape title)

theorem markup_withLink {text : Chars} (url : Chars) (markup : Markup text) : Markup (withLink text url) := by
  simp only [withLink]
  split
  · exact markup
  · exact (markup.append (markup_plain (by decide))).append (markup_link _ _)

theorem plain_emoji (action : Action) : isPlain (emoji action) = true := by cases action <;> decide

/-! ### Lines -/

theorem markup_changeLine (unicode : CharTables) (c : Change) : Markup (changeLine unicode c) := by
  have name := markup_escape (clip c.entityName.toList maxNameChars)
  have coded : Markup (emoji c.action :: " <code>".toList ++ escape (clip c.entityName.toList maxNameChars) ++
      "</code>".toList) :=
    markup_cons (plain_emoji c.action) (markup_cons (by decide) (.code name))
  unfold changeLine
  cases c.changeType with
  | service =>
    refine markup_withLink _ (markup_cons (plain_emoji c.action) ?_)
    exact ((markup_plain (by decide)).append name).append (markup_plain (by decide))
  | field =>
    have text : Markup (": ".toList ++ escape (fieldDiff unicode c)) := (markup_plain (by decide)).append (markup_escape _)
    have whole := coded.append text
    rw [← List.append_assoc] at whole
    simpa [List.append_assoc] using whole
  | method =>
    refine markup_withLink _ ?_
    split
    · exact coded
    · exact (coded.append (markup_plain (by decide))).append (markup_escape _)

theorem markup_intercalate {sep : Chars} (separator : Markup sep) : ∀ {parts : List Chars},
    (∀ part ∈ parts, Markup part) → Markup (sep.intercalate parts)
  | [], _ => .nil
  | [part], all => by simpa using all part (List.mem_singleton_self part)
  | part :: next :: rest, all => by
    rw [List.intercalate_cons_cons]
    have first : Markup part := all part (by simp)
    have others := markup_intercalate separator (fun p member => all p (List.mem_cons_of_mem _ member))
    exact (first.append separator).append others

theorem markup_number (n : Nat) : Markup (toString n).toList := by
  refine markup_plain ?_
  rw [List.all_eq_true]
  intro c member
  have digit : c.isDigit = true := Nat.isDigit_of_mem_toDigits (b := 10) (by decide) (by decide) (by simpa using member)
  have plain : c ∉ ['<', '>', '&'] := by
    intro special
    simp only [List.mem_cons, List.not_mem_nil, or_false] at special
    rcases special with rfl | rfl | rfl <;> exact absurd digit (by decide)
  simpa [isPlain] using plain

theorem markup_signed {sign : Char} (plain : isPlain sign = true) (n : Nat) : ∀ part ∈ signed sign n, Markup part := by
  intro part member
  unfold signed at member
  split at member
  · simp at member
  · rw [List.mem_singleton.mp member]
    exact markup_cons plain (markup_number n)

theorem markup_plusMinus {label : String} (plain : label.toList.all isPlain = true) (plus minus : Nat) :
    ∀ part ∈ plusMinus label plus minus, Markup part := by
  intro part member
  unfold plusMinus at member
  split at member
  · simp at member
  · rw [List.mem_singleton.mp member]
    refine markup_intercalate (markup_plain (by decide)) ?_
    intro word inside
    rw [List.mem_cons, List.mem_append] at inside
    rcases inside with rfl | came | went
    · exact markup_plain plain
    · exact markup_signed (by decide) plus word came
    · exact markup_signed (by decide) minus word went

theorem markup_counts (changes : List Change) : Markup (counts changes) := by
  refine markup_intercalate (markup_plain (by decide)) ?_
  intro part member
  rw [List.mem_append, List.mem_append] at member
  rcases member with (services | methods) | fields
  · exact markup_plusMinus (by decide) _ _ part services
  · exact markup_plusMinus (by decide) _ _ part methods
  · split at fields
    · simp at fields
    · rw [List.mem_singleton.mp fields]
      exact (markup_plain (by decide)).append (markup_number _)

theorem markup_head (bank : Bank) (changes : List Change) : Markup (head bank changes) := by
  have label := Markup.bold (markup_escape (bankLabel bank).toList)
  have whole := (((markup_plain (t := "🏦 ".toList) (by decide)).append label).append
    (markup_plain (t := ": ".toList) (by decide))).append (markup_counts changes)
  have joined : ∀ first second, "🏦 ".toList ++ "<b>".toList = first → "</b>".toList ++ ": ".toList = second →
      Markup (first ++ escape (bankLabel bank).toList ++ second ++ counts changes) := by
    rintro _ _ rfl rfl
    simpa only [List.append_assoc] using whole
  exact joined _ _ rfl rfl

theorem plain_bulkNote : bulkNote.all isPlain = true := by decide +kernel

/-- The lines of a block that tell what it does not list. -/
def extraLines (changes : List Change) (dashboardUrl : Chars) : List Chars :=
  if bulkThreshold < changes.length then
    let more := if dashboardUrl = [] then [] else dashboardLink dashboardUrl "Подробности в дашборде".toList
    bulkNote :: (if more = [] then [] else [more])
  else if maxLinesPerBank < changes.length then
    let place := if dashboardUrl = [] then "в дашборде".toList else dashboardLink dashboardUrl "в дашборде".toList
    ["…и ещё ".toList ++ (toString (changes.length - maxLinesPerBank)).toList ++ " — ".toList ++ place]
  else []

/-- A line of a block is its head, a listed change or an extra line. -/
theorem mem_bankBlock {unicode : CharTables} {bank : Bank} {changes : List Change} {dashboardUrl line : Chars} :
    line ∈ bankBlock unicode bank changes dashboardUrl ↔ line = head bank changes ∨
      (changes.length ≤ bulkThreshold ∧ ∃ c ∈ listed changes, changeLine unicode c = line) ∨
      line ∈ extraLines changes dashboardUrl := by
  unfold bankBlock extraLines
  by_cases bulk : bulkThreshold < changes.length
  · have many : ¬ changes.length ≤ bulkThreshold := by omega
    simp only [bulk, many, if_true, false_and, false_or, List.cons_append, List.nil_append, List.mem_cons]
  · have few : changes.length ≤ bulkThreshold := by omega
    by_cases long : maxLinesPerBank < changes.length
    · simp only [bulk, few, long, if_true, if_false, true_and, List.mem_append, List.mem_cons, List.mem_map, or_assoc]
    · simp only [bulk, few, long, if_false, true_and, List.mem_cons, List.mem_map, List.not_mem_nil, or_false]

theorem markup_extraLines (changes : List Change) (dashboardUrl : Chars) :
    ∀ line ∈ extraLines changes dashboardUrl, Markup line := by
  intro line member
  unfold extraLines at member
  split at member
  · rcases List.mem_cons.mp member with note | more
    · rw [note]; exact markup_plain plain_bulkNote
    · split at more
      · simp at more
      · split at more
        · simp at more
        · rw [List.mem_singleton.mp more]; exact markup_link _ _
  · split at member
    · rw [List.mem_singleton.mp member]
      have count := ((markup_plain (t := "…и ещё ".toList) (by decide)).append (markup_number (changes.length - maxLinesPerBank))).append
        (markup_plain (t := " — ".toList) (by decide))
      refine count.append ?_
      split
      · exact markup_plain (by decide)
      · exact markup_link _ _
    · simp at member

/-- Every line of a block is closed in itself. -/
theorem markup_bankBlock (unicode : CharTables) (bank : Bank) (changes : List Change) (dashboardUrl : Chars) :
    ∀ line ∈ bankBlock unicode bank changes dashboardUrl, Markup line := by
  intro line member
  rcases mem_bankBlock.mp member with first | ⟨-, c, -, rfl⟩ | extra
  · rw [first]; exact markup_head bank changes
  · exact markup_changeLine unicode c
  · exact markup_extraLines changes dashboardUrl line extra

theorem plain_digitChar {n : Nat} (small : n < 10) : isPlain n.digitChar = true := by
  interval_cases n <;> rfl

theorem markup_twoDigits {n : Nat} (small : n < 100) : Markup (twoDigits n) :=
  markup_cons (plain_digitChar (by omega)) (markup_cons (plain_digitChar (by omega)) .nil)

theorem markup_header (moment : MskTime) : Markup (header moment) := by
  have bold := Markup.bold (markup_plain (t := "Изменения API банков".toList) (by decide))
  have spelled : "📡 <b>Изменения API банков</b> — ".toList =
      "📡 ".toList ++ ("<b>".toList ++ "Изменения API банков".toList ++ "</b>".toList) ++ " — ".toList := by decide +kernel
  have title : Markup "📡 <b>Изменения API банков</b> — ".toList := by
    rw [spelled]
    exact ((markup_plain (t := "📡 ".toList) (by decide)).append bold).append (markup_plain (t := " — ".toList) (by decide))
  have month : Markup ('.' :: twoDigits moment.month) := markup_cons (by decide) (markup_twoDigits (by omega))
  have clock : Markup moment.clock.text.toList := by
    rw [Settings.Clock.text, String.toList_ofList]
    exact (markup_twoDigits (by omega)).append (markup_cons (by decide) (markup_twoDigits (by omega)))
  have day := (title.append (markup_twoDigits (n := moment.day) (by omega))).append month
  unfold header
  exact ((day.append (markup_plain (t := ", ".toList) (by decide))).append clock).append
    (markup_plain (t := " МСК".toList) (by decide))

end ScanApi.DigestHtml
