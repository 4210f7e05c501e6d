import ScanApi.DigestHtml

/-!
When a digest is valid. Packing keeps every line whole as long as each line fits
a message; how wide a line is follows from the widths of its parts, each cut
before it is escaped.
-/
namespace ScanApi.DigestFits
open ScanApi.Diff ScanApi.NotifyFormat ScanApi.Unicode ScanApi.DigestHtml

/-! ### Packing -/

/-- A message shows a group of lines, whole and in order. -/
inductive Rendered : List Chars → Chars → Prop
  | line (line : Chars) : Rendered [line] line
  | join {group group' : List Chars} {text text' sep : Chars} : sep = ['\n'] ∨ sep = ['\n', '\n'] →
      Rendered group text → Rendered group' text' → Rendered (group ++ group') (text ++ sep ++ text')

theorem Rendered.length_le {group : List Chars} {text : Chars} (rendered : Rendered group text) :
    ∀ line ∈ group, line.length ≤ text.length := by
  induction rendered with
  | line line => simp
  | join _ _ _ first second =>
    intro line member
    rw [List.length_append, List.length_append]
    rcases List.mem_append.mp member with here | there
    · have := first line here; omega
    · have := second line there; omega

theorem Rendered.markup {group : List Chars} {text : Chars} (rendered : Rendered group text)
    (closed : ∀ line ∈ group, Markup line) : Markup text := by
  induction rendered with
  | line line => exact closed line (List.mem_singleton_self line)
  | @join _ _ _ _ sep separator _ _ first second =>
    have blank : Markup sep := by
      rcases separator with rfl | rfl <;> exact markup_plain (by decide)
    exact ((first fun line member => closed line (List.mem_append_left _ member)).append blank).append
      (second fun line member => closed line (List.mem_append_right _ member))

theorem rendered_intercalate (line : Chars) (rest : List Chars) :
    Rendered (line :: rest) (['\n'].intercalate (line :: rest)) := by
  induction rest generalizing line with
  | nil => simpa using Rendered.line line
  | cons next rest ih =>
    rw [List.intercalate_cons_cons]
    exact .join (.inl rfl) (.line line) (ih next)

/-- Messages of at most `limit` characters that show all lines, each in one of them. -/
structure Whole (limit : Nat) (lines : List Chars) (messages : List Chars) : Prop where
  short : ∀ message ∈ messages, message.length ≤ limit
  grouped : ∃ groups : List (List Chars), groups.flatten = lines ∧ List.Forall₂ Rendered groups messages

/-- What is packed of the lines so far: full messages, and the lines of the current one. -/
structure Packs (limit : Nat) (lines : List Chars) (packed : Packed) : Prop where
  short : ∀ message ∈ packed.messages, message.length ≤ limit
  current : packed.current.length ≤ limit
  grouped : ∃ groups pending, groups.flatten ++ pending = lines ∧ List.Forall₂ Rendered groups packed.messages ∧
    (if packed.current = [] then pending = [] else Rendered pending packed.current)

variable {limit : Nat} {lines group : List Chars} {packed : Packed} {piece sep : Chars}

theorem packs_nil (limit : Nat) : Packs limit [] {} where
  short _ member := by cases member
  current := Nat.zero_le limit
  grouped := ⟨[], [], rfl, .nil, rfl⟩

/-- A piece that fits is appended to the current message, or begins the next. -/
theorem packs_add (packs : Packs limit lines packed) (rendered : Rendered group piece) (fits : piece.length ≤ limit)
    (filled : piece ≠ []) (separator : sep = ['\n'] ∨ sep = ['\n', '\n']) :
    Packs limit (lines ++ group) (add limit packed piece sep) := by
  obtain ⟨groups, pending, rfl, full, open_⟩ := packs.grouped
  have whole : piece.take limit = piece := List.take_of_length_le fits
  unfold add
  by_cases fresh : packed.current = []
  · rw [if_pos fresh] at open_
    subst open_
    simp only [fresh, if_true, fits]
    exact ⟨packs.short, fits, groups, group, by simp, full, by rw [if_neg filled]; exact rendered⟩
  · rw [if_neg fresh] at open_
    simp only [fresh, if_false]
    split
    · rename_i room
      refine ⟨packs.short, room, groups, pending ++ group, by simp, full, ?_⟩
      rw [if_neg (by simp [filled])]
      exact .join separator open_ rendered
    · rw [whole]
      refine ⟨?_, fits, groups ++ [pending], group, by simp, List.rel_append full (.cons open_ .nil), ?_⟩
      · intro message member
        rcases List.mem_append.mp member with before | last
        · exact packs.short message before
        · rw [List.mem_singleton.mp last]; exact packs.current
      · rw [if_neg filled]; exact rendered

/-- Lines that fit and are not empty. -/
def Fits (limit : Nat) (lines : List Chars) : Prop := ∀ line ∈ lines, line ≠ [] ∧ line.length ≤ limit

theorem packs_lines {rest : List Chars} (packs : Packs limit lines packed) (fits : Fits limit rest) :
    Packs limit (lines ++ rest) (rest.foldl (fun packed line => add limit packed line ['\n']) packed) := by
  induction rest generalizing lines packed with
  | nil => simpa using packs
  | cons line rest ih =>
    obtain ⟨filled, short⟩ := fits line List.mem_cons_self
    have next := packs_add packs (.line line) short filled (.inl rfl)
    simpa using ih next (fun l member => fits l (List.mem_cons_of_mem _ member))

theorem packs_addBlock {first : Chars} {rest : List Chars} (packs : Packs limit lines packed)
    (fits : Fits limit (first :: rest)) :
    Packs limit (lines ++ first :: rest) (addBlock limit packed (first :: rest)) := by
  obtain ⟨filled, short⟩ := fits first List.mem_cons_self
  simp only [addBlock]
  split
  · rename_i room
    refine packs_add packs (rendered_intercalate first rest) room ?_ (.inr rfl)
    cases rest <;> simp [filled]
  · have begun := packs_add packs (.line first) short filled (.inr rfl)
    rw [List.append_cons]
    exact packs_lines begun (fun l member => fits l (List.mem_cons_of_mem _ member))

theorem packs_blocks {blocks : List (List Chars)} (packs : Packs limit lines packed) (headed : [] ∉ blocks)
    (fits : ∀ block ∈ blocks, Fits limit block) :
    Packs limit (lines ++ blocks.flatten) (blocks.foldl (addBlock limit) packed) := by
  induction blocks generalizing lines packed with
  | nil => simpa using packs
  | cons block blocks ih =>
    obtain ⟨other, rest_headed⟩ : [] ≠ block ∧ [] ∉ blocks := by simpa using headed
    obtain ⟨first, rest, rfl⟩ := List.exists_cons_of_ne_nil other.symm
    have next := packs_addBlock packs (fits _ List.mem_cons_self)
    simpa using ih next rest_headed (fun b member => fits b (List.mem_cons_of_mem _ member))

/-- Where every line fits, packing keeps all lines whole. -/
theorem whole_pack {blocks : List (List Chars)} (headed : [] ∉ blocks) (fits : ∀ block ∈ blocks, Fits limit block) :
    Whole limit blocks.flatten (pack blocks limit) := by
  have packs := packs_blocks (packs_nil limit) headed fits
  rw [List.nil_append] at packs
  obtain ⟨groups, pending, lines, full, open_⟩ := packs.grouped
  unfold pack
  by_cases empty : (blocks.foldl (addBlock limit) {}).current = []
  · rw [if_pos empty] at open_
    simp only [empty, if_true]
    subst open_
    exact ⟨packs.short, groups, by simpa using lines, full⟩
  · rw [if_neg empty] at open_
    simp only [empty, if_false]
    refine ⟨?_, groups ++ [pending], by simpa using lines, List.rel_append full (.cons open_ .nil)⟩
    intro message member
    rcases List.mem_append.mp member with before | last
    · exact packs.short message before
    · rw [List.mem_singleton.mp last]; exact packs.current

/-- Every group is rendered by a message, and every message renders a group. -/
theorem rendered_members {groups : List (List Chars)} {messages : List Chars}
    (rendered : List.Forall₂ Rendered groups messages) :
    (∀ group ∈ groups, ∃ message ∈ messages, Rendered group message) ∧
    (∀ message ∈ messages, ∃ group ∈ groups, Rendered group message) := by
  induction rendered with
  | nil => simp
  | cons first _ ih =>
    obtain ⟨shown, shows⟩ := ih
    constructor
    · simpa using ⟨.inl first, fun group member => .inr (shown group member)⟩
    · simpa using ⟨.inl first, fun message member => .inr (shows message member)⟩

/-- A line that stands whole in a message is no longer than a message. -/
theorem Whole.fits {messages : List Chars} (whole : Whole limit lines messages) : ∀ line ∈ lines, line.length ≤ limit := by
  obtain ⟨groups, rfl, rendered⟩ := whole.grouped
  intro line member
  obtain ⟨group, inside, here⟩ := List.mem_flatten.mp member
  obtain ⟨message, shown, text⟩ := (rendered_members rendered).1 group inside
  exact (text.length_le line here).trans (whole.short message shown)

theorem Whole.markup {messages : List Chars} (whole : Whole limit lines messages) (closed : ∀ line ∈ lines, Markup line) :
    ∀ message ∈ messages, Markup message := by
  obtain ⟨groups, rfl, rendered⟩ := whole.grouped
  intro message member
  obtain ⟨group, inside, text⟩ := (rendered_members rendered).2 message member
  exact text.markup (fun line here => closed line (List.mem_flatten.mpr ⟨group, inside, here⟩))

/-! ### Widths -/

/-- How wide a character is once it is escaped. -/
def charWidth (c : Char) : Nat :=
  if c = '&' then 5 else if c = '<' then 4 else if c = '>' then 4 else if c = '"' then 6 else if c = '\'' then 6 else 1

/-- How wide a text is once it is escaped. -/
def escWidth (text : Chars) : Nat := (text.map charWidth).sum

/-- How wide a link after a text is: nothing, unless it is http(s) and short. -/
def linkWidth (url : Chars) : Nat := if isHttp url ∧ url.length ≤ maxUrlChars then 21 + escWidth url else 0

/-- How wide the line of a change of a service or a method is. -/
def lineWidth (c : Change) : Nat :=
  let name := escWidth (clip c.entityName.toList maxNameChars)
  let service := escWidth (clip (serviceOf c) maxNameChars)
  match c.changeType with
  | .service => 11 + name + linkWidth c.url.toList
  | .method => 15 + name + (if service = 0 then 0 else 3 + service) + linkWidth c.url.toList
  | .field => 0

theorem length_escapeChar (c : Char) : (escapeChar c).length = charWidth c := by
  unfold escapeChar charWidth
  split
  · rfl
  · rfl
  · rfl
  · rfl
  · rfl
  · rename_i amp lt gt quot apos
    rw [if_neg amp, if_neg lt, if_neg gt, if_neg quot, if_neg apos]
    rfl

theorem length_escape (text : Chars) : (escape text).length = escWidth text := by
  simp [escape, escWidth, List.length_flatMap, length_escapeChar]

theorem charWidth_bounds (c : Char) : 1 ≤ charWidth c ∧ charWidth c ≤ 6 := by
  unfold charWidth
  split_ifs <;> omega

theorem escWidth_bounds (text : Chars) : text.length ≤ escWidth text ∧ escWidth text ≤ 6 * text.length := by
  induction text with
  | nil => simp [escWidth]
  | cons c rest ih =>
    have width := charWidth_bounds c
    simp only [escWidth, List.map_cons, List.sum_cons, List.length_cons] at ih ⊢
    omega

theorem escWidth_eq_zero {text : Chars} : escWidth text = 0 ↔ text = [] := by
  have bounds := escWidth_bounds text
  rw [← List.length_eq_zero_iff]
  omega

theorem length_clip_le (text : Chars) (limit : Nat) : (clip text limit).length ≤ limit + 1 := by
  unfold clip
  split
  · omega
  · simp

theorem link_eq (url title : Chars) :
    link url title = if isHttp url ∧ url.length ≤ maxUrlChars then
      "<a href=\"".toList ++ escape url ++ "\">".toList ++ escape title ++ "</a>".toList else [] := by
  unfold link
  by_cases http : isHttp url = true <;> by_cases short : url.length ≤ maxUrlChars
  · simp [http, short]
  · have long : maxUrlChars < url.length := by omega
    simp [http, short, long]
  · simp [http]
  · simp [http]

theorem length_link (url title : Chars) :
    (link url title).length = if isHttp url ∧ url.length ≤ maxUrlChars then 15 + escWidth url + escWidth title else 0 := by
  rw [link_eq]
  split
  · simp only [List.length_append, length_escape]
    rw [show "<a href=\"".toList.length = 9 from rfl, show "\">".toList.length = 2 from rfl,
      show "</a>".toList.length = 4 from rfl]
    omega
  · rfl

theorem length_withLink (text url : Chars) : (withLink text url).length = text.length + linkWidth url := by
  have width := length_link url "док".toList
  rw [show escWidth "док".toList = 3 from rfl] at width
  simp only [withLink, linkWidth]
  by_cases kept : isHttp url ∧ url.length ≤ maxUrlChars
  · rw [if_pos kept] at width ⊢
    have shown : link url "док".toList ≠ [] := by
      intro empty
      rw [empty, List.length_nil] at width
      omega
    rw [if_neg shown, List.length_append, List.length_append, width, show " · ".toList.length = 3 from rfl]
    omega
  · rw [if_neg kept] at width ⊢
    rw [if_pos (List.length_eq_zero_iff.mp width)]
    rfl

/-- The line of a service or a method is as wide as its parts; the line of a field
    always fits. -/
theorem length_changeLine (unicode : CharTables) (c : Change) :
    (c.changeType ≠ .field → (changeLine unicode c).length = lineWidth c) ∧
    (c.changeType = .field → (changeLine unicode c).length ≤ tgLimit) := by
  have name := length_escape (clip c.entityName.toList maxNameChars)
  constructor
  · intro other
    unfold changeLine lineWidth
    cases kind : c.changeType with
    | field => exact absurd kind other
    | service =>
      dsimp only
      rw [length_withLink]
      simp only [List.length_append, List.length_cons, name]
      rw [show " Сервис «".toList.length = 9 from rfl, show "»".toList.length = 1 from rfl]
      omega
    | method =>
      dsimp only
      rw [length_withLink]
      by_cases none : clip (serviceOf c) maxNameChars = []
      · rw [if_pos none, if_pos (escWidth_eq_zero.mpr none)]
        simp only [List.length_append, List.length_cons, name]
        rw [show " <code>".toList.length = 7 from rfl, show "</code>".toList.length = 7 from rfl]
        omega
      · rw [if_neg none, if_neg (fun zero => none (escWidth_eq_zero.mp zero))]
        simp only [List.length_append, List.length_cons, name, length_escape]
        rw [show " <code>".toList.length = 7 from rfl, show "</code>".toList.length = 7 from rfl,
          show " · ".toList.length = 3 from rfl]
        omega
  · intro kind
    have short_name := length_clip_le c.entityName.toList maxNameChars
    have short_diff : (fieldDiff unicode c).length ≤ maxNameChars * 2 + 1 := length_clip_le _ _
    have name_bound := (escWidth_bounds (clip c.entityName.toList maxNameChars)).2
    have diff_bound := (escWidth_bounds (fieldDiff unicode c)).2
    unfold changeLine
    rw [kind]
    simp only [List.length_append, List.length_cons, length_escape]
    rw [show " <code>".toList.length = 7 from rfl, show "</code>: ".toList.length = 9 from rfl]
    unfold maxNameChars at *
    unfold tgLimit
    omega

/-! ### Heads -/

/-- How many digits a number has. -/
def digits (n : Nat) : Nat := (toString n).toList.length

/-- How wide a signed number is with the blank before it. -/
def signedWidth (n : Nat) : Nat := if n = 0 then 0 else 2 + digits n

def plusMinusWidth (label plus minus : Nat) : List Nat :=
  if plus = 0 ∧ minus = 0 then [] else [label + signedWidth plus + signedWidth minus]

/-- How wide the parts of the counts are. -/
def countWidths (changes : List Change) : List Nat :=
  let fields := number changes .field .modified
  plusMinusWidth 7 (number changes .service .added) (number changes .service .removed) ++
    plusMinusWidth 6 (number changes .method .added) (number changes .method .removed) ++
    (if fields = 0 then [] else [15 + digits fields])

/-- How wide the head of a block is: the label, and the counts with what joins them. -/
def headWidth (bank : Bank) (changes : List Change) : Nat :=
  11 + (bankLabel bank).toList.length + (countWidths changes).sum + 3 * ((countWidths changes).length - 1)

theorem length_intercalate (sep : Chars) (parts : List Chars) :
    (sep.intercalate parts).length = (parts.map List.length).sum + sep.length * (parts.length - 1) := by
  induction parts with
  | nil => simp
  | cons first rest ih =>
    cases rest with
    | nil => simp
    | cons next rest =>
      rw [List.intercalate_cons_cons, List.length_append, List.length_append, ih]
      simp only [List.map_cons, List.sum_cons, List.length_cons, Nat.add_sub_cancel]
      rw [Nat.mul_succ]
      omega

theorem width_signed (sign : Char) (n : Nat) :
    (signed sign n).map List.length = if n = 0 then [] else [1 + digits n] := by
  unfold signed digits
  split
  · rfl
  · rw [List.map_singleton, List.length_cons, Nat.add_comm]

theorem width_plusMinus (label : String) (plus minus : Nat) :
    (plusMinus label plus minus).map List.length = plusMinusWidth label.toList.length plus minus := by
  unfold plusMinus plusMinusWidth
  split
  · rfl
  · have parts : (label.toList :: (signed '+' plus ++ signed '−' minus)).map List.length =
        label.toList.length ::
          ((if plus = 0 then [] else [1 + digits plus]) ++ (if minus = 0 then [] else [1 + digits minus])) := by
      rw [List.map_cons, List.map_append, width_signed, width_signed]
    have number := congrArg List.length parts
    rw [List.length_map] at number
    rw [List.map_singleton, length_intercalate, parts, number]
    unfold signedWidth
    rw [show " ".toList.length = 1 from rfl]
    refine congrArg (fun width => [width]) ?_
    by_cases came : plus = 0 <;> by_cases went : minus = 0 <;>
      simp only [came, went, if_true, if_false, List.length_cons, List.length_nil, List.sum_cons, List.sum_nil,
        List.append_nil, List.nil_append, List.cons_append] <;>
      omega

theorem width_counts (changes : List Change) :
    (counts changes).length = (countWidths changes).sum + 3 * ((countWidths changes).length - 1) := by
  unfold counts countWidths
  rw [length_intercalate]
  have fields (n : Nat) :
      ((if n = 0 then [] else ["поля изменены: ".toList ++ (toString n).toList]) : List Chars).map List.length =
        if n = 0 then [] else [15 + digits n] := by
    split
    · rfl
    · rw [List.map_singleton, List.length_append]; rfl
  have parts (a b c : List Chars) :
      (a ++ b ++ c).length = (a.map List.length ++ b.map List.length ++ c.map List.length).length := by
    simp
  rw [parts, List.map_append, List.map_append, width_plusMinus, width_plusMinus, fields]
  rfl

theorem length_head (bank : Bank) (changes : List Change) : (head bank changes).length = headWidth bank changes := by
  have label : escWidth (bankLabel bank).toList = (bankLabel bank).toList.length := by cases bank <;> rfl
  unfold head headWidth
  simp only [List.length_append, length_escape, label, width_counts]
  rw [show "🏦 <b>".toList.length = 5 from rfl, show "</b>: ".toList.length = 6 from rfl]
  omega

/-! ### Blocks -/

theorem changeLine_fits {unicode : CharTables} {c : Change} :
    (changeLine unicode c).length ≤ tgLimit ↔ lineWidth c ≤ tgLimit := by
  obtain ⟨same, field⟩ := length_changeLine unicode c
  by_cases kind : c.changeType = .field
  · have nothing : lineWidth c = 0 := by unfold lineWidth; rw [kind]
    simp [nothing, field kind]
  · rw [same kind]

theorem lineWidth_pos {c : Change} (other : c.changeType ≠ .field) : 0 < lineWidth c := by
  unfold lineWidth
  cases kind : c.changeType with
  | service => dsimp only; omega
  | method => dsimp only; omega
  | field => exact absurd kind other

theorem changeLine_ne_nil (unicode : CharTables) (c : Change) : changeLine unicode c ≠ [] := by
  intro empty
  by_cases kind : c.changeType = .field
  · unfold changeLine at empty
    rw [kind] at empty
    simp at empty
  · have width := (length_changeLine unicode c).1 kind
    have wide := lineWidth_pos kind
    rw [empty, List.length_nil] at width
    omega

theorem dashboardLink_fits {dashboardUrl title : Chars} (short : escWidth title ≤ 100) :
    (dashboardLink dashboardUrl title).length ≤ 3200 := by
  unfold dashboardLink
  rw [length_link]
  split
  · rename_i kept
    have width := (escWidth_bounds (dashboardUrl ++ "/changes".toList)).2
    have bound : (dashboardUrl ++ "/changes".toList).length ≤ 500 := kept.2
    omega
  · omega

/-- The line that says how many changes are not listed. -/
theorem restLine_fits {rest : Nat} (few : rest < 100) {place : Chars} (short : place.length ≤ 3200) :
    Fits tgLimit ["…и ещё ".toList ++ (toString rest).toList ++ " — ".toList ++ place] := by
  intro line member
  have number : (toString rest).toList.length ≤ 2 := (Nat.length_repr_le_iff (by decide)).mpr few
  have width : line.length = 7 + (toString rest).toList.length + 3 + place.length := by
    rw [List.mem_singleton.mp member, List.length_append, List.length_append, List.length_append]
    rfl
  unfold tgLimit
  exact ⟨List.ne_nil_of_length_pos (by omega), by omega⟩

theorem extraLines_fit (changes : List Change) (dashboardUrl : Chars) :
    Fits tgLimit (extraLines changes dashboardUrl) := by
  intro line member
  unfold extraLines at member
  split at member
  · rcases List.mem_cons.mp member with note | more
    · rw [note]
      exact ⟨by decide +kernel, by decide +kernel⟩
    · split at more
      · simp at more
      · split at more
        · simp at more
        · rename_i link
          rw [List.mem_singleton.mp more]
          have width := @dashboardLink_fits dashboardUrl "Подробности в дашборде".toList (by decide)
          exact ⟨link, by unfold tgLimit; omega⟩
  · split at member
    · rename_i few _
      have rest : changes.length - maxLinesPerBank < 100 := by unfold bulkThreshold at few; omega
      refine restLine_fits rest ?_ line member
      split
      · decide
      · exact dashboardLink_fits (by decide)
    · simp at member

variable {unicode : CharTables} {bank : Bank} {changes : List Change} {dashboardUrl : Chars}

/-- The lines of a block that may be too wide are its head and the changes that it lists. -/
def BlockFits (bank : Bank) (changes : List Change) : Prop :=
  headWidth bank changes ≤ tgLimit ∧ (changes.length ≤ bulkThreshold → ∀ c ∈ listed changes, lineWidth c ≤ tgLimit)

theorem bankBlock_ne_nil : ∀ line ∈ bankBlock unicode bank changes dashboardUrl, line ≠ [] := by
  intro line member
  rcases mem_bankBlock.mp member with rfl | ⟨-, c, -, rfl⟩ | extra
  · intro empty
    have width := length_head bank changes
    rw [empty, List.length_nil, headWidth] at width
    omega
  · exact changeLine_ne_nil unicode c
  · exact (extraLines_fit changes dashboardUrl line extra).1

theorem bankBlock_fits :
    (∀ line ∈ bankBlock unicode bank changes dashboardUrl, line.length ≤ tgLimit) ↔ BlockFits bank changes := by
  constructor
  · intro short
    refine ⟨?_, ?_⟩
    · rw [← length_head]
      exact short _ (mem_bankBlock.mpr (.inl rfl))
    · intro few c member
      exact changeLine_fits.mp (short _ (mem_bankBlock.mpr (.inr (.inl ⟨few, c, member, rfl⟩))))
  · rintro ⟨headed, changed⟩ line member
    rcases mem_bankBlock.mp member with rfl | ⟨few, c, inside, rfl⟩ | extra
    · rw [length_head]; exact headed
    · exact changeLine_fits.mpr (changed few c inside)
    · exact (extraLines_fit changes dashboardUrl line extra).2

/-! ### Digests -/

/-- The lines of a digest: none when nothing changed. -/
def digestLines (unicode : CharTables) (changesByBank : Bank → List Change) (moment : MskTime) (dashboardUrl : Chars) :
    List Chars :=
  if changedBanks changesByBank = [] then [] else (digestBlocks unicode changesByBank moment dashboardUrl).flatten

/-- No message is too long, every line stands whole in one message, and all tags are closed. -/
structure Valid (unicode : CharTables) (changesByBank : Bank → List Change) (moment : MskTime) (dashboardUrl : Chars) :
    Prop where
  whole : Whole tgLimit (digestLines unicode changesByBank moment dashboardUrl)
    (buildDigest unicode changesByBank moment dashboardUrl)
  closed : ∀ message ∈ buildDigest unicode changesByBank moment dashboardUrl, Markup message

variable {changesByBank : Bank → List Change} {moment : MskTime}

theorem mem_changedBanks : bank ∈ changedBanks changesByBank ↔ changesByBank bank ≠ [] := by
  have known : bank ∈ bankKeys := by cases bank <;> decide
  simp [changedBanks, known]

theorem header_fits (moment : MskTime) : Fits tgLimit [header moment] := by
  intro line member
  have clock : moment.clock.text.toList.length = 5 := by rw [Settings.Clock.text, String.toList_ofList]; rfl
  have width : line.length = 48 := by
    rw [List.mem_singleton.mp member]
    unfold header
    rw [List.length_append, List.length_append, List.length_append, List.length_append, List.length_append, clock]
    rfl
  unfold tgLimit
  exact ⟨List.ne_nil_of_length_pos (by omega), by omega⟩

/-- Something has been packed. -/
def Begun (packed : Packed) : Prop := packed.current ≠ [] ∨ packed.messages ≠ []

theorem begun_add (begun : Begun packed) : Begun (add limit packed piece sep) := by
  unfold add
  by_cases fresh : packed.current = []
  · have full : packed.messages ≠ [] := begun.resolve_left (not_not.mpr fresh)
    simp only [fresh, if_true]
    split <;> exact .inr full
  · simp only [fresh, if_false]
    split
    · exact .inl (by simp [fresh])
    · exact .inr (by simp)

theorem begun_addBlock {block : List Chars} (begun : Begun packed) : Begun (addBlock limit packed block) := by
  simp only [addBlock]
  split
  · exact begun_add begun
  · cases block with
    | nil => exact begun
    | cons first rest =>
      exact List.foldlRecOn rest _ (begun_add begun) (fun packed before line _ => begun_add before)

/-- There is a message for every digest with changes. -/
theorem buildDigest_eq_nil : buildDigest unicode changesByBank moment dashboardUrl = [] ↔ ∀ bank, changesByBank bank = [] := by
  constructor
  · intro none bank
    by_contra changed
    have some_bank : changedBanks changesByBank ≠ [] := List.ne_nil_of_mem (mem_changedBanks.mpr changed)
    obtain ⟨filled, short⟩ := header_fits moment (header moment) (List.mem_singleton_self _)
    have first : addBlock tgLimit {} [header moment] = { current := header moment } := by
      have alone : ['\n'].intercalate [header moment] = header moment := by simp [List.intercalate]
      simp only [addBlock, alone, if_pos short, add, if_true]
    have begun : Begun ((digestBlocks unicode changesByBank moment dashboardUrl).foldl (addBlock tgLimit) {}) := by
      rw [digestBlocks, List.foldl_cons, first]
      exact List.foldlRecOn _ _ (.inl filled) (fun packed before block _ => begun_addBlock before)
    rw [buildDigest, if_neg some_bank] at none
    simp only [pack] at none
    split at none
    · rename_i fresh
      exact (begun.resolve_left (not_not.mpr fresh)) none
    · simp at none
  · intro same
    have unchanged : changedBanks changesByBank = [] := List.eq_nil_iff_forall_not_mem.mpr fun bank member =>
      mem_changedBanks.mp member (same bank)
    rw [buildDigest, if_pos unchanged]

theorem closed_digestLines (unicode : CharTables) (changesByBank : Bank → List Change) (moment : MskTime)
    (dashboardUrl : Chars) : ∀ line ∈ digestLines unicode changesByBank moment dashboardUrl, Markup line := by
  intro line member
  unfold digestLines at member
  split at member
  · simp at member
  · obtain ⟨block, inside, here⟩ := List.mem_flatten.mp member
    rcases List.mem_cons.mp inside with rfl | bank
    · rw [List.mem_singleton.mp here]; exact markup_header moment
    · obtain ⟨b, -, rfl⟩ := List.mem_map.mp bank
      exact markup_bankBlock unicode b _ _ line here

/-- No line of a valid digest is too wide. -/
theorem Valid.blockFits (valid : Valid unicode changesByBank moment dashboardUrl) {bank : Bank}
    (changed : changesByBank bank ≠ []) : BlockFits bank (changesByBank bank) := by
  refine (@bankBlock_fits unicode bank _ (dashboardUrl.rdropWhile (· = '/'))).mp ?_
  intro line member
  have some_bank : changedBanks changesByBank ≠ [] := List.ne_nil_of_mem (mem_changedBanks.mpr changed)
  have inside : line ∈ digestLines unicode changesByBank moment dashboardUrl := by
    rw [digestLines, if_neg some_bank]
    refine List.mem_flatten.mpr ⟨_, List.mem_cons_of_mem _ ?_, member⟩
    exact List.mem_map.mpr ⟨bank, mem_changedBanks.mpr changed, rfl⟩
  exact valid.whole.fits line inside

/-- A digest is valid exactly if the head of every block and every listed change fit a message. -/
theorem digest_valid_iff (unicode : CharTables) (changesByBank : Bank → List Change) (moment : MskTime)
    (dashboardUrl : Chars) :
    Valid unicode changesByBank moment dashboardUrl ↔
      ∀ bank, changesByBank bank ≠ [] → BlockFits bank (changesByBank bank) := by
  constructor
  · intro valid bank changed
    exact valid.blockFits changed
  · intro fits
    have whole : Whole tgLimit (digestLines unicode changesByBank moment dashboardUrl)
        (buildDigest unicode changesByBank moment dashboardUrl) := by
      unfold digestLines buildDigest
      split
      · exact ⟨by simp, [], rfl, .nil⟩
      · refine whole_pack ?_ ?_
        · simp only [digestBlocks, List.mem_cons, List.mem_map, not_or, not_exists, not_and]
          refine ⟨by simp, ?_⟩
          intro b _ empty
          have first := @mem_bankBlock unicode b (changesByBank b) (dashboardUrl.rdropWhile (· = '/')) _ |>.mpr (.inl rfl)
          rw [empty] at first
          cases first
        · intro block member
          rcases List.mem_cons.mp member with rfl | bank
          · exact header_fits moment
          · obtain ⟨b, changed, rfl⟩ := List.mem_map.mp bank
            intro line inside
            exact ⟨bankBlock_ne_nil line inside, bankBlock_fits.mpr (fits b (mem_changedBanks.mp changed)) line inside⟩
    exact ⟨whole, whole.markup (closed_digestLines unicode changesByBank moment dashboardUrl)⟩

/-- One new method: 200 quotes as its name, as its service and nearly 500 in its link. -/
def quotes : Change where
  changeType := .method
  action := .added
  entityName := String.ofList (List.replicate 200 '"')
  entityPath := String.ofList (List.replicate 200 '"' ++ " / GET /x".toList)
  url := String.ofList ("https://".toList ++ List.replicate 492 '"')

theorem escWidth_append (s t : Chars) : escWidth (s ++ t) = escWidth s + escWidth t := by
  simp [escWidth]

theorem escWidth_quotes (n : Nat) : escWidth (List.replicate n '"') = 6 * n := by
  have quote : charWidth '"' = 6 := rfl
  simp [escWidth, quote, Nat.mul_comm]

theorem beforeSlash_quotes (n : Nat) (rest : Chars) :
    beforeSlash (List.replicate n '"' ++ ' ' :: '/' :: ' ' :: rest) = some (List.replicate n '"') := by
  induction n with
  | zero => rfl
  | succ n ih =>
    rw [List.replicate_succ, List.cons_append, beforeSlash, ih]
    · rfl
    · intro _ blank
      cases blank

theorem clip_quotes : clip (List.replicate 200 '"') maxNameChars = List.replicate 200 '"' :=
  if_pos (by rw [List.length_replicate]; exact Nat.le_refl 200)

theorem lineWidth_quotes : lineWidth quotes = 5399 := by
  have name : quotes.entityName.toList = List.replicate 200 '"' := String.toList_ofList
  have path : quotes.entityPath.toList = List.replicate 200 '"' ++ ' ' :: '/' :: ' ' :: "GET /x".toList :=
    String.toList_ofList
  have url : quotes.url.toList = "https://".toList ++ List.replicate 492 '"' := String.toList_ofList
  have service : serviceOf quotes = List.replicate 200 '"' := by rw [serviceOf, path, beforeSlash_quotes]; rfl
  have kept : isHttp quotes.url.toList ∧ quotes.url.toList.length ≤ maxUrlChars := by
    rw [url]
    exact ⟨rfl, by rw [List.length_append, List.length_replicate]; exact Nat.le_refl 500⟩
  have link : linkWidth quotes.url.toList = 2981 := by
    rw [linkWidth, if_pos kept, url, escWidth_append, escWidth_quotes]
    rfl
  have kind : quotes.changeType = .method := rfl
  rw [lineWidth, kind, name, service, clip_quotes, escWidth_quotes, link]
  rfl

theorem quotes_cut : ¬ Valid latin1 (fun bank => if bank = .tbank then [quotes] else []) ⟨1, 1, ⟨9, 0⟩⟩ [] := by
  intro valid
  have changed : (if Bank.tbank = Bank.tbank then [quotes] else []) ≠ [] := by simp
  have fits := (valid.blockFits changed).2 (Nat.le_of_ble_eq_true rfl) quotes (List.mem_singleton_self quotes)
  rw [lineWidth_quotes] at fits
  unfold tgLimit at fits
  omega

end ScanApi.DigestFits
