import ScanApi.DigestFits

/-!
Packing loses nothing (`_pack` of `app/notify_format.py`). A page holds the lines
of one message, each with a mark that says whether it begins its block. The mark
decides which separator stands before the line, so that pages give the messages,
and their lines one after another are the lines of all blocks.
-/
namespace ScanApi.DigestPages
open ScanApi.NotifyFormat ScanApi.DigestFits

/-! ### Pages -/

/-- The lines of a message, each with a mark if it begins a block. -/
abbrev Page := List (Bool × Chars)

/-- The lines of a block. -/
def marked : List Chars → Page
  | [] => []
  | first :: rest => (true, first) :: rest.map (fun line => (false, line))

/-- What `_pack` puts before a line. -/
def separator (begins : Bool) : Chars := if begins then blank else ['\n']

def following (page : Page) : Chars := page.flatMap (fun line => separator line.1 ++ line.2)

/-- The message: no separator stands before its first line. -/
def text : Page → Chars
  | [] => []
  | (_, line) :: rest => line ++ following rest

/-- The block after `before` stands whole on one page, with what was read before it in front. -/
def Undivided (before : List (List Chars)) (block : List Chars) (pages : List Page) : Prop :=
  ∃ earlier page later front back, pages = earlier ++ page :: later ∧ page = front ++ marked block ++ back ∧
    earlier.flatten ++ front = before.flatMap marked

variable {limit : Nat} {packed : Packed} {pages : List Page} {pending page group read : Page}

theorem text_append (begins : Bool) (line : Chars) (rest : Page) (started : page ≠ []) :
    text (page ++ (begins, line) :: rest) = text page ++ separator begins ++ text ((begins, line) :: rest) := by
  obtain ⟨⟨_, first⟩, page, rfl⟩ := List.exists_cons_of_ne_nil started
  simp [text, following]

theorem text_ne_nil (filled : ∀ line ∈ page, line.2 ≠ []) (started : page ≠ []) : text page ≠ [] := by
  obtain ⟨⟨begins, first⟩, page, rfl⟩ := List.exists_cons_of_ne_nil started
  have first_filled : first ≠ [] := filled (begins, first) List.mem_cons_self
  simp [text, first_filled]

theorem text_line (begins : Bool) (line : Chars) : text [(begins, line)] = line := by simp [text, following]

theorem intercalate_lines (first : Chars) (rest : List Chars) :
    ['\n'].intercalate (first :: rest) = first ++ rest.flatMap (fun line => '\n' :: line) := by
  induction rest generalizing first with
  | nil => simp
  | cons next rest ih =>
    rw [List.intercalate_cons_cons, ih next, List.flatMap_cons]
    simp

theorem text_marked (block : List Chars) : text (marked block) = ['\n'].intercalate block := by
  cases block with
  | nil => rfl
  | cons first rest =>
    rw [marked, text, intercalate_lines]
    simp [following, separator, List.flatMap_map]

theorem marked_filled {block : List Chars} (fits : Fits limit block) : ∀ line ∈ marked block, line.2 ≠ [] := by
  cases block with
  | nil => simp [marked]
  | cons first rest =>
    intro line member
    rcases List.mem_cons.mp member with rfl | later
    · exact (fits first List.mem_cons_self).1
    · obtain ⟨l, inside, rfl⟩ := List.mem_map.mp later
      exact (fits l (List.mem_cons_of_mem _ inside)).1

theorem marked_ne_nil {block : List Chars} (headed : block ≠ []) : marked block ≠ [] := by
  obtain ⟨first, rest, rfl⟩ := List.exists_cons_of_ne_nil headed
  exact List.cons_ne_nil _ _

/-! ### One piece -/

/-- The pages behind a state of the packing loop: the full ones, and the one that is being filled. -/
structure Paged (read : Page) (packed : Packed) (pages : List Page) (pending : Page) : Prop where
  messages : packed.messages = pages.map text
  current : packed.current = text pending
  full : [] ∉ pages
  lines : pages.flatten ++ pending = read
  filled : ∀ line ∈ pending, line.2 ≠ []
  begun : pending = [] → pages = []

/-- The last page may get more lines, and new pages may follow. -/
def Extends (pages pages' : List Page) : Prop :=
  ∃ earlier page back later, pages = earlier ++ [page] ∧ pages' = earlier ++ (page ++ back) :: later

theorem Paged.empty (paged : Paged read packed pages pending) : packed.current = [] ↔ pending = [] := by
  rw [paged.current]
  constructor
  · intro nothing
    by_contra started
    exact text_ne_nil paged.filled started nothing
  · rintro rfl
    rfl

theorem Extends.trans {first second third : List Page} (one : Extends first second) (two : Extends second third) :
    Extends first third := by
  obtain ⟨earlier, page, back, later, rfl, rfl⟩ := one
  obtain ⟨earlier', page', back', later', same, rfl⟩ := two
  rcases List.eq_nil_or_concat later with rfl | ⟨later, last, rfl⟩
  · obtain ⟨rfl, last⟩ := List.append_inj' same rfl
    obtain rfl := List.singleton_inj.mp last
    exact ⟨earlier, page, back ++ back', later', rfl, by simp⟩
  · rw [List.concat_eq_append, ← List.cons_append, ← List.append_assoc] at same
    obtain ⟨rfl, -⟩ := List.append_inj' same rfl
    exact ⟨earlier, page, back, later ++ (page' ++ back') :: later', rfl, by simp⟩

theorem Undivided.extends {before : List (List Chars)} {block : List Chars} {pages pages' : List Page}
    (undivided : Undivided before block pages) (more : Extends pages pages') : Undivided before block pages' := by
  obtain ⟨earlier, page, later, front, back, same, whole, lines⟩ := undivided
  obtain ⟨earlier', page', back', later', rfl, rfl⟩ := more
  rcases List.eq_nil_or_concat later with rfl | ⟨later, last, rfl⟩
  · obtain ⟨rfl, last⟩ := List.append_inj' same rfl
    obtain rfl := List.singleton_inj.mp last
    exact ⟨earlier', page' ++ back', later', front, back ++ back', rfl, by simp [whole], lines⟩
  · rw [List.concat_eq_append, ← List.cons_append, ← List.append_assoc] at same
    obtain ⟨rfl, -⟩ := List.append_inj' same rfl
    exact ⟨earlier, page, later ++ (page' ++ back') :: later', front, back, by simp, whole, lines⟩

/-- A piece that fits stands whole at the end of the current page or begins the next. -/
theorem paged_add {begins : Bool} {line : Chars} {rest : Page} (paged : Paged read packed pages pending)
    (fits : (text ((begins, line) :: rest)).length ≤ limit) (filled : ∀ l ∈ (begins, line) :: rest, l.2 ≠ []) :
    ∃ pages' pending' front,
      Paged (read ++ (begins, line) :: rest) (add limit packed (text ((begins, line) :: rest)) (separator begins))
        pages' pending' ∧
      Extends (pages ++ [pending]) (pages' ++ [pending']) ∧ pending' = front ++ (begins, line) :: rest ∧
      pages'.flatten ++ front = read := by
  have whole : (text ((begins, line) :: rest)).take limit = text ((begins, line) :: rest) :=
    List.take_of_length_le fits
  unfold add
  by_cases fresh : pending = []
  · have blank_current := paged.empty.mpr fresh
    obtain rfl := paged.begun fresh
    subst fresh
    simp only [blank_current, if_true, fits]
    have nothing : read = [] := by rw [← paged.lines]; rfl
    refine ⟨[], (begins, line) :: rest, [], ?_, ⟨[], [], (begins, line) :: rest, [], rfl, rfl⟩, rfl, nothing.symm⟩
    exact ⟨paged.messages, rfl, paged.full, by rw [nothing]; rfl, filled, fun other => absurd other (by simp)⟩
  · have current : packed.current ≠ [] := fun empty => fresh (paged.empty.mp empty)
    simp only [current, if_false]
    split
    · refine ⟨pages, pending ++ (begins, line) :: rest, pending, ?_, ?_, rfl, paged.lines⟩
      · refine ⟨paged.messages, ?_, paged.full, ?_, ?_, fun other => absurd other (by simp)⟩
        · rw [text_append begins line rest fresh, paged.current]
        · rw [← List.append_assoc, paged.lines]
        · intro l member
          exact (List.mem_append.mp member).elim (paged.filled l) (filled l)
      · exact ⟨pages, pending, (begins, line) :: rest, [], rfl, rfl⟩
    · rw [whole]
      refine ⟨pages ++ [pending], (begins, line) :: rest, [], ?_, ?_, rfl, ?_⟩
      · refine ⟨?_, rfl, ?_, ?_, filled, fun other => absurd other (by simp)⟩
        · rw [List.map_append, paged.messages, paged.current]; rfl
        · intro member
          rcases List.mem_append.mp member with before | last
          · exact paged.full before
          · exact fresh (List.mem_singleton.mp last).symm
        · rw [List.flatten_append, List.flatten_singleton, paged.lines]
      · exact ⟨pages, pending, [], [(begins, line) :: rest], rfl, by simp⟩
      · rw [List.append_nil, List.flatten_append, List.flatten_singleton, paged.lines]

/-! ### Blocks -/

theorem paged_lines {rest : List Chars} (paged : Paged read packed pages pending) (fits : Fits limit rest) :
    ∃ pages' pending',
      Paged (read ++ rest.map (fun line => (false, line)))
        (rest.foldl (fun packed line => add limit packed line ['\n']) packed) pages' pending' ∧
      Extends (pages ++ [pending]) (pages' ++ [pending']) := by
  induction rest generalizing read packed pages pending with
  | nil => exact ⟨pages, pending, by simpa using paged, pages, pending, [], [], rfl, by simp⟩
  | cons line rest ih =>
    obtain ⟨filled, short⟩ := fits line List.mem_cons_self
    obtain ⟨pages₁, pending₁, -, next, more, -⟩ :=
      @paged_add limit _ _ _ _ false line [] paged
        (by rw [text_line]; exact short) (by simpa using filled)
    rw [text_line] at next
    obtain ⟨pages₂, pending₂, last, further⟩ := ih next (fun l member => fits l (List.mem_cons_of_mem _ member))
    exact ⟨pages₂, pending₂, by simpa [separator] using last, more.trans further⟩

/-- Every block whose text fits stands whole on a page. -/
def Together (limit : Nat) (blocks : List (List Chars)) (pages : List Page) : Prop :=
  ∀ before block after, blocks = before ++ block :: after → (['\n'].intercalate block).length ≤ limit →
    Undivided before block pages

variable {blocks : List (List Chars)} {block : List Chars}

theorem Together.snoc {pages pages' : List Page} (together : Together limit blocks pages)
    (more : Extends pages pages')
    (last : (['\n'].intercalate block).length ≤ limit → Undivided blocks block pages') :
    Together limit (blocks ++ [block]) pages' := by
  intro before other after same room
  rcases List.eq_nil_or_concat after with rfl | ⟨after, final, rfl⟩
  · obtain ⟨rfl, here⟩ := List.append_inj' same rfl
    obtain rfl := List.singleton_inj.mp here
    exact last room
  · rw [List.concat_eq_append, ← List.cons_append, ← List.append_assoc] at same
    obtain ⟨earlier, -⟩ := List.append_inj' same rfl
    exact (together before other after earlier room).extends more

theorem paged_addBlock (paged : Paged (blocks.flatMap marked) packed pages pending)
    (together : Together limit blocks (pages ++ [pending])) (headed : block ≠ []) (fits : Fits limit block) :
    ∃ pages' pending', Paged ((blocks ++ [block]).flatMap marked) (addBlock limit packed block) pages' pending' ∧
      Together limit (blocks ++ [block]) (pages' ++ [pending']) := by
  obtain ⟨first, rest, rfl⟩ := List.exists_cons_of_ne_nil headed
  have read : (blocks ++ [first :: rest]).flatMap marked = blocks.flatMap marked ++ marked (first :: rest) := by simp
  rw [read]
  simp only [addBlock]
  split
  · rename_i room
    rw [← text_marked] at room ⊢
    obtain ⟨pages', pending', front, next, more, placed, behind⟩ := paged_add paged room (marked_filled fits)
    refine ⟨pages', pending', next, together.snoc more ?_⟩
    rintro -
    exact ⟨pages', pending', [], front, [], rfl, by rw [placed, List.append_nil]; rfl, behind⟩
  · rename_i wide
    obtain ⟨filled, short⟩ := fits first List.mem_cons_self
    obtain ⟨pages₁, pending₁, -, begun, more, -⟩ :=
      @paged_add limit _ _ _ _ true first [] paged
        (by rw [text_line]; exact short) (by simpa using filled)
    rw [text_line] at begun
    obtain ⟨pages₂, pending₂, last, further⟩ := paged_lines begun (fun l member => fits l (List.mem_cons_of_mem _ member))
    refine ⟨pages₂, pending₂, ?_, together.snoc (more.trans further) (fun room => absurd room wide)⟩
    simpa [separator, marked] using last

theorem paged_blocks {before : List (List Chars)} (paged : Paged (before.flatMap marked) packed pages pending)
    (together : Together limit before (pages ++ [pending])) (headed : [] ∉ blocks)
    (fits : ∀ block ∈ blocks, Fits limit block) :
    ∃ pages' pending', Paged ((before ++ blocks).flatMap marked) (blocks.foldl (addBlock limit) packed) pages' pending' ∧
      Together limit (before ++ blocks) (pages' ++ [pending']) := by
  induction blocks generalizing before packed pages pending with
  | nil => exact ⟨pages, pending, by simpa using paged, by simpa using together⟩
  | cons block blocks ih =>
    obtain ⟨other, rest_headed⟩ : [] ≠ block ∧ [] ∉ blocks := by simpa using headed
    obtain ⟨pages₁, pending₁, next, kept⟩ := paged_addBlock paged together other.symm (fits _ List.mem_cons_self)
    obtain ⟨pages₂, pending₂, last, all_kept⟩ :=
      ih next kept rest_headed (fun b member => fits b (List.mem_cons_of_mem _ member))
    exact ⟨pages₂, pending₂, by simpa using last, by simpa using all_kept⟩

/-- Packing shows every line of every block once, in order, and keeps a block together if it fits a message. -/
theorem pack_pages (blocks : List (List Chars)) (limit : Nat) (headed : [] ∉ blocks)
    (fits : ∀ block ∈ blocks, Fits limit block) :
    (∀ message ∈ pack blocks limit, message.length ≤ limit) ∧
      ∃ pages, [] ∉ pages ∧ pack blocks limit = pages.map text ∧ pages.flatten = blocks.flatMap marked ∧
        Together limit blocks pages := by
  refine ⟨(whole_pack headed fits).short, ?_⟩
  have start : Paged (([] : List (List Chars)).flatMap marked) {} [] [] :=
    ⟨rfl, rfl, by simp, rfl, by simp, fun _ => rfl⟩
  have none_yet : Together limit [] ([] ++ [[]]) := fun before block after same => absurd same (by simp)
  obtain ⟨pages, pending, paged, together⟩ := paged_blocks start none_yet headed fits
  rw [List.nil_append] at paged together
  unfold pack
  by_cases fresh : pending = []
  · obtain rfl := paged.begun fresh
    subst fresh
    have nothing : blocks.flatMap marked = [] := paged.lines.symm
    have no_blocks : blocks = [] := by
      rw [List.eq_nil_iff_forall_not_mem]
      intro block member
      have unmarked := List.flatMap_eq_nil_iff.mp nothing block member
      exact marked_ne_nil (fun empty => headed (empty ▸ member)) unmarked
    subst no_blocks
    exact ⟨[], by simp, rfl, rfl, fun before block after same => absurd same (by simp)⟩
  · have current : (blocks.foldl (addBlock limit) {}).current ≠ [] := fun empty => fresh (paged.empty.mp empty)
    rw [if_neg current]
    refine ⟨pages ++ [pending], ?_, ?_, by simpa using paged.lines, together⟩
    · intro member
      rcases List.mem_append.mp member with before | last
      · exact paged.full before
      · exact fresh (List.mem_singleton.mp last).symm
    · rw [List.map_append, paged.messages, paged.current]; rfl

/-- Three blocks and messages of at most seven characters: only the second block is too long for one. -/
def threeBlocks : List (List Chars) := [["ab".toList, "c".toList], ["d".toList, "efghijk".toList], ["l".toList]]

example : pack threeBlocks 7 = ["ab\nc\n\nd".toList, "efghijk".toList, "l".toList] := by decide +kernel

theorem pack_pages_three : (∀ message ∈ pack threeBlocks 7, message.length ≤ 7) ∧
    ∃ pages, [] ∉ pages ∧ pack threeBlocks 7 = pages.map text ∧ pages.flatten = threeBlocks.flatMap marked ∧
      Together 7 threeBlocks pages :=
  pack_pages threeBlocks 7 (by decide) (by unfold Fits; decide)

end ScanApi.DigestPages
