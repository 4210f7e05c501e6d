import Mathlib.Data.List.Infix
import Mathlib.Data.List.TakeWhile

/-!
Regular expressions as a backtracking engine tries them. `ways` lists how a
pattern can match at a place, in the order in which they are tried, so the first
one is the match. `scan` goes through a text from left to right and takes the
matches that do not overlap; it is meant for patterns that match no empty text.
-/
namespace ScanApi.Regex

inductive Pattern
  /-- One character of a class. -/
  | char (accepts : Char → Bool)
  /-- Characters of a class, as many as possible. -/
  | many (accepts : Char → Bool)
  | seq (first second : Pattern)
  /-- The first alternative is tried first. -/
  | alt (first second : Pattern)
  | group (n : Nat) (inner : Pattern)
  /-- `^` with MULTILINE. -/
  | lineStart
  | empty

namespace Pattern

/-- `[..]+`. -/
def plus (accepts : Char → Bool) : Pattern := .seq (.char accepts) (.many accepts)
/-- `(..)?`. -/
def opt (inner : Pattern) : Pattern := .alt inner .empty
/-- Characters one after another. -/
def literal (text : List Char) : Pattern := text.foldr (fun c rest => .seq (.char (· = c)) rest) .empty

end Pattern

/-- A match: its text, and the text of its groups, the last one to close first. -/
structure Way where
  taken : List Char
  groups : List (Nat × List Char) := []
deriving DecidableEq

/-- `match.group(n)`. -/
def Way.group (way : Way) (n : Nat) : Option (List Char) := (way.groups.find? (fun g => g.1 = n)).map Prod.snd

/-- The matches of a pattern at the beginning of a text, given the character before it. -/
def ways : Pattern → Option Char → List Char → List Way
  | .char accepts, _, text => match text with
    | c :: _ => if accepts c then [⟨[c], []⟩] else []
    | [] => []
  | .many accepts, _, text => (text.takeWhile accepts).inits.reverse.map (fun taken => ⟨taken, []⟩)
  | .seq first second, prev, text => (ways first prev text).flatMap (fun way =>
      (ways second (way.taken.getLast?.or prev) (text.drop way.taken.length)).map (fun next =>
        ⟨way.taken ++ next.taken, next.groups ++ way.groups⟩))
  | .alt first second, prev, text => ways first prev text ++ ways second prev text
  | .group n inner, prev, text => (ways inner prev text).map (fun way => ⟨way.taken, (n, way.taken) :: way.groups⟩)
  | .lineStart, prev, _ => if prev.all (· = '\n') then [⟨[], []⟩] else []
  | .empty, _, _ => [⟨[], []⟩]

/-- `pattern.match` at a place. -/
def matchAt (pattern : Pattern) (prev : Option Char) (text : List Char) : Option Way := (ways pattern prev text).head?

/-- What a scan finds: characters outside of matches, and matches. -/
inductive Piece
  | text (c : Char)
  | found (way : Way)

/-- The pieces of a text; the first `skip` characters belong to a match already found. -/
def scan (pattern : Pattern) : Option Char → Nat → List Char → List Piece
  | _, _, [] => []
  | _, skip + 1, c :: rest => scan pattern (some c) skip rest
  | prev, 0, c :: rest => match matchAt pattern prev (c :: rest) with
    | some way =>
      if way.taken = [] then .text c :: scan pattern (some c) 0 rest
      else .found way :: scan pattern (some c) (way.taken.length - 1) rest
    | none => .text c :: scan pattern (some c) 0 rest

/-- `pattern.finditer(text)`. -/
def finditer (pattern : Pattern) (text : List Char) : List Way :=
  (scan pattern none 0 text).filterMap (fun
    | .text _ => none
    | .found way => some way)

/-- `pattern.search(text)`. -/
def search (pattern : Pattern) (text : List Char) : Option Way := (finditer pattern text).head?

/-- `pattern.sub(replacement, text)`. -/
def sub (pattern : Pattern) (replacement : Way → List Char) (text : List Char) : List Char :=
  (scan pattern none 0 text).flatMap (fun
    | .text c => [c]
    | .found way => replacement way)

theorem matchAt_of_unique {pattern : Pattern} {prev : Option Char} {text : List Char} {way : Way}
    (listed : way ∈ ways pattern prev text) (unique : ∀ other ∈ ways pattern prev text, other = way) :
    matchAt pattern prev text = some way := by
  obtain ⟨first, others, all⟩ := List.exists_cons_of_ne_nil (List.ne_nil_of_mem listed)
  have same : first = way := unique first (all ▸ List.mem_cons_self)
  rw [matchAt, all, same]
  rfl

theorem matchAt_eq_none {pattern : Pattern} {prev : Option Char} {text : List Char}
    (missed : ∀ way, way ∉ ways pattern prev text) : matchAt pattern prev text = none := by
  rw [matchAt, List.eq_nil_iff_forall_not_mem.mpr missed]
  rfl

/-! ### Patterns without anchors -/

/-- Whether a pattern looks at the text only. -/
def Pattern.anchorFree : Pattern → Bool
  | .char _ => true
  | .many _ => true
  | .seq first second => first.anchorFree && second.anchorFree
  | .alt first second => first.anchorFree && second.anchorFree
  | .group _ inner => inner.anchorFree
  | .lineStart => false
  | .empty => true

/-- The texts that a pattern describes, with their groups. -/
def Spells : Pattern → Way → Prop
  | .char accepts, way => ∃ c, accepts c = true ∧ way = ⟨[c], []⟩
  | .many accepts, way => ∃ run, (∀ c ∈ run, accepts c = true) ∧ way = ⟨run, []⟩
  | .seq first second, way => ∃ start next, Spells first start ∧ Spells second next ∧
      way = ⟨start.taken ++ next.taken, next.groups ++ start.groups⟩
  | .alt first second, way => Spells first way ∨ Spells second way
  | .group n inner, way => ∃ way', Spells inner way' ∧ way = ⟨way'.taken, (n, way'.taken) :: way'.groups⟩
  | .lineStart, way => way = ⟨[], []⟩
  | .empty, way => way = ⟨[], []⟩

@[simp] theorem spells_plus {accepts : Char → Bool} {way : Way} :
    Spells (.plus accepts) way ↔ ∃ run, run ≠ [] ∧ (∀ c ∈ run, accepts c = true) ∧ way = ⟨run, []⟩ := by
  constructor
  · rintro ⟨_, _, ⟨c, first, rfl⟩, ⟨run, all, rfl⟩, rfl⟩
    exact ⟨c :: run, List.cons_ne_nil _ _, List.forall_mem_cons.mpr ⟨first, all⟩, rfl⟩
  · rintro ⟨run, nonempty, all, rfl⟩
    obtain ⟨c, rest, rfl⟩ := List.exists_cons_of_ne_nil nonempty
    obtain ⟨first, others⟩ := List.forall_mem_cons.mp all
    exact ⟨_, _, ⟨c, first, rfl⟩, ⟨rest, others, rfl⟩, rfl⟩

@[simp] theorem spells_literal {text : List Char} {way : Way} : Spells (.literal text) way ↔ way = ⟨text, []⟩ := by
  induction text generalizing way with
  | nil => rfl
  | cons c rest ih =>
    constructor
    · rintro ⟨_, next, ⟨d, same, rfl⟩, others, rfl⟩
      obtain rfl : d = c := by simpa using same
      rw [ih.mp others]
      rfl
    · rintro rfl
      exact ⟨⟨[c], []⟩, ⟨rest, []⟩, ⟨c, by simp, rfl⟩, ih.mpr rfl, rfl⟩

/-- A pattern matches what it describes, where the text begins with it. -/
theorem mem_ways {pattern : Pattern} (free : pattern.anchorFree = true) {prev : Option Char} {text : List Char} {way : Way} :
    way ∈ ways pattern prev text ↔ Spells pattern way ∧ way.taken <+: text := by
  induction pattern generalizing prev text way with
  | char accepts =>
    cases text with
    | nil =>
      constructor
      · intro found
        cases found
      · rintro ⟨⟨c, -, rfl⟩, start⟩
        simp at start
    | cons d rest =>
      by_cases inside : accepts d = true
      · simp only [ways, inside, if_true, List.mem_singleton]
        constructor
        · rintro rfl
          exact ⟨⟨d, inside, rfl⟩, ⟨rest, rfl⟩⟩
        · rintro ⟨⟨c, -, rfl⟩, start⟩
          obtain rfl : c = d := by simpa using start
          rfl
      · simp only [ways, inside]
        constructor
        · intro found
          cases found
        · rintro ⟨⟨c, accepted, rfl⟩, start⟩
          obtain rfl : c = d := by simpa using start
          exact absurd accepted inside
  | many accepts =>
    simp only [ways, List.mem_map, List.mem_reverse, List.mem_inits]
    constructor
    · rintro ⟨run, start, rfl⟩
      exact ⟨⟨run, fun c member => List.mem_takeWhile_imp (start.subset member), rfl⟩,
        start.trans (List.takeWhile_prefix _)⟩
    · rintro ⟨⟨run, all, rfl⟩, rest, rfl⟩
      refine ⟨run, ?_, rfl⟩
      rw [List.takeWhile_append_of_pos all]
      exact List.prefix_append _ _
  | seq first second first_ih second_ih =>
    obtain ⟨free, free'⟩ := (Bool.and_eq_true _ _).mp free
    simp only [ways, List.mem_flatMap, List.mem_map, first_ih free, second_ih free']
    constructor
    · rintro ⟨start, ⟨begun, more, rfl⟩, next, ⟨continued, part⟩, rfl⟩
      rw [List.drop_left] at part
      exact ⟨⟨start, next, begun, continued, rfl⟩, (List.prefix_append_right_inj _).mpr part⟩
    · rintro ⟨⟨start, next, begun, continued, rfl⟩, more, rfl⟩
      refine ⟨start, ⟨begun, by simp⟩, next, ⟨continued, ?_⟩, rfl⟩
      simp
  | alt first second first_ih second_ih =>
    obtain ⟨free, free'⟩ := (Bool.and_eq_true _ _).mp free
    simp only [ways, List.mem_append, first_ih free, second_ih free', Spells, or_and_right]
  | group n inner ih =>
    simp only [ways, List.mem_map, ih free]
    constructor
    · rintro ⟨way', ⟨inside, start⟩, rfl⟩
      exact ⟨⟨way', inside, rfl⟩, start⟩
    · rintro ⟨⟨way', inside, rfl⟩, start⟩
      exact ⟨way', ⟨inside, start⟩, rfl⟩
  | lineStart => cases free
  | empty =>
    simp only [ways, List.mem_singleton, Spells]
    exact ⟨fun same => ⟨same, same ▸ List.nil_prefix⟩, And.left⟩

theorem ways_prev {pattern : Pattern} (free : pattern.anchorFree = true) (prev prev' : Option Char) (text : List Char) :
    ways pattern prev text = ways pattern prev' text := by
  induction pattern generalizing prev prev' text with
  | char | many | empty => rfl
  | seq first second first_ih second_ih =>
    obtain ⟨free, free'⟩ := (Bool.and_eq_true _ _).mp free
    rw [ways, ways, first_ih free prev prev']
    refine List.flatMap_congr (fun way _ => ?_)
    rw [second_ih free' _ (way.taken.getLast?.or prev')]
  | alt first second first_ih second_ih =>
    obtain ⟨free, free'⟩ := (Bool.and_eq_true _ _).mp free
    rw [ways, ways, first_ih free prev prev', second_ih free' prev prev']
  | group n inner ih => rw [ways, ways, ih free prev prev']
  | lineStart => cases free

/-- A step of a scan that is behind every match found so far. -/
theorem scan_cons (pattern : Pattern) (prev : Option Char) (c : Char) (rest : List Char) :
    scan pattern prev 0 (c :: rest) = match matchAt pattern prev (c :: rest) with
      | some way =>
        if way.taken = [] then .text c :: scan pattern (some c) 0 rest
        else .found way :: scan pattern (some c) (way.taken.length - 1) rest
      | none => .text c :: scan pattern (some c) 0 rest :=
  rfl

/-- A step inside of a match. -/
theorem scan_inside (pattern : Pattern) (prev : Option Char) (skip : Nat) (c : Char) (rest : List Char) :
    scan pattern prev (skip + 1) (c :: rest) = scan pattern (some c) skip rest :=
  rfl

section
variable {pattern : Pattern} (free : pattern.anchorFree = true) {replacement : Way → List Char}
include free

theorem matchAt_prev (prev prev' : Option Char) (text : List Char) :
    matchAt pattern prev text = matchAt pattern prev' text := by
  rw [matchAt, matchAt, ways_prev free prev prev']

theorem scan_prev (prev prev' : Option Char) (text : List Char) : scan pattern prev 0 text = scan pattern prev' 0 text := by
  cases text with
  | nil => rfl
  | cons c rest => rw [scan_cons, scan_cons, matchAt_prev free prev prev']

/-- Behind a match a scan goes on as at the beginning of a text. -/
theorem scan_skip (prev : Option Char) (front rest : List Char) :
    scan pattern prev front.length (front ++ rest) = scan pattern none 0 rest := by
  induction front generalizing prev with
  | nil => exact scan_prev free prev none rest
  | cons c front ih =>
    rw [List.length_cons, List.cons_append, scan_inside]
    exact ih (some c)

/-- Where a text begins with a match, the match is replaced. -/
theorem sub_found {way : Way} {text rest : List Char} (found : matchAt pattern none text = some way)
    (nonempty : way.taken ≠ []) (split : text = way.taken ++ rest) :
    sub pattern replacement text = replacement way ++ sub pattern replacement rest := by
  cases taken : way.taken with
  | nil => exact absurd taken nonempty
  | cons c more =>
    rw [taken] at split
    subst split
    have behind := scan_skip free (some c) more rest
    rw [sub, List.cons_append, scan_cons, ← List.cons_append, found]
    simp [taken, behind, sub]

/-- Where a text begins with no match, its first character stays. -/
theorem sub_none {c : Char} {rest : List Char} (missed : matchAt pattern none (c :: rest) = none) :
    sub pattern replacement (c :: rest) = c :: sub pattern replacement rest := by
  rw [sub, scan_cons, missed]
  simp [sub, scan_prev free (some c) none]

end

/-! ### What a scan finds -/

section
variable {pattern : Pattern} (free : pattern.anchorFree = true)
include free

theorem finditer_found {way : Way} {text rest : List Char} (found : matchAt pattern none text = some way)
    (nonempty : way.taken ≠ []) (split : text = way.taken ++ rest) : finditer pattern text = way :: finditer pattern rest := by
  cases taken : way.taken with
  | nil => exact absurd taken nonempty
  | cons c more =>
    rw [taken] at split
    subst split
    have behind := scan_skip free (some c) more rest
    rw [finditer, List.cons_append, scan_cons, ← List.cons_append, found]
    simp [taken, behind, finditer]

theorem finditer_none {c : Char} {rest : List Char} (missed : matchAt pattern none (c :: rest) = none) :
    finditer pattern (c :: rest) = finditer pattern rest := by
  rw [finditer, scan_cons, missed]
  simp [finditer, scan_prev free (some c) none]

end

section
variable {pattern : Pattern}

theorem ways_of_scan {way : Way} : ∀ {text : List Char} {prev : Option Char} {skip : Nat},
    .found way ∈ scan pattern prev skip text → ∃ prev rest, way ∈ ways pattern prev rest := by
  intro text
  induction text with
  | nil =>
    intro prev skip found
    cases skip <;> cases found
  | cons c rest ih =>
    intro prev skip found
    cases skip with
    | succ skip => exact ih found
    | zero =>
      rw [scan_cons] at found
      split at found
      · rename_i here matched
        split at found
        · rcases List.mem_cons.mp found with same | later
          · cases same
          · exact ih later
        · rcases List.mem_cons.mp found with same | later
          · obtain rfl := Piece.found.inj same
            exact ⟨prev, c :: rest, List.mem_of_mem_head? matched⟩
          · exact ih later
      · rcases List.mem_cons.mp found with same | later
        · cases same
        · exact ih later

/-- What a search finds is what the pattern describes. -/
theorem spells_of_search (free : pattern.anchorFree = true) {text : List Char} {way : Way}
    (found : search pattern text = some way) : Spells pattern way := by
  obtain ⟨piece, member, isFound⟩ := List.mem_filterMap.mp (List.mem_of_mem_head? found)
  cases piece with
  | text c => cases isFound
  | found other =>
    obtain rfl := Option.some.inj isFound
    obtain ⟨prev, rest, inside⟩ := ways_of_scan member
    exact ((mem_ways free).mp inside).1

end

theorem literal_free (text : List Char) : (Pattern.literal text).anchorFree = true := by
  induction text with
  | nil => rfl
  | cons c rest ih => exact ih

end ScanApi.Regex
