import ScanApi.AlfaFrontmatter

/-!
The scan of all articles (`_scan_all_articles` of `alfabank_parser.py`). Leaves are
known by their places, since two of them may have one path. A leaf that fails is
scanned once more; what the second pass finds is put at the places of the first, and
a leaf that fails twice fails the scan.
-/
namespace ScanApi.AlfaScan
open ScanApi.Alfa ScanApi.AlfaFrontmatter ScanApi.Python ScanApi.Yaml

/-- The endpoints of a leaf, unless it failed. -/
abbrev Outcome := Option (List RawEndpoint)

/-- `_scan_article`, given the page if it was fetched: a frontmatter that cannot be parsed is a failure too. -/
def scanArticle (tools : Tools) : Option Node → Except PyError Outcome
  | none => .ok none
  | some pp => match endpointsFromPageProps tools pp with
    | .ok endpoints => .ok (some endpoints)
    | .error (.parserError _) => .ok none
    | .error e => .error e

/-- The leaves that were scanned, by their places, and the number of passes. -/
structure Scans where
  scanned : List Nat := []
  passes : Nat := 0

section
variable (scan : (pass leaf : Nat) → Except PyError Outcome)

/-- `_scan_articles`: the outcomes in the order of the leaves, whichever is done first. -/
def scanArticles (leaves : List Nat) : Prog Scans PyError (List Outcome) := do
  let scans ← get
  set (Scans.mk (scans.scanned ++ leaves) (scans.passes + 1))
  py (leaves.mapM (scan scans.passes))

def failedIndices (results : List Outcome) : List Nat :=
  (List.range results.length).filter (fun i => (results.getD i none).isNone)

/-- The outcomes with those of the second pass in their places. -/
def merge (results : List Outcome) (retried : List (Nat × Outcome)) : List Outcome :=
  results.mapIdx (fun i eps => (retried.lookup i).getD eps)

def stillFailed (leaves : List Leaf) (merged : List Outcome) : List String :=
  (leaves.zip merged).filterMap (fun e => if e.2.isNone then some e.1.path else none)

def rejected (failed total : Nat) (path : String) : String :=
  toString failed ++ " of " ++ toString total ++ " articles could not be fetched (e.g. " ++ path ++
    ") — partial snapshot rejected"

/-- Endpoints of every leaf; one retry pass, then any failure aborts the parse. -/
def scanAllArticles (leaves : List Leaf) : Prog Scans PyError (List Outcome) := do
  let results ← scanArticles scan (List.range leaves.length)
  let failed := failedIndices results
  if failed = [] then return results
  let again ← scanArticles scan failed
  let merged := merge results (failed.zip again)
  match stillFailed leaves merged with
  | [] => return merged
  | path :: others => throw (.parserError (rejected (others.length + 1) leaves.length path))

end

/-! ### Two passes -/

variable {first retry : Nat → Outcome} {leaves : List Leaf}

/-- The scans that give these outcomes in the first and in the second pass. -/
def patterns (first retry : Nat → Outcome) (pass leaf : Nat) : Except PyError Outcome :=
  .ok (if pass = 0 then first leaf else retry leaf)

theorem mapM_ok {α β : Type} (f : α → β) (l : List α) : l.mapM (fun a => (.ok (f a) : Except PyError β)) = .ok (l.map f) := by
  induction l with
  | nil => rfl
  | cons a rest ih => rw [List.mapM_cons, ih]; rfl

theorem exec_scanArticles (leaves : List Nat) (scans : Scans) :
    Prog.exec (scanArticles (patterns first retry) leaves) scans =
      (.ok (leaves.map (if scans.passes = 0 then first else retry)), ⟨scans.scanned ++ leaves, scans.passes + 1⟩) := by
  have outcomes : leaves.mapM (patterns first retry scans.passes) =
      .ok (leaves.map (if scans.passes = 0 then first else retry)) := by
    rw [← mapM_ok]
    unfold patterns
    split <;> rfl
  simp only [scanArticles, Prog.exec_bind, Prog.exec_get, Prog.exec_set, outcomes]
  rfl

theorem getD_map_range (n i : Nat) (inside : i < n) : ((List.range n).map first).getD i none = first i := by
  simp [List.getD, inside]

/-- The leaves that failed in the first pass. -/
def failedFirst (n : Nat) (first : Nat → Outcome) : List Nat := (List.range n).filter (fun i => (first i).isNone)

theorem failedIndices_map (n : Nat) : failedIndices ((List.range n).map first) = failedFirst n first := by
  unfold failedIndices failedFirst
  rw [List.length_map, List.length_range]
  refine List.filter_congr fun i member => ?_
  rw [getD_map_range n i (List.mem_range.mp member)]

theorem lookup_zip_map (failed : List Nat) (i : Nat) :
    (failed.zip (failed.map retry)).lookup i = if i ∈ failed then some (retry i) else none := by
  induction failed with
  | nil => rfl
  | cons j failed ih =>
    rw [List.map_cons, List.zip_cons_cons, List.lookup_cons, ih]
    by_cases same : i = j
    · simp [same]
    · rw [beq_false_of_ne same]
      simp [same]

/-- What the two passes find for a leaf. -/
def found (first retry : Nat → Outcome) (i : Nat) : Outcome := (first i).or (retry i)

theorem merge_eq (n : Nat) :
    merge ((List.range n).map first) ((failedFirst n first).zip ((failedFirst n first).map retry)) =
      (List.range n).map (found first retry) := by
  refine List.ext_getElem (by simp [merge]) fun i inside inside' => ?_
  have bound : i < n := by simpa using inside'
  have listed : i ∈ failedFirst n first ↔ first i = none := by simp [failedFirst, bound]
  simp only [merge, List.getElem_mapIdx, List.getElem_map, List.getElem_range, lookup_zip_map, listed, found]
  cases outcome : first i <;> simp

theorem stillFailed_nil : stillFailed leaves ((List.range leaves.length).map (found first retry)) = [] ↔
    ∀ i < leaves.length, (found first retry i).isSome := by
  unfold stillFailed
  rw [List.filterMap_eq_nil_iff]
  constructor
  · intro nothing i inside
    have paired := nothing (leaves[i], found first retry i)
      (List.mem_iff_getElem?.mpr ⟨i, List.getElem?_zip_eq_some.mpr ⟨by simp [inside], by simp [inside]⟩⟩)
    by_contra failed
    simp [Option.not_isSome_iff_eq_none.mp failed] at paired
  · rintro complete ⟨leaf, outcome⟩ member
    obtain ⟨i, at_place⟩ := List.mem_iff_getElem?.mp member
    obtain ⟨here, there⟩ := List.getElem?_zip_eq_some.mp at_place
    obtain ⟨inside, -⟩ := List.getElem?_eq_some_iff.mp here
    have same : found first retry i = outcome := by simpa [inside] using there
    have present := complete i inside
    rw [same] at present
    simpa using Option.isSome_iff_ne_none.mp present

/-- A scan of all leaves: one pass where none fails, else two, and then what both found or a raise. -/
theorem exec_scanAllArticles (leaves : List Leaf) (first retry : Nat → Outcome) :
    (Prog.exec (scanAllArticles (patterns first retry) leaves) {}).2.scanned =
        List.range leaves.length ++ failedFirst leaves.length first ∧
      (((∀ i < leaves.length, (found first retry i).isSome) ∧
          (Prog.exec (scanAllArticles (patterns first retry) leaves) {}).1 =
            .ok ((List.range leaves.length).map (found first retry))) ∨
        (¬ ∀ i < leaves.length, (found first retry i).isSome) ∧
          ∃ message, (Prog.exec (scanAllArticles (patterns first retry) leaves) {}).1 = .error (.parserError message)) := by
  simp only [scanAllArticles, Prog.exec_bind, exec_scanArticles, if_true, failedIndices_map]
  by_cases complete : failedFirst leaves.length first = []
  · have every : ∀ i < leaves.length, (first i).isSome := by
      intro i inside
      have passed := List.filter_eq_nil_iff.mp complete i (List.mem_range.mpr inside)
      simpa [Option.isSome_iff_ne_none] using passed
    have same : (List.range leaves.length).map first = (List.range leaves.length).map (found first retry) := by
      refine List.map_congr_left fun i member => ?_
      obtain ⟨eps, outcome⟩ := Option.isSome_iff_exists.mp (every i (List.mem_range.mp member))
      rw [found, outcome]
      rfl
    rw [if_pos complete, complete, List.append_nil, ← same]
    refine ⟨rfl, .inl ⟨fun i inside => ?_, rfl⟩⟩
    rw [found, Option.isSome_or, every i inside]
    rfl
  · rw [if_neg complete]
    simp only [Prog.exec_bind, exec_scanArticles, if_neg (Nat.succ_ne_zero 0), merge_eq]
    cases failing : stillFailed leaves ((List.range leaves.length).map (found first retry)) with
    | nil => exact ⟨rfl, .inl ⟨stillFailed_nil.mp failing, rfl⟩⟩
    | cons path others =>
      refine ⟨rfl, .inr ⟨fun every => ?_, _, rfl⟩⟩
      rw [stillFailed_nil.mpr every] at failing
      cases failing

theorem failed_iff : (∃ i < leaves.length, first i = none ∧ retry i = none) ↔
    ¬ ∀ i < leaves.length, (found first retry i).isSome := by
  push Not
  refine exists_congr fun i => and_congr_right fun _ => ?_
  rw [found, ne_eq, Option.not_isSome_iff_eq_none, Option.or_eq_none_iff]

/-- The scan raises exactly if some leaf failed in both passes. -/
theorem raises_iff (leaves : List Leaf) (first retry : Nat → Outcome) :
    (∃ e, (Prog.exec (scanAllArticles (patterns first retry) leaves) {}).1 = .error e) ↔
      ∃ i < leaves.length, first i = none ∧ retry i = none := by
  rw [failed_iff]
  rcases (exec_scanAllArticles leaves first retry).2 with ⟨every, returned⟩ | ⟨failed, message, raised⟩
  · rw [returned]
    exact ⟨fun ⟨_, impossible⟩ => (nomatch impossible), fun failed => absurd every failed⟩
  · rw [raised]
    exact ⟨fun _ => failed, fun _ => ⟨_, rfl⟩⟩

/-- So it is with pages, where their frontmatters raise nothing but that they cannot be parsed. -/
theorem pages_raise_iff {tools : Tools} {fetched : (pass leaf : Nat) → Option Node}
    (outcomes : ∀ pass leaf, scanArticle tools (fetched pass leaf) = .ok (if pass = 0 then first leaf else retry leaf)) :
    (∃ e, (Prog.exec (scanAllArticles (fun pass leaf => scanArticle tools (fetched pass leaf)) leaves) {}).1 = .error e) ↔
      ∃ i < leaves.length, first i = none ∧ retry i = none := by
  have pages : (fun pass leaf => scanArticle tools (fetched pass leaf)) = patterns first retry := by
    funext pass leaf
    exact outcomes pass leaf
  rw [pages]
  exact raises_iff leaves first retry

/-- The scan is complete or raises: for every leaf its endpoints of the first pass, or if that failed those of the
    retry. It raises exactly if some leaf failed in both, and only leaves that failed at first are scanned again. -/
theorem scan_complete_or_raises (leaves : List Leaf) (first retry : Nat → Outcome) :
    ((∃ results, (Prog.exec (scanAllArticles (patterns first retry) leaves) {}).1 = .ok results ∧
        results.length = leaves.length ∧ ∀ i < leaves.length, ∃ endpoints, results[i]? = some (some endpoints) ∧
          (first i = some endpoints ∨ first i = none ∧ retry i = some endpoints)) ∨
      ∃ message, (Prog.exec (scanAllArticles (patterns first retry) leaves) {}).1 = .error (.parserError message)) ∧
    ((∃ e, (Prog.exec (scanAllArticles (patterns first retry) leaves) {}).1 = .error e) ↔
      ∃ i < leaves.length, first i = none ∧ retry i = none) ∧
    (Prog.exec (scanAllArticles (patterns first retry) leaves) {}).2.scanned =
      List.range leaves.length ++ failedFirst leaves.length first := by
  obtain ⟨scanned, ended⟩ := exec_scanAllArticles leaves first retry
  refine ⟨?_, raises_iff leaves first retry, scanned⟩
  rcases ended with ⟨every, returned⟩ | ⟨failed, message, raised⟩
  · refine .inl ⟨_, returned, by simp, fun i inside => ?_⟩
    obtain ⟨endpoints, outcome⟩ := Option.isSome_iff_exists.mp (every i inside)
    refine ⟨endpoints, by simp [inside, outcome], ?_⟩
    rw [found, Option.or_eq_some_iff] at outcome
    exact outcome
  · exact .inr ⟨message, raised⟩

end ScanApi.AlfaScan
