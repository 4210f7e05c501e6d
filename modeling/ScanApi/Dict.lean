import Mathlib.Data.Finset.Sort
import Mathlib.Data.List.Forall2
import Mathlib.Data.List.Sort

/-!
Dictionaries that keep the order of insertion, and sets read in ascending
order. A dictionary carries the proof that its keys are distinct. `firstBy` is
the loop `d.setdefault(key(a), a)` and `groupBy` the loop
`d.setdefault(key(a), []).append(val(a))`; their lookups are the first match
and all matches in the list.
-/
namespace ScanApi
universe u v w

/-- A dictionary in insertion order with pairwise distinct keys. -/
structure Dict (κ : Type u) (ν : Type v) where
  entries : List (κ × ν)
  distinct : (entries.map Prod.fst).Nodup
deriving DecidableEq

namespace Dict
variable {κ : Type u} {ν : Type v} {α : Type w} [DecidableEq κ]

omit [DecidableEq κ] in
@[ext] theorem ext {d e : Dict κ ν} (same : d.entries = e.entries) : d = e := by
  cases d; cases e; cases same; rfl

def empty : Dict κ ν := ⟨[], List.nodup_nil⟩
/-- The value of a key, if it has one. -/
def get? (d : Dict κ ν) (k : κ) : Option ν := (d.entries.find? (fun e => e.1 = k)).map Prod.snd
def keys (d : Dict κ ν) : Finset κ := (d.entries.map Prod.fst).toFinset
def values (d : Dict κ ν) : List ν := d.entries.map Prod.snd

/-- Appends an entry whose key is new. -/
def snoc (d : Dict κ ν) (k : κ) (v : ν) (new : k ∉ d.keys) : Dict κ ν where
  entries := d.entries ++ [(k, v)]
  distinct := by
    have fresh : k ∉ d.entries.map Prod.fst := by simpa [keys] using new
    simp only [List.map_append, List.map_cons, List.map_nil]
    exact List.nodup_append.mpr ⟨d.distinct, List.nodup_singleton k, by
      intro a member b single same
      rw [List.mem_singleton] at single
      exact fresh (single ▸ same ▸ member)⟩
/-- Changes the values of the dictionary, which keeps its keys. -/
def mapValues {μ : Type v} (d : Dict κ ν) (f : κ → ν → μ) : Dict κ μ where
  entries := d.entries.map (fun e => (e.1, f e.1 e.2))
  distinct := by simpa [List.map_map, Function.comp_def] using d.distinct

/-- Keeps the entries that pass a test. -/
def filter (d : Dict κ ν) (keep : κ → ν → Bool) : Dict κ ν where
  entries := d.entries.filter (fun e => keep e.1 e.2)
  distinct := d.distinct.sublist ((List.filter_sublist).map Prod.fst)
/-- `d.pop(k, None)`. -/
def pop (d : Dict κ ν) (k : κ) : Dict κ ν := d.filter (fun k' _ => k' ≠ k)

/-- `d.setdefault(k, v)`. -/
def setdefault (d : Dict κ ν) (k : κ) (v : ν) : Dict κ ν :=
  if present : k ∈ d.keys then d else d.snoc k v present
/-- `d[k] = v`: a known key keeps its place. -/
def set (d : Dict κ ν) (k : κ) (v : ν) : Dict κ ν :=
  if present : k ∈ d.keys then d.mapValues (fun k' old => if k' = k then v else old) else d.snoc k v present
/-- `{k: v for k, v in entries}`: later entries win. -/
def ofEntries (entries : List (κ × ν)) : Dict κ ν := entries.foldl (fun d e => d.set e.1 e.2) empty
/-- The first element of the list for each key. -/
def firstBy (key : α → κ) (l : List α) : Dict κ α := l.foldl (fun d a => d.setdefault (key a) a) empty
/-- The values of all elements of the list for each key, in list order. -/
def groupBy (key : α → κ) (val : α → ν) (l : List α) : Dict κ (List ν) :=
  l.foldl (fun d a => d.set (key a) ((d.get? (key a)).getD [] ++ [val a])) empty

theorem mem_keys {d : Dict κ ν} {k : κ} : k ∈ d.keys ↔ ∃ v, d.get? k = some v := by
  simp only [keys, get?, List.mem_toFinset, List.mem_map, Option.map_eq_some_iff, List.find?_eq_some_iff_append]
  constructor
  · rintro ⟨e, member, rfl⟩
    have found : (d.entries.find? (fun e' => e'.1 = e.1)).isSome := by
      rw [List.find?_isSome]; exact ⟨e, member, by simp⟩
    obtain ⟨e', here⟩ := Option.isSome_iff_exists.mp found
    exact ⟨e'.2, e', List.find?_eq_some_iff_append.mp here, rfl⟩
  · rintro ⟨v, e, ⟨same, before, after, split, _⟩, -⟩
    exact ⟨e, by simp [split], by simpa using same⟩

theorem get?_eq_none {d : Dict κ ν} {k : κ} : d.get? k = none ↔ k ∉ d.keys := by
  rw [mem_keys]
  cases d.get? k <;> simp

theorem get?_eq_some {d : Dict κ ν} {k : κ} {v : ν} : d.get? k = some v ↔ (k, v) ∈ d.entries := by
  rcases d with ⟨entries, distinct⟩
  induction entries with
  | nil => simp [get?]
  | cons e rest ih =>
    have split : e.1 ∉ rest.map Prod.fst ∧ (rest.map Prod.fst).Nodup := List.nodup_cons.mp distinct
    obtain ⟨absent, restDistinct⟩ := split
    have tail := ih restDistinct
    simp only [get?] at tail ⊢
    by_cases same : e.1 = k
    · have later : (k, v) ∉ rest := fun member => absent (same ▸ List.mem_map_of_mem (f := Prod.fst) member)
      simp only [List.find?_cons_of_pos, same, decide_true, Option.map_some, Option.some.injEq, List.mem_cons, later,
        or_false]
      constructor
      · rintro rfl; exact Prod.ext same.symm rfl
      · rintro rfl; rfl
    · have other : (k, v) ≠ e := fun equal => same (equal ▸ rfl)
      simp only [same, decide_false, Bool.false_eq_true, not_false_eq_true, List.find?_cons_of_neg, List.mem_cons, other,
        false_or]
      exact tail

omit [DecidableEq κ] in
theorem find?_snoc (p : α → Bool) (l : List α) (a : α) :
    (l ++ [a]).find? p = (l.find? p).or (if p a then some a else none) := by
  rw [List.find?_append]
  by_cases holds : p a <;> simp [holds]

@[simp] theorem get?_empty (k : κ) : (empty : Dict κ ν).get? k = none := rfl
@[simp] theorem keys_empty : (empty : Dict κ ν).keys = ∅ := rfl

theorem get?_snoc (d : Dict κ ν) (k : κ) (v : ν) (new : k ∉ d.keys) (k' : κ) :
    (d.snoc k v new).get? k' = if k' = k then some v else d.get? k' := by
  have absent : d.entries.find? (fun e => e.1 = k) = none := by
    simpa [get?, Option.map_eq_none_iff] using get?_eq_none.mpr new
  simp only [get?, snoc, find?_snoc]
  by_cases same : k' = k
  · subst same; simp [absent]
  · have other : k ≠ k' := fun equal => same equal.symm
    simp [same, other]

theorem get?_mapValues {μ : Type v} (d : Dict κ ν) (f : κ → ν → μ) (k : κ) :
    (d.mapValues f).get? k = (d.get? k).map (f k) := by
  simp only [get?, mapValues, List.find?_map, Option.map_map, Function.comp_def]
  cases found : d.entries.find? (fun e => e.1 = k) with
  | none => rfl
  | some e =>
    have same : e.1 = k := by simpa using List.find?_some found
    simp [same]

theorem get?_filter (d : Dict κ ν) (keep : κ → ν → Bool) (k : κ) : (d.filter keep).get? k = (d.get? k).filter (keep k) := by
  apply Option.ext
  intro v
  rw [Option.filter_eq_some_iff, get?_eq_some, get?_eq_some]
  simp [filter]

theorem get?_pop (d : Dict κ ν) (k k' : κ) : (d.pop k).get? k' = if k' = k then none else d.get? k' := by
  rw [pop, get?_filter]
  by_cases same : k' = k <;> cases d.get? k' <;> simp [same]

theorem get?_setdefault (d : Dict κ ν) (k : κ) (v : ν) (k' : κ) :
    (d.setdefault k v).get? k' = if k' = k then some ((d.get? k).getD v) else d.get? k' := by
  rw [setdefault]
  split
  · rename_i present
    obtain ⟨old, found⟩ := mem_keys.mp present
    by_cases same : k' = k
    · subst same; simp [found]
    · simp [same]
  · rename_i new
    rw [get?_snoc, get?_eq_none.mpr new]; rfl

theorem get?_set (d : Dict κ ν) (k : κ) (v : ν) (k' : κ) :
    (d.set k v).get? k' = if k' = k then some v else d.get? k' := by
  rw [set]
  split
  · rename_i present
    obtain ⟨old, found⟩ := mem_keys.mp present
    rw [get?_mapValues]
    by_cases same : k' = k
    · subst same; simp [found]
    · simp [same]
  · rename_i new
    rw [get?_snoc]

/-- The dictionary of first elements finds what the list finds first. -/
theorem get?_firstBy (key : α → κ) (l : List α) (k : κ) :
    (firstBy key l).get? k = l.find? (fun a => key a = k) := by
  suffices general : ∀ d : Dict κ α, (l.foldl (fun d a => d.setdefault (key a) a) d).get? k =
      (d.get? k).or (l.find? (fun a => key a = k)) by
    simpa [firstBy] using general empty
  induction l with
  | nil => intro d; simp
  | cons a rest ih =>
    intro d
    rw [List.foldl_cons, ih, get?_setdefault]
    by_cases same : key a = k
    · subst same; cases d.get? (key a) <;> simp
    · have other : k ≠ key a := fun equal => same equal.symm
      simp [same, other]

/-- The first elements stand in the order of the list. -/
theorem values_firstBy_sublist (key : α → κ) (l : List α) : (firstBy key l).values.Sublist l := by
  suffices general : ∀ d : Dict κ α,
      ((l.foldl (fun d a => d.setdefault (key a) a) d).values).Sublist (d.values ++ l) by
    simpa [firstBy, values, empty] using general empty
  induction l with
  | nil => intro d; simp
  | cons a rest ih =>
    intro d
    rw [List.foldl_cons]
    refine (ih (d.setdefault (key a) a)).trans ?_
    unfold setdefault
    split
    · exact (List.sublist_cons_self a rest).append_left _
    · simp [values, snoc]

theorem mem_keys_firstBy {key : α → κ} {l : List α} {k : κ} : k ∈ (firstBy key l).keys ↔ ∃ a ∈ l, key a = k := by
  rw [mem_keys]
  simp only [get?_firstBy, ← Option.isSome_iff_exists, List.find?_isSome, decide_eq_true_eq]

/-- A group holds the values of exactly the elements with its key, in list order. -/
theorem get?_groupBy (key : α → κ) (val : α → ν) (l : List α) (k : κ) :
    ((groupBy key val l).get? k).getD [] = (l.filter (fun a => key a = k)).map val ∧
      (k ∈ (groupBy key val l).keys ↔ ∃ a ∈ l, key a = k) := by
  suffices general : ∀ d : Dict κ (List ν),
      ((l.foldl (fun d a => d.set (key a) ((d.get? (key a)).getD [] ++ [val a])) d).get? k).getD [] =
        (d.get? k).getD [] ++ (l.filter (fun a => key a = k)).map val ∧
      (k ∈ (l.foldl (fun d a => d.set (key a) ((d.get? (key a)).getD [] ++ [val a])) d).keys ↔
        k ∈ d.keys ∨ ∃ a ∈ l, key a = k) by
    simpa [groupBy] using general empty
  induction l with
  | nil => intro d; simp
  | cons a rest ih =>
    intro d
    obtain ⟨values, members⟩ := ih (d.set (key a) ((d.get? (key a)).getD [] ++ [val a]))
    rw [List.foldl_cons, values, members]
    by_cases same : key a = k
    · subst same; simp [get?_set, mem_keys]
    · have other : k ≠ key a := fun equal => same equal.symm
      simp [get?_set, mem_keys, same, other]

/-- Entries with distinct keys are kept as they are. -/
theorem entries_ofEntries {entries : List (κ × ν)} (distinct : (entries.map Prod.fst).Nodup) :
    (ofEntries entries).entries = entries := by
  suffices appended : ∀ d : Dict κ ν, (∀ e ∈ entries, e.1 ∉ d.keys) →
      (entries.foldl (fun d e => d.set e.1 e.2) d).entries = d.entries ++ entries by
    have all := appended empty (by simp)
    rwa [show (empty : Dict κ ν).entries = [] from rfl, List.nil_append] at all
  induction entries with
  | nil => intro d _; simp
  | cons e rest ih =>
    intro d fresh
    obtain ⟨absent, others⟩ := List.nodup_cons.mp distinct
    have new : e.1 ∉ d.keys := fresh e List.mem_cons_self
    rw [List.foldl_cons, set, dif_neg new, ih others]
    · simp [snoc]
    · intro e' member
      have other : e'.1 ≠ e.1 := fun equal => absent (equal ▸ List.mem_map_of_mem member)
      have old := fresh e' (List.mem_cons_of_mem _ member)
      rw [← get?_eq_none] at old ⊢
      simpa [get?_snoc, other] using old

section
variable {μ : Type v} {R : ν → μ → Prop} {d : Dict κ ν} {e : Dict κ μ}

/-- The same keys in the same order, with related values. -/
abbrev AlikeEntries (R : ν → μ → Prop) : List (κ × ν) → List (κ × μ) → Prop :=
  List.Forall₂ (fun a b => a.1 = b.1 ∧ R a.2 b.2)

omit [DecidableEq κ] in
theorem alike_keys {l : List (κ × ν)} {l' : List (κ × μ)} (alike : AlikeEntries R l l') :
    l.map Prod.fst = l'.map Prod.fst := by
  induction alike with
  | nil => rfl
  | cons pair _ ih => rw [List.map_cons, List.map_cons, pair.1, ih]

theorem alike_set (alike : AlikeEntries R d.entries e.entries) (k : κ) {v : ν} {w : μ} (pair : R v w) :
    AlikeEntries R (d.set k v).entries (e.set k w).entries := by
  have same : d.keys = e.keys := congrArg List.toFinset (alike_keys alike)
  by_cases present : k ∈ d.keys
  · rw [set, set, dif_pos present, dif_pos (same ▸ present)]
    simp only [mapValues, AlikeEntries, List.forall₂_map_left_iff, List.forall₂_map_right_iff]
    refine alike.imp (fun a b known => ⟨known.1, ?_⟩)
    rw [← known.1]
    split
    · exact pair
    · exact known.2
  · rw [set, set, dif_neg present, dif_neg (same ▸ present)]
    exact List.rel_append alike (.cons ⟨rfl, pair⟩ .nil)

omit [DecidableEq κ] in
theorem alike_filter (keep : κ → Bool) {l : List (κ × ν)} {l' : List (κ × μ)} (alike : AlikeEntries R l l') :
    AlikeEntries R (l.filter (fun e => keep e.1)) (l'.filter (fun e => keep e.1)) := by
  induction alike with
  | nil => exact .nil
  | @cons a b _ _ pair _ ih =>
    rw [List.filter_cons, List.filter_cons, ← pair.1]
    split
    · exact .cons pair ih
    · exact ih

/-- Dictionaries built from alike entries are alike. -/
theorem alike_ofEntries {l : List (κ × ν)} {l' : List (κ × μ)} (alike : AlikeEntries R l l') :
    AlikeEntries R (ofEntries l).entries (ofEntries l').entries := by
  suffices general : ∀ (d : Dict κ ν) (e : Dict κ μ), AlikeEntries R d.entries e.entries →
      AlikeEntries R (l.foldl (fun d a => d.set a.1 a.2) d).entries (l'.foldl (fun d a => d.set a.1 a.2) e).entries from
    general empty empty .nil
  induction alike with
  | nil => intro d e known; exact known
  | @cons a b _ _ pair _ ih =>
    intro d e known
    obtain ⟨key, values⟩ := pair
    rw [List.foldl_cons, List.foldl_cons, ← key]
    exact ih _ _ (alike_set known a.1 values)

end

theorem filter_set (keep : κ → Bool) (d : Dict κ ν) (k : κ) (v : ν) : (d.set k v).filter (fun k _ => keep k) =
    if keep k then (d.filter (fun k _ => keep k)).set k v else d.filter (fun k _ => keep k) := by
  have known : ∀ k, k ∈ (d.filter (fun k _ => keep k)).keys ↔ k ∈ d.keys ∧ keep k := by
    intro k
    simp [keys, filter]
  apply ext
  by_cases present : k ∈ d.keys
  · cases kept : keep k with
    | true =>
      rw [if_pos rfl, set, set, dif_pos present, dif_pos ((known k).mpr ⟨present, kept⟩)]
      simp only [filter, mapValues, List.filter_map, Function.comp_def]
    | false =>
      rw [if_neg (by simp), set, dif_pos present]
      simp only [filter, mapValues, List.filter_map, Function.comp_def]
      refine (List.map_congr_left (fun e member => ?_)).trans (List.map_id _)
      have other : e.1 ≠ k := by
        rintro rfl
        exact absurd kept (by simp [(List.mem_filter.mp member).2])
      rw [if_neg other, id]
  · cases kept : keep k with
    | true =>
      rw [if_pos rfl, set, set, dif_neg present, dif_neg (fun inside => present ((known k).mp inside).1)]
      simp [filter, snoc, kept]
    | false =>
      rw [if_neg (by simp), set, dif_neg present]
      simp [filter, snoc, kept]

theorem filter_ofEntries (keep : κ → Bool) (l : List (κ × ν)) :
    (ofEntries l).filter (fun k _ => keep k) = ofEntries (l.filter (fun e => keep e.1)) := by
  suffices general : ∀ d : Dict κ ν, (l.foldl (fun d e => d.set e.1 e.2) d).filter (fun k _ => keep k) =
      (l.filter (fun e => keep e.1)).foldl (fun d e => d.set e.1 e.2) (d.filter (fun k _ => keep k)) from general empty
  induction l with
  | nil => intro d; rfl
  | cons e rest ih =>
    intro d
    rw [List.foldl_cons, ih, filter_set, List.filter_cons]
    split <;> rfl

/-- A dictionary built from distinct keys has exactly the given entries. -/
theorem get?_ofEntries {entries : List (κ × ν)} (distinct : (entries.map Prod.fst).Nodup) (k : κ) (v : ν) :
    (ofEntries entries).get? k = some v ↔ (k, v) ∈ entries := by
  rw [get?_eq_some, entries_ofEntries distinct]

/-- A dictionary comprehension over keys has the value of each of them, however often it is listed. -/
theorem get?_ofEntries_map {f : κ → ν} {ks : List κ} {k : κ} (listed : k ∈ ks) :
    (ofEntries (ks.map (fun k => (k, f k)))).get? k = some (f k) := by
  suffices general : ∀ d : Dict κ ν, k ∈ ks ∨ d.get? k = some (f k) →
      ((ks.map (fun k => (k, f k))).foldl (fun d e => d.set e.1 e.2) d).get? k = some (f k) from
    general empty (.inl listed)
  clear listed
  induction ks with
  | nil => intro d known; simpa using known
  | cons a rest ih =>
    intro d known
    refine ih (d.set a (f a)) ?_
    rw [get?_set]
    by_cases same : k = a
    · subst same; exact .inr (if_pos rfl)
    · rw [if_neg same]
      exact known.imp (fun member => (List.mem_cons.mp member).resolve_left same) id

/-- Setting a key to the value it has changes nothing. -/
theorem set_of_get? {d : Dict κ ν} {k : κ} {v : ν} (known : d.get? k = some v) : d.set k v = d := by
  have kept : ∀ e ∈ d.entries, (e.1, if e.1 = k then v else e.2) = e := by
    intro e member
    by_cases same : e.1 = k
    · have value : d.get? k = some e.2 := get?_eq_some.mpr (same ▸ member)
      obtain rfl := Option.some.inj (known.symm.trans value)
      rw [if_pos same]
    · rw [if_neg same]
  rw [set, dif_pos (mem_keys.mpr ⟨v, known⟩)]
  apply ext
  simp only [mapValues]
  rw [List.map_congr_left kept, List.map_id']

/-- Setting the key that was added last changes its value. -/
theorem set_snoc (d : Dict κ ν) (k : κ) (v w : ν) (new : k ∉ d.keys) : (d.snoc k v new).set k w = d.snoc k w new := by
  have present : k ∈ (d.snoc k v new).keys := mem_keys.mpr ⟨v, by rw [get?_snoc, if_pos rfl]⟩
  have others : ∀ e ∈ d.entries, (e.1, if e.1 = k then w else e.2) = e := by
    intro e member
    have other : e.1 ≠ k := fun same => new (mem_keys.mpr ⟨e.2, same ▸ get?_eq_some.mpr member⟩)
    rw [if_neg other]
  rw [set, dif_pos present]
  apply ext
  simp only [mapValues, snoc, List.map_append, List.map_cons, List.map_nil, if_true]
  rw [List.map_congr_left others, List.map_id']

/-- The loop of `groupBy` over rows that all have the key added last. -/
theorem groupBy_block {key : α → κ} {val : α → ν} {k : κ} {rows : List α} (keyed : ∀ a ∈ rows, key a = k)
    (d : Dict κ (List ν)) (vs : List ν) (new : k ∉ d.keys) :
    rows.foldl (fun d a => d.set (key a) ((d.get? (key a)).getD [] ++ [val a])) (d.snoc k vs new) =
      d.snoc k (vs ++ rows.map val) new := by
  induction rows generalizing vs with
  | nil => simp
  | cons a rest ih =>
    have here : key a = k := keyed a List.mem_cons_self
    have found : (d.snoc k vs new).get? k = some vs := by rw [get?_snoc, if_pos rfl]
    rw [List.foldl_cons, here, found, Option.getD_some, set_snoc,
      ih (fun b member => keyed b (List.mem_cons_of_mem _ member))]
    simp

/-- Blocks of rows, each under its own key, are the groups. -/
theorem groupBy_flatMap {β : Type w} {key : α → κ} {val : α → ν} {name : β → κ} {rows : β → List α} {blocks : List β}
    (keyed : ∀ b ∈ blocks, ∀ a ∈ rows b, key a = name b) (filled : ∀ b ∈ blocks, rows b ≠ [])
    (distinct : (blocks.map name).Nodup) : (groupBy key val (blocks.flatMap rows)).entries =
      blocks.map (fun b => (name b, (rows b).map val)) := by
  suffices general : ∀ d : Dict κ (List ν), (∀ b ∈ blocks, name b ∉ d.keys) →
      ((blocks.flatMap rows).foldl (fun d a => d.set (key a) ((d.get? (key a)).getD [] ++ [val a])) d).entries =
        d.entries ++ blocks.map (fun b => (name b, (rows b).map val)) by
    simpa [groupBy, empty] using general empty (by simp)
  induction blocks with
  | nil => intro d _; simp
  | cons b rest ih =>
    intro d fresh
    have split : name b ∉ rest.map name ∧ (rest.map name).Nodup := List.nodup_cons.mp distinct
    have new : name b ∉ d.keys := fresh b List.mem_cons_self
    have tail := ih (fun c member => keyed c (List.mem_cons_of_mem _ member))
      (fun c member => filled c (List.mem_cons_of_mem _ member)) split.2
    have block : (rows b).foldl (fun d a => d.set (key a) ((d.get? (key a)).getD [] ++ [val a])) d =
        d.snoc (name b) ((rows b).map val) new := by
      have keyedHere := keyed b List.mem_cons_self
      cases rowsAre : rows b with
      | nil => exact absurd rowsAre (filled b List.mem_cons_self)
      | cons a others =>
        rw [rowsAre] at keyedHere
        have first : d.set (key a) ((d.get? (key a)).getD [] ++ [val a]) = d.snoc (name b) [val a] new := by
          rw [keyedHere a List.mem_cons_self, get?_eq_none.mpr new, set, dif_neg new]; rfl
        rw [List.foldl_cons, first, groupBy_block (fun c member => keyedHere c (List.mem_cons_of_mem _ member))]
        rfl
    rw [List.flatMap_cons, List.foldl_append, block, tail]
    · simp [snoc]
    · intro c member inside
      obtain ⟨v, found⟩ := mem_keys.mp inside
      rw [get?_snoc] at found
      by_cases same : name c = name b
      · exact split.1 (same ▸ List.mem_map_of_mem member)
      · rw [if_neg same] at found
        exact fresh c (List.mem_cons_of_mem _ member) (mem_keys.mpr ⟨v, found⟩)

@[simp] theorem keys_mapValues {μ : Type v} (d : Dict κ ν) (f : κ → ν → μ) : (d.mapValues f).keys = d.keys := by
  simp [keys, mapValues, List.map_map, Function.comp_def]

/-- Under distinct keys only the element itself has its key. -/
theorem filter_key {key : α → κ} {l : List α} (distinct : (l.map key).Nodup) {a : α} (member : a ∈ l) :
    l.filter (fun b => key b = key a) = [a] := by
  induction l with
  | nil => cases member
  | cons b rest ih =>
    have split : key b ∉ rest.map key ∧ (rest.map key).Nodup := List.nodup_cons.mp distinct
    rcases List.mem_cons.mp member with rfl | later
    · have none : rest.filter (fun b => key b = key a) = [] := by
        rw [List.filter_eq_nil_iff]
        intro c inside same
        exact split.1 (of_decide_eq_true same ▸ List.mem_map_of_mem inside)
      simp [none]
    · have other : key b ≠ key a := fun same => split.1 (same ▸ List.mem_map_of_mem later)
      simp [other, ih split.2 later]

/-- The entries under a key. -/
theorem filter_entries (d : Dict κ ν) (k : κ) :
    d.entries.filter (fun e => e.1 = k) = ((d.get? k).map (fun v => (k, v))).toList := by
  cases found : d.get? k with
  | none =>
    simp only [Option.map_none, Option.toList_none, List.filter_eq_nil_iff, decide_eq_true_eq]
    intro e member same
    exact get?_eq_none.mp found (mem_keys.mpr ⟨e.2, get?_eq_some.mpr (same ▸ member)⟩)
  | some v => exact filter_key d.distinct (get?_eq_some.mp found)

/-- `d[k] = [*d.get(k, []), *vs]`. -/
def extend (d : Dict κ (List ν)) (k : κ) (vs : List ν) : Dict κ (List ν) := d.set k ((d.get? k).getD [] ++ vs)

theorem get?_extend (d : Dict κ (List ν)) (k : κ) (vs : List ν) (k' : κ) :
    (d.extend k vs).get? k' = if k' = k then some ((d.get? k).getD [] ++ vs) else d.get? k' :=
  get?_set d k _ k'

/-- A loop that extends a group in every round: a group is what the rounds under its key returned. -/
theorem foldlM_extend {ε : Type} {α κ ν : Type} [DecidableEq κ] {key : α → κ} {f : α → Except ε (List ν)} {l : List α} :
    ∀ {d result : Dict κ (List ν)}, l.foldlM (fun d a => do return d.extend (key a) (← f a)) d = .ok result →
      (∀ a ∈ l, ∃ vs, f a = .ok vs) ∧ ∀ k, (result.get? k).getD [] =
        (d.get? k).getD [] ++ (l.filter (fun a => key a = k)).flatMap (fun a => (f a).toOption.getD []) := by
  induction l with
  | nil =>
    intro d result returned
    cases returned
    simp
  | cons a rest ih =>
    intro d result returned
    rw [List.foldlM_cons] at returned
    cases ran : f a with
    | error e =>
      rw [ran] at returned
      cases returned
    | ok vs =>
      rw [ran] at returned
      obtain ⟨rounds, groups⟩ := ih (d := d.extend (key a) vs) returned
      refine ⟨List.forall_mem_cons.mpr ⟨⟨vs, ran⟩, rounds⟩, fun k => ?_⟩
      rw [groups, get?_extend]
      by_cases same : key a = k
      · subst same
        simp [ran, Except.toOption]
      · have other : k ≠ key a := fun equal => same equal.symm
        simp [same, other]

/-- All values of a dictionary of lists. -/
def all (d : Dict κ (List ν)) : List ν := d.values.flatten

/-- Extending a group adds its new values to all values. -/
theorem all_extend (d : Dict κ (List ν)) (k : κ) (vs : List ν) : (d.extend k vs).all.Perm (d.all ++ vs) := by
  rw [extend, set]
  split
  · rename_i present
    obtain ⟨old, found⟩ := mem_keys.mp present
    obtain ⟨before, after, split⟩ := List.append_of_mem (get?_eq_some.mp found)
    have distinct := d.distinct
    rw [split, List.map_append, List.map_cons, List.nodup_middle, List.nodup_cons, List.mem_append] at distinct
    have others : ∀ l : List (κ × List ν), k ∉ l.map Prod.fst →
        l.map (fun e => if e.1 = k then old ++ vs else e.2) = l.map Prod.snd := by
      intro l absent
      refine List.map_congr_left (fun e member => if_neg (fun same => absent ?_))
      exact same ▸ List.mem_map_of_mem member
    simp only [all, values, mapValues, found, Option.getD_some, List.map_map, Function.comp_def, split, List.map_append,
      List.map_cons, others before (fun inside => distinct.1 (.inl inside)),
      others after (fun inside => distinct.1 (.inr inside)), List.flatten_append, List.flatten_cons, if_true,
      List.append_assoc]
    exact ((List.perm_append_comm).append_left old).append_left _
  · rename_i new
    simp [all, values, snoc, get?_eq_none.mpr new]

/-- The loop of `groupBy` goes on group by group. -/
theorem groupBy_snoc (key : α → κ) (val : α → ν) (l : List α) (a : α) :
    groupBy key val (l ++ [a]) = (groupBy key val l).extend (key a) [val a] := by
  rw [groupBy, List.foldl_append]
  rfl

/-- The groups hold the value of every element once. -/
theorem all_groupBy (key : α → κ) (val : α → ν) (l : List α) : (groupBy key val l).all.Perm (l.map val) := by
  induction l using List.reverseRecOn with
  | nil => exact .refl _
  | append_singleton l a ih =>
    rw [groupBy_snoc, List.map_append]
    exact (all_extend _ _ _).trans (ih.append_right _)

theorem firstBy_snoc (key : α → κ) (l : List α) (a : α) :
    firstBy key (l ++ [a]) = (firstBy key l).setdefault (key a) a := by
  rw [firstBy, List.foldl_append]
  rfl

/-- The first elements are found under their own keys. -/
theorem key_of_firstBy {key : α → κ} {l : List α} {e : κ × α} (entry : e ∈ (firstBy key l).entries) : key e.2 = e.1 := by
  have found := get?_eq_some.mpr entry
  rw [get?_firstBy] at found
  simpa using List.find?_some found

/-- The keys of the first elements are the keys they are found under. -/
theorem map_values_firstBy (key : α → κ) (l : List α) :
    (firstBy key l).values.map key = (firstBy key l).entries.map Prod.fst := by
  rw [values, List.map_map]
  exact List.map_congr_left (fun e entry => key_of_firstBy entry)

theorem values_firstBy_nodup (key : α → κ) (l : List α) : ((firstBy key l).values.map key).Nodup :=
  map_values_firstBy key l ▸ (firstBy key l).distinct

theorem mem_map_values_firstBy {key : α → κ} {l : List α} {k : κ} :
    k ∈ (firstBy key l).values.map key ↔ ∃ a ∈ l, key a = k := by
  rw [map_values_firstBy, ← List.mem_toFinset]
  exact mem_keys_firstBy

theorem mem_values_firstBy {key : α → κ} {l : List α} {a : α} :
    a ∈ (firstBy key l).values ↔ l.find? (fun b => key b = key a) = some a := by
  rw [← get?_firstBy, get?_eq_some, values, List.mem_map]
  constructor
  · rintro ⟨e, entry, rfl⟩
    rw [key_of_firstBy entry]
    exact entry
  · intro entry; exact ⟨_, entry, rfl⟩

end Dict

/-! ### Sets in ascending order -/

section
variable {α : Type u} [LinearOrder α]

/-- `sorted(s)` of a set. -/
def sorted (s : Finset α) : List α :=
  Quotient.lift (fun l : List α => l.insertionSort (· ≤ ·)) (by
    intro l l' same
    have perm : (l.insertionSort (· ≤ ·)).Perm (l'.insertionSort (· ≤ ·)) :=
      (List.perm_insertionSort _ l).trans (same.trans (List.perm_insertionSort _ l').symm)
    exact perm.eq_of_pairwise (fun a b _ _ => le_antisymm) (List.pairwise_insertionSort _ l)
      (List.pairwise_insertionSort _ l')) s.val

theorem sorted_perm (s : Finset α) : (sorted s : Multiset α) = s.val := by
  rcases s with ⟨⟨l⟩, nodup⟩
  exact Quotient.sound (List.perm_insertionSort _ l)

@[simp] theorem mem_sorted {s : Finset α} {a : α} : a ∈ sorted s ↔ a ∈ s := by
  rw [← Multiset.mem_coe, sorted_perm, Finset.mem_val]

theorem sorted_nodup (s : Finset α) : (sorted s).Nodup := by
  rw [← Multiset.coe_nodup, sorted_perm]
  exact s.nodup

theorem sorted_pairwise (s : Finset α) : (sorted s).Pairwise (· < ·) := by
  have ascending : (sorted s).Pairwise (· ≤ ·) := by
    rcases s with ⟨⟨l⟩, nodup⟩
    exact List.pairwise_insertionSort _ l
  exact ascending.imp₂ (fun _ _ le ne => lt_of_le_of_ne le ne) (sorted_nodup s)

/-- An ascending list is the sorted set of its members. -/
theorem eq_sorted {l : List α} {s : Finset α} (ascending : l.Pairwise (· < ·)) (same : ∀ a, a ∈ l ↔ a ∈ s) :
    l = sorted s := by
  have perm : l.Perm (sorted s) := (List.perm_ext_iff_of_nodup
    (ascending.imp ne_of_lt) (sorted_nodup s)).mpr (fun a => by rw [same, mem_sorted])
  exact perm.eq_of_pairwise (fun a b _ _ lt gt => absurd lt (lt_asymm gt)) ascending (sorted_pairwise s)

/-- A selection from ascending keys, read off a larger set of keys. -/
theorem filterMap_sorted {β : Type v} {s u : Finset α} (inside : s ⊆ u) (f : α → Option β) :
    (sorted s).filterMap f = (sorted u).filterMap (fun a => if a ∈ s then f a else none) := by
  have part : (sorted u).filter (fun a => a ∈ s) = sorted s := by
    refine eq_sorted ((sorted_pairwise u).filter _) (fun a => ?_)
    simp only [List.mem_filter, mem_sorted, decide_eq_true_eq]
    exact ⟨And.right, fun member => ⟨inside member, member⟩⟩
  rw [← part, List.filterMap_filter]
  simp only [decide_eq_true_eq]

/-- Selections from ascending keys that choose the same for every key are equal. -/
theorem filterMap_sorted_congr {β : Type v} {s t : Finset α} {f g : α → Option β}
    (same : ∀ a, (if a ∈ s then f a else none) = if a ∈ t then g a else none) :
    (sorted s).filterMap f = (sorted t).filterMap g := by
  have left : (sorted s).filterMap f = (sorted (s ∪ t)).filterMap (fun a => if a ∈ s then f a else none) :=
    filterMap_sorted Finset.subset_union_left f
  have right : (sorted t).filterMap g = (sorted (s ∪ t)).filterMap (fun a => if a ∈ t then g a else none) :=
    filterMap_sorted Finset.subset_union_right g
  rw [left, right]
  exact List.filterMap_congr (fun a _ => same a)

@[simp] theorem sorted_eq_nil {s : Finset α} : sorted s = [] ↔ s = ∅ := by
  constructor
  · intro none
    ext a
    rw [← mem_sorted, none]
    simp
  · rintro rfl; rfl

end
end ScanApi
