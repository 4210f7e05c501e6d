import ScanApi.Refs

/-!
Two documents that differ in the order of the entries of their mappings only.
Every operation of Python that the parser uses on a document agrees on the two:
a test gives the same, a lookup gives reordered values, and what is iterated is
related one to one in some order. So do pointers and references.
-/
namespace ScanApi.EntryOrder
open ScanApi.Raising ScanApi.Yaml ScanApi.Python ScanApi.Refs

/-- The second value is the first with the entries of mappings, whose keys are
    distinct, and the elements of sets in another order, at any depth. -/
inductive Reordered : Node → Node → Prop
  | scalar (value : Scalar) : Reordered (.scalar value) (.scalar value)
  | list {l l' : List Node} (items : List.Forall₂ Reordered l l') : Reordered (.list l) (.list l')
  | map {entries moved entries' : List (Scalar × Node)} (distinct : (entries.map Prod.fst).Nodup)
      (perm : entries.Perm moved) (keys : moved.map Prod.fst = entries'.map Prod.fst)
      (values : List.Forall₂ Reordered (moved.map Prod.snd) (entries'.map Prod.snd)) :
      Reordered (.map entries) (.map entries')
  | set {l l' : List Scalar} (perm : l.Perm l') : Reordered (.set l) (.set l')

/-- The same key with reordered values. -/
def ReorderedEntry (e e' : Scalar × Node) : Prop := e.1 = e'.1 ∧ Reordered e.2 e'.2

theorem reordered_single (key : Scalar) {value value' : Node} (related : Reordered value value') :
    Reordered (.map [(key, value)]) (.map [(key, value')]) :=
  .map (List.nodup_singleton key) (.refl _) rfl (.cons related .nil)

/-- Two entries change places. -/
theorem reordered_swap {key key' : Scalar} (other : key ≠ key') {value value' new new' : Node}
    (related : Reordered value new) (related' : Reordered value' new') :
    Reordered (.map [(key, value), (key', value')]) (.map [(key', new'), (key, new)]) :=
  .map (by simpa using other) (.swap _ _ _) rfl (.cons related' (.cons related .nil))

theorem forall₂_entries {P : Node → Node → Prop} : ∀ {l l' : List (Scalar × Node)},
    l.map Prod.fst = l'.map Prod.fst → List.Forall₂ P (l.map Prod.snd) (l'.map Prod.snd) →
      List.Forall₂ (fun e e' => e.1 = e'.1 ∧ P e.2 e'.2) l l' := by
  intro l
  induction l with
  | nil =>
    intro l' keys _
    obtain rfl : l' = [] := by simpa using keys.symm
    exact .nil
  | cons e rest ih =>
    intro l' keys values
    cases l' with
    | nil => cases keys
    | cons e' rest' =>
      cases values with
      | cons value values =>
        have both := List.cons.inj keys
        exact .cons ⟨both.1, value⟩ (ih both.2 values)

theorem matches_of_forall₂ {α β : Type} {R : α → β → Prop} {l : List α} {l' : List β} (related : List.Forall₂ R l l') :
    Matches R l l' := by
  induction related with
  | nil => exact matches_nil
  | cons head _ ih => exact matches_cons head ih

theorem Reordered.entries {entries entries' : List (Scalar × Node)} (related : Reordered (.map entries) (.map entries')) :
    (entries.map Prod.fst).Nodup ∧ Matches ReorderedEntry entries entries' := by
  cases related with
  | map distinct perm keys values =>
    have matched := matches_of_forall₂ (forall₂_entries keys values)
    rw [Matches, ← Multiset.coe_eq_coe.mpr perm] at matched
    exact ⟨distinct, matched⟩

/-! ### Lookups and tests -/

theorem lookup_mem {entries : List (Scalar × Node)} {key : String} {value : Node} (found : lookup entries key = some value) :
    (.str key, value) ∈ entries := by
  obtain ⟨e, hit, rfl⟩ := Option.map_eq_some_iff.mp found
  have same : e.1 = .str key := by simpa using List.find?_some hit
  rw [← same]
  exact List.mem_of_find?_eq_some hit

theorem lookup_none {entries : List (Scalar × Node)} {key : String} (missing : lookup entries key = none) :
    ∀ value, (.str key, value) ∉ entries := by
  intro value member
  have absent := List.find?_eq_none.mp (Option.map_eq_none_iff.mp missing) _ member
  simp at absent

/-- The values of a key are both missing, or reordered. -/
theorem lookup_reordered {entries entries' : List (Scalar × Node)} (related : Reordered (.map entries) (.map entries'))
    (key : String) : Option.Rel Reordered (lookup entries key) (lookup entries' key) := by
  obtain ⟨distinct, matched⟩ := related.entries
  cases found : lookup entries key with
  | none =>
    cases found' : lookup entries' key with
    | none => exact .none
    | some value' =>
      obtain ⟨e, member, same, _⟩ := matches_right matched (lookup_mem found')
      have pair : e = (.str key, e.2) := Prod.ext same rfl
      exact absurd (pair ▸ member) (lookup_none found e.2)
  | some value =>
    obtain ⟨e', member', same', _⟩ := matches_left matched (lookup_mem found)
    cases found' : lookup entries' key with
    | none =>
      have pair : e' = (.str key, e'.2) := Prod.ext same'.symm rfl
      exact absurd (pair ▸ member') (lookup_none found' e'.2)
    | some value' =>
      obtain ⟨e, member, same, value_related⟩ := matches_right matched (lookup_mem found')
      have pair : e = (.str key, value) := by
        refine List.inj_on_of_nodup_map distinct member (lookup_mem found) ?_
        exact same
      rw [pair] at value_related
      exact .some value_related

theorem rel_isSome {α β : Type} {R : α → β → Prop} {a : Option α} {b : Option β} (related : Option.Rel R a b) :
    a.isSome = b.isSome := by
  cases related <;> rfl

theorem rel_getD {α : Type} {R : α → α → Prop} {a b : Option α} (related : Option.Rel R a b) {d d' : α}
    (defaults : R d d') : R (a.getD d) (b.getD d') := by
  cases related with
  | none => exact defaults
  | some pair => exact pair

section
variable {R : Node → Node → Prop} {key : String} {entries entries' : List (Scalar × Node)}
  (related : Option.Rel R (lookup entries key) (lookup entries' key))
include related

/-- The item under a key is its value. -/
theorem item_related : Agree R (item key (.map entries)) (item key (.map entries')) := by
  intro value value' read read'
  simp only [item] at read read'
  generalize lookup entries key = found at related read
  generalize lookup entries' key = found' at related read'
  cases related with
  | none => cases read
  | some pair =>
    obtain rfl := Except.ok.inj read
    obtain rfl := Except.ok.inj read'
    exact pair

theorem get_related {default default' : Node} (defaults : R default default') :
    Agree R (get key default (.map entries)) (get key default' (.map entries')) := by
  intro value value' read read'
  obtain rfl := Except.ok.inj read
  obtain rfl := Except.ok.inj read'
  exact rel_getD related defaults

end

/-- Scalars stand for themselves. -/
theorem matches_scalars {scalars scalars' : List Scalar} (perm : scalars.Perm scalars') :
    Matches Reordered (scalars.map .scalar) (scalars'.map .scalar) := by
  refine matches_perm ?_ (perm.map _)
  induction scalars generalizing scalars' with
  | nil => exact matches_nil
  | cons scalar rest ih => exact matches_cons (.scalar scalar) (ih (.refl rest))

section
variable {n n' : Node} (related : Reordered n n')
include related

theorem truthy_reordered : n.truthy = n'.truthy := by
  cases related with
  | scalar => rfl
  | list items => cases items <;> rfl
  | map distinct perm keys values =>
    have matched := (Reordered.map distinct perm keys values).entries.2
    simp only [Node.truthy, matches_isEmpty matched]
  | set perm => simp only [Node.truthy, perm.isEmpty_eq]

theorem isDict_reordered : isDict n = isDict n' := by cases related <;> rfl
theorem isNone_reordered : isNone n = isNone n' := by cases related <;> rfl
theorem isStr_reordered (text : String) : isStr text n = isStr text n' := by cases related <;> rfl

theorem contains_reordered (key : String) : contains key n = contains key n' := by
  cases related with
  | scalar => rfl
  | list items =>
    refine congrArg Except.ok ?_
    induction items with
    | nil => rfl
    | cons head _ ih => rw [List.any_cons, List.any_cons, isStr_reordered head, ih]
  | map distinct perm keys values =>
    refine congrArg Except.ok ?_
    exact rel_isSome (lookup_reordered (.map distinct perm keys values) key)
  | set perm => exact congrArg Except.ok (perm.contains_eq)

theorem item_reordered (key : String) : Agree Reordered (item key n) (item key n') := by
  cases related with
  | map distinct perm keys values => exact item_related (lookup_reordered (.map distinct perm keys values) key)
  | scalar | list | set => intro _ _ read; cases read

theorem get_reordered (key : String) {default default' : Node} (defaults : Reordered default default') :
    Agree Reordered (get key default n) (get key default' n') := by
  cases related with
  | map distinct perm keys values => exact get_related (lookup_reordered (.map distinct perm keys values) key) defaults
  | scalar | list | set => intro _ _ read; cases read

theorem items_reordered : Agree (fun es es' => Matches ReorderedEntry es es' ∧ (es.map Prod.fst).Nodup)
    (items n) (items n') := by
  intro entries entries' read read'
  cases related with
  | map distinct perm keys values =>
    obtain rfl := Except.ok.inj read
    obtain rfl := Except.ok.inj read'
    have both := (Reordered.map distinct perm keys values).entries
    exact ⟨both.2, both.1⟩
  | scalar | list | set => cases read

/-- What is iterated: the items of lists in order, or scalars in any order. -/
theorem iter_cases : Agree (fun l l' => List.Forall₂ Reordered l l' ∨
    ∃ scalars scalars' : List Scalar, scalars.Perm scalars' ∧ l = scalars.map .scalar ∧ l' = scalars'.map .scalar)
    (iter n) (iter n') := by
  intro l l' read read'
  cases related with
  | list items =>
    obtain rfl := Except.ok.inj read
    obtain rfl := Except.ok.inj read'
    exact .inl items
  | @map entries moved entries' distinct perm keys values =>
    obtain rfl := Except.ok.inj read
    obtain rfl := Except.ok.inj read'
    refine .inr ⟨entries.map Prod.fst, entries'.map Prod.fst, keys ▸ perm.map Prod.fst, ?_, ?_⟩ <;>
      rw [List.map_map] <;> rfl
  | @set scalars scalars' perm =>
    obtain rfl := Except.ok.inj read
    obtain rfl := Except.ok.inj read'
    exact .inr ⟨scalars, scalars', perm, rfl, rfl⟩
  | scalar value =>
    obtain rfl := Except.ok.inj (read.symm.trans read')
    cases value with
    | str text =>
      obtain rfl := Except.ok.inj read
      exact .inr ⟨_, _, .refl (text.toList.map (fun c => .str (String.singleton c))), by rw [List.map_map]; rfl,
        by rw [List.map_map]; rfl⟩
    | binary bytes =>
      obtain rfl := Except.ok.inj read
      exact .inr ⟨_, _, .refl (bytes.map (fun b => .int b.toNat)), by rw [List.map_map]; rfl, by rw [List.map_map]; rfl⟩
    | null | bool _ | int _ | float _ | date _ _ => cases read

theorem iter_reordered : Agree (Matches Reordered) (iter n) (iter n') := by
  intro l l' read read'
  rcases iter_cases related l l' read read' with items | ⟨scalars, scalars', perm, rfl, rfl⟩
  · exact matches_of_forall₂ items
  · exact matches_scalars perm

theorem hashable_reordered : hashable n = hashable n' := by
  cases related <;> rfl

theorem lower_reordered (text : Text) : lower text n = lower text n' := by
  cases related <;> rfl

theorem refText_reordered : refText n = refText n' := by
  cases related <;> rfl

end

/-! ### References -/

/-- The same place in reordered documents. -/
structure ReorderedSite (site site' : Site) : Prop where
  schema : Reordered site.schema site'.schema
  spec : Reordered site.spec site'.spec
  specUrl : site.specUrl = site'.specUrl
  seen : site.seen = site'.seen

/-- Sibling files that are reordered too. -/
structure ReorderedFiles (docs docs' : Documents (Except PyError)) : Prop where
  urllib : docs.toUrllib = docs'.toUrllib
  files : ∀ url, Agree Reordered (docs.fetchExternalSpec url) (docs'.fetchExternalSpec url)

theorem reordered_empty : Reordered (.map []) (.map []) := .map List.nodup_nil .nil rfl .nil

theorem walk_reordered : ∀ (parts : List (List Char)) {n n' : Node}, Reordered n n' →
    Reordered (walk parts n) (walk parts n') := by
  intro parts
  induction parts with
  | nil =>
    intro n n' related
    cases related with
    | map distinct perm keys values => exact .map distinct perm keys values
    | scalar | list | set => exact reordered_empty
  | cons part rest ih =>
    intro n n' related
    cases related with
    | map distinct perm keys values =>
      exact ih (rel_getD (lookup_reordered (.map distinct perm keys values) (unescape part)) reordered_empty)
    | scalar | list | set => exact reordered_empty

theorem resolvePointer_reordered (ref : String) {n n' : Node} (related : Reordered n n') :
    Reordered (resolvePointer ref n) (resolvePointer ref n') := walk_reordered _ related

section
variable {site site' : Site} (place : ReorderedSite site site')
include place

theorem site_at {n n' : Node} (related : Reordered n n') : ReorderedSite (site.at n) (site'.at n') :=
  ⟨related, place.spec, place.specUrl, place.seen⟩

variable {docs docs' : Documents (Except PyError)} (files : ReorderedFiles docs docs')
include files

theorem resolveExternal_reordered (ref : String) :
    Agree ReorderedSite (resolveExternal docs ref site) (resolveExternal docs' ref site') := by
  have unresolved : Agree ReorderedSite (pure site.unresolved : Except PyError Site) (pure site'.unresolved) :=
    agree_pure (site_at place reordered_empty)
  simp only [resolveExternal, py_except, ← place.specUrl, ← files.urllib]
  split
  · exact unresolved
  · split
    · exact unresolved
    · exact unresolved
    · refine agree_bind (agree_same rfl) (fun url url' same => ?_)
      subst same
      refine agree_bind (agree_same rfl) (fun sibling sibling' same => ?_)
      subst same
      refine agree_ite rfl unresolved (agree_bind (files.files url) (fun spec spec' related => ?_))
      refine agree_ite (by rw [truthy_reordered related]) unresolved (agree_pure ?_)
      refine ⟨?_, related, rfl, place.seen⟩
      dsimp only
      split
      · exact related
      · exact resolvePointer_reordered _ related

/-- A reference leads to the same place. -/
theorem resolveRef_reordered {ref ref' : Node} (related : Reordered ref ref') :
    Agree ReorderedSite (resolveRef docs ref site) (resolveRef docs' ref' site') := by
  have unresolved : Agree ReorderedSite (pure site.unresolved : Except PyError Site) (pure site'.unresolved) :=
    agree_pure (site_at place reordered_empty)
  simp only [resolveRef, py_except, ← refText_reordered related, ← place.seen]
  refine agree_ite (by rw [truthy_reordered related]) unresolved (agree_bind (agree_same rfl) (fun text _ same => ?_))
  subst same
  split
  · exact unresolved
  · have branch : ReorderedSite { site with seen := insert text site.seen } { site' with seen := insert text site.seen } :=
      ⟨place.schema, place.spec, place.specUrl, rfl⟩
    refine agree_ite rfl (agree_pure (site_at branch (resolvePointer_reordered _ place.spec))) ?_
    exact resolveExternal_reordered branch files text

/-- A schema is entered at the same place. -/
theorem enter_reordered : Agree (Option.Rel ReorderedSite) (enter docs site) (enter docs' site') := by
  simp only [enter, py_except, ← contains_reordered place.schema, ← truthy_reordered place.schema]
  refine agree_ite rfl (agree_pure .none) (agree_bind (agree_same rfl) (fun hasRef _ same => ?_))
  subst same
  refine agree_ite rfl (agree_bind (item_reordered place.schema _) (fun ref ref' related => ?_)) (agree_pure (.some place))
  refine agree_bind (resolveRef_reordered place files related) (fun target target' reached => agree_pure ?_)
  rw [← truthy_reordered reached.schema]
  split
  · exact .some reached
  · exact .none

end

end ScanApi.EntryOrder
