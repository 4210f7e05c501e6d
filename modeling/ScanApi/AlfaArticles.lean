import Mathlib.Data.List.Sort
import Mathlib.Order.Lex
import ScanApi.AlfaMethods

/-!
The article tree of Alfa-Bank's portal (`_collect_leaf_articles`). A leaf takes its
service and its visibility from the articles on its way from the root. Ways are
known by their addresses, so that document order is the order of addresses.
-/
namespace ScanApi.Alfa
open ScanApi.Yaml

/-- An item of the index; `visible` may be missing. -/
inductive Article
  | item (title path : String) (tags : List String) (visible : Option Node) (articles : List Article)

namespace Article

def title : Article → String
  | .item title _ _ _ _ => title
def path : Article → String
  | .item _ path _ _ _ => path
def tags : Article → List String
  | .item _ _ tags _ _ => tags
/-- `item.get("visible", True)`. -/
def visible : Article → Node
  | .item _ _ _ visible _ => visible.getD (.scalar (.bool true))
def articles : Article → List Article
  | .item _ _ _ _ articles => articles

end Article

/-- `path.replace(".md", "")`. -/
def withoutMd (path : String) : String :=
  let rec cut : List Char → List Char
    | '.' :: 'm' :: 'd' :: rest => cut rest
    | c :: rest => c :: cut rest
    | [] => []
  String.ofList (cut path.toList)

/-- `a or b`. -/
def orText (a b : String) : String := if a = "" then b else a

mutual
/-- One round of the loop over the items. -/
def collectArticle : Article → Option String → String → Bool → List Leaf
  | .item title path tags visible articles, serviceName, parentTitle, inPrivate =>
    let isPrivate := inPrivate || tags.contains "private"
    let svc := if tags.contains "service" then some title else serviceName
    if articles.isEmpty then
      if withoutMd path = "" then []
      else [{
        service := orText (orText (svc.getD "") parentTitle) title
        title
        path := withoutMd path
        isPrivate
        visible := visible.getD (.scalar (.bool true)) }]
    else collectLeafArticles articles svc title isPrivate
def collectLeafArticles : List Article → (serviceName : Option String) → (parentTitle : String) → (inPrivate : Bool) →
    List Leaf
  | [], _, _, _ => []
  | item :: rest, serviceName, parentTitle, inPrivate =>
    collectArticle item serviceName parentTitle inPrivate ++ collectLeafArticles rest serviceName parentTitle inPrivate
end

/-- The leaves of the index. -/
def leafArticles (tree : List Article) : List Leaf := collectLeafArticles tree none "" false

/-! ### Ways from the root -/

theorem articleInduction {P : Article → Prop} (step : ∀ a, (∀ b ∈ a.articles, P b) → P a) : ∀ a, P a
  | .item title path tags visible articles => step _ (fun b _ => articleInduction step b)
decreasing_by
  rename_i member
  have smaller := List.sizeOf_lt_of_mem (show b ∈ articles from member)
  simp only [Article.item.sizeOf_spec]
  omega

/-- The articles on the way from the root to the item at an address. -/
inductive Leads : List Article → List Nat → List Article → Prop
  | here {items : List Article} {i : Nat} {a : Article} : items[i]? = some a → Leads items [i] [a]
  | inside {items : List Article} {i : Nat} {a : Article} {address : List Nat} {way : List Article} :
    items[i]? = some a → Leads a.articles address way → Leads items (i :: address) (a :: way)

/-- The last article of a way has a path and no children. -/
def EndsInLeaf (way : List Article) : Prop := ∃ a ∈ way.getLast?, a.articles = [] ∧ withoutMd a.path ≠ ""

section
variable {a : Article} {items rest : List Article} {address : List Nat} {way inner : List Article} {i : Nat}

theorem not_leads_nil : ¬ Leads [] address way := by
  intro leads
  cases leads with
  | here found => simp at found
  | inside found _ => simp at found

theorem leads_zero : Leads (a :: rest) (0 :: address) way ↔
    (address = [] ∧ way = [a]) ∨ ∃ inner, way = a :: inner ∧ Leads a.articles address inner := by
  constructor
  · intro leads
    cases leads with
    | here found =>
      obtain rfl := Option.some.inj found
      exact .inl ⟨rfl, rfl⟩
    | inside found under =>
      obtain rfl := Option.some.inj found
      exact .inr ⟨_, rfl, under⟩
  · rintro (⟨rfl, rfl⟩ | ⟨inner, rfl, under⟩)
    · exact .here rfl
    · exact .inside rfl under

theorem leads_succ : Leads (a :: rest) ((i + 1) :: address) way ↔ Leads rest (i :: address) way := by
  constructor
  · intro leads
    cases leads with
    | here found => exact .here (by simpa using found)
    | inside found under => exact .inside (by simpa using found) under
  · intro leads
    cases leads with
    | here found => exact .here (by simpa using found)
    | inside found under => exact .inside (by simpa using found) under

theorem way_ne_nil (leads : Leads items address way) : way ≠ [] := by
  cases leads with
  | here _ => exact List.cons_ne_nil _ _
  | inside _ _ => exact List.cons_ne_nil _ _

theorem address_ne_nil (leads : Leads items address way) : address ≠ [] := by
  cases leads with
  | here _ => exact List.cons_ne_nil _ _
  | inside _ _ => exact List.cons_ne_nil _ _

theorem endsInLeaf_cons (nonempty : inner ≠ []) : EndsInLeaf (a :: inner) ↔ EndsInLeaf inner := by
  obtain ⟨b, more, rfl⟩ := List.exists_cons_of_ne_nil nonempty
  rw [EndsInLeaf, EndsInLeaf, List.getLast?_cons_cons]

theorem endsInLeaf_singleton : EndsInLeaf [a] ↔ a.articles = [] ∧ withoutMd a.path ≠ "" := by
  simp [EndsInLeaf]

end

/-! ### The leaves by address -/

mutual
/-- The leaves under an item with their addresses, in document order. -/
def leavesAt : Nat → Article → List (List Nat × List Article)
  | i, .item title path tags visible articles =>
    if articles.isEmpty then
      if withoutMd path = "" then [] else [([i], [.item title path tags visible articles])]
    else (leavesFrom 0 articles).map (fun l => (i :: l.1, .item title path tags visible articles :: l.2))
def leavesFrom : Nat → List Article → List (List Nat × List Article)
  | _, [] => []
  | i, item :: rest => leavesAt i item ++ leavesFrom (i + 1) rest
end

theorem leavesAt_eq (i : Nat) (a : Article) : leavesAt i a =
    if a.articles = [] then if withoutMd a.path = "" then [] else [([i], [a])]
    else (leavesFrom 0 a.articles).map (fun l => (i :: l.1, a :: l.2)) := by
  obtain ⟨title, path, tags, visible, articles⟩ := a
  cases articles <;> rfl

/-- The leaves under the items of a list, where those under an item are known. -/
theorem mem_leavesFrom_of {items : List Article} {address : List Nat} {way : List Article}
    (each : ∀ a ∈ items, ∀ i, (address, way) ∈ leavesAt i a ↔
      ∃ rest, address = i :: rest ∧ Leads [a] (0 :: rest) way ∧ EndsInLeaf way) (k : Nat) :
    (address, way) ∈ leavesFrom k items ↔
      ∃ i rest, address = (k + i) :: rest ∧ Leads items (i :: rest) way ∧ EndsInLeaf way := by
  induction items generalizing k with
  | nil => simp [leavesFrom, not_leads_nil]
  | cons a items ih =>
    rw [leavesFrom, List.mem_append, each a List.mem_cons_self k,
      ih (fun b member => each b (List.mem_cons_of_mem a member)) (k + 1)]
    constructor
    · rintro (⟨rest, rfl, leads, leaf⟩ | ⟨i, rest, rfl, leads, leaf⟩)
      · exact ⟨0, rest, rfl, leads_zero.mpr (leads_zero.mp leads), leaf⟩
      · exact ⟨i + 1, rest, by rw [Nat.add_assoc, Nat.add_comm 1 i], leads_succ.mpr leads, leaf⟩
    · rintro ⟨i, rest, rfl, leads, leaf⟩
      cases i with
      | zero => exact .inl ⟨rest, rfl, leads_zero.mpr (leads_zero.mp leads), leaf⟩
      | succ i => exact .inr ⟨i, rest, by rw [Nat.add_assoc, Nat.add_comm 1 i], leads_succ.mp leads, leaf⟩

theorem mem_leavesAt (a : Article) : ∀ (address : List Nat) (way : List Article) (i : Nat), (address, way) ∈ leavesAt i a ↔
    ∃ rest, address = i :: rest ∧ Leads [a] (0 :: rest) way ∧ EndsInLeaf way := by
  induction a using articleInduction with
  | step a ih =>
    intro address way i
    rw [leavesAt_eq]
    by_cases last : a.articles = []
    · rw [if_pos last]
      have alone : ∀ rest, Leads [a] (0 :: rest) way ↔ rest = [] ∧ way = [a] := by
        intro rest
        rw [leads_zero, last]
        simp [not_leads_nil]
      simp only [alone]
      by_cases pathless : withoutMd a.path = ""
      · rw [if_pos pathless]
        constructor
        · intro member; cases member
        · rintro ⟨rest, -, ⟨-, rfl⟩, leaf⟩
          exact absurd pathless (endsInLeaf_singleton.mp leaf).2
      · rw [if_neg pathless, List.mem_singleton, Prod.mk.injEq]
        constructor
        · rintro ⟨rfl, rfl⟩
          exact ⟨[], rfl, ⟨rfl, rfl⟩, endsInLeaf_singleton.mpr ⟨last, pathless⟩⟩
        · rintro ⟨rest, rfl, ⟨rfl, rfl⟩, -⟩
          exact ⟨rfl, rfl⟩
    · rw [if_neg last]
      constructor
      · intro member
        obtain ⟨⟨below, inner⟩, listed, same⟩ := List.mem_map.mp member
        obtain ⟨rfl, rfl⟩ := Prod.mk.inj same
        obtain ⟨j, rest, here, leads, leaf⟩ := (mem_leavesFrom_of (fun b inside => ih b inside below inner) 0).mp listed
        rw [Nat.zero_add] at here
        subst here
        exact ⟨j :: rest, rfl, leads_zero.mpr (.inr ⟨inner, rfl, leads⟩), (endsInLeaf_cons (way_ne_nil leads)).mpr leaf⟩
      · rintro ⟨rest, rfl, leads, leaf⟩
        rcases leads_zero.mp leads with ⟨rfl, rfl⟩ | ⟨inner, rfl, under⟩
        · exact absurd (endsInLeaf_singleton.mp leaf).1 last
        · obtain ⟨j, more, rfl⟩ := List.exists_cons_of_ne_nil (address_ne_nil under)
          refine List.mem_map.mpr ⟨(j :: more, inner), (mem_leavesFrom_of (fun b inside => ih b inside _ inner) 0).mpr ?_, rfl⟩
          exact ⟨j, more, by rw [Nat.zero_add], under, (endsInLeaf_cons (way_ne_nil under)).mp leaf⟩

/-- The leaves of a tree are where ways end in a leaf. -/
theorem mem_leavesFrom {tree : List Article} {address : List Nat} {way : List Article} :
    (address, way) ∈ leavesFrom 0 tree ↔ Leads tree address way ∧ EndsInLeaf way := by
  rw [mem_leavesFrom_of (fun a _ => mem_leavesAt a address way)]
  constructor
  · rintro ⟨i, rest, rfl, found⟩
    rwa [Nat.zero_add]
  · rintro ⟨leads, leaf⟩
    obtain ⟨i, rest, rfl⟩ := List.exists_cons_of_ne_nil (address_ne_nil leads)
    exact ⟨i, rest, by rw [Nat.zero_add], leads, leaf⟩

/-- The addresses under the items of a list ascend, where those under an item do. -/
theorem ascending_leavesFrom_of {items : List Article}
    (each : ∀ a ∈ items, ∀ i, ((leavesAt i a).map Prod.fst).Pairwise (· < ·)) (k : Nat) :
    ((leavesFrom k items).map Prod.fst).Pairwise (· < ·) := by
  induction items generalizing k with
  | nil => exact List.Pairwise.nil
  | cons a items ih =>
    rw [leavesFrom, List.map_append, List.pairwise_append]
    refine ⟨each a List.mem_cons_self k, ih (fun b member => each b (List.mem_cons_of_mem a member)) (k + 1), ?_⟩
    intro address early address' late
    obtain ⟨⟨_, way⟩, member, rfl⟩ := List.mem_map.mp early
    obtain ⟨⟨_, way'⟩, member', rfl⟩ := List.mem_map.mp late
    obtain ⟨rest, rfl, -⟩ := (mem_leavesAt a _ way k).mp member
    obtain ⟨i, rest', rfl, -⟩ := (mem_leavesFrom_of (fun b _ => mem_leavesAt b _ way') (k + 1)).mp member'
    exact List.cons_lt_cons_iff.mpr (.inl (by omega))

theorem ascending_leavesAt (a : Article) : ∀ i, ((leavesAt i a).map Prod.fst).Pairwise (· < ·) := by
  induction a using articleInduction with
  | step a ih =>
    intro i
    rw [leavesAt_eq]
    split
    · split
      · exact List.Pairwise.nil
      · exact List.pairwise_singleton _ _
    · have below := ascending_leavesFrom_of ih 0
      rw [List.pairwise_map] at below ⊢
      exact List.pairwise_map.mpr (below.imp (fun less => List.cons_lt_cons_iff.mpr (.inr ⟨rfl, less⟩)))

theorem ascending_leavesFrom (tree : List Article) : ((leavesFrom 0 tree).map Prod.fst).Pairwise (· < ·) :=
  ascending_leavesFrom_of (fun a _ => ascending_leavesAt a) 0

/-! ### What a leaf takes from its way -/

/-- The title of the nearest article tagged as a service, else of the folder, else of the article itself. -/
def serviceTitle (way : List Article) : Option String :=
  ((way.reverse.find? (fun a => a.tags.contains "service")).or (way.dropLast.getLast?.or way.getLast?)).map Article.title

/-- A leaf as the code lists it. -/
structure Lists (leaf : Leaf) (way : List Article) : Prop where
  article : ∃ a ∈ way.getLast?, leaf.title = a.title ∧ leaf.path = withoutMd a.path ∧ leaf.visible = a.visible
  service : serviceTitle way = some leaf.service
  isPrivate : leaf.isPrivate = way.any (fun a => a.tags.contains "private")

/-- What an item gets of the articles above it. -/
structure Inherited (above : List Article) (serviceName : Option String) (parentTitle : String) (inPrivate : Bool) : Prop where
  titled : ∀ a ∈ above, a.title ≠ ""
  service : serviceName = (above.reverse.find? (fun a => a.tags.contains "service")).map Article.title
  parent : parentTitle = (above.getLast?.map Article.title).getD ""
  inPrivate : inPrivate = above.any (fun a => a.tags.contains "private")

theorem inherited_snoc {above : List Article} {serviceName : Option String} {parentTitle : String} {inPrivate : Bool}
    (inherited : Inherited above serviceName parentTitle inPrivate) {a : Article} (titled : a.title ≠ "") :
    Inherited (above ++ [a]) (if a.tags.contains "service" then some a.title else serviceName) a.title
      (inPrivate || a.tags.contains "private") where
  titled := List.forall_mem_append.mpr ⟨inherited.titled, by simpa using titled⟩
  service := by
    rw [List.reverse_append, List.reverse_singleton, List.singleton_append, List.find?_cons, inherited.service]
    cases a.tags.contains "service" <;> rfl
  parent := by simp
  inPrivate := by rw [inherited.inPrivate, List.any_append, List.any_cons, List.any_nil, Bool.or_false]

/-- The service of a leaf under the articles above it. -/
theorem serviceTitle_snoc {above : List Article} {serviceName : Option String} {parentTitle : String} {inPrivate : Bool}
    (inherited : Inherited above serviceName parentTitle inPrivate) {a : Article} (titled : a.title ≠ "") :
    serviceTitle (above ++ [a]) = some (orText (orText ((if a.tags.contains "service" then some a.title
      else serviceName).getD "") parentTitle) a.title) := by
  have grown := inherited_snoc inherited titled
  rw [grown.service, serviceTitle, inherited.parent, List.dropLast_concat, List.getLast?_concat]
  cases found : (above ++ [a]).reverse.find? (fun a => a.tags.contains "service") with
  | some s =>
    have named : s.title ≠ "" := grown.titled s (List.mem_reverse.mp (List.mem_of_find?_eq_some found))
    simp [orText, named]
  | none =>
    cases last : above.getLast? with
    | some folder =>
      have named : folder.title ≠ "" := inherited.titled folder (List.mem_of_getLast? last)
      simp [orText, named]
    | none => simp [orText]

theorem collectArticle_eq (a : Article) (serviceName : Option String) (parentTitle : String) (inPrivate : Bool) :
    collectArticle a serviceName parentTitle inPrivate =
      if a.articles = [] then
        if withoutMd a.path = "" then []
        else [⟨orText (orText ((if a.tags.contains "service" then some a.title else serviceName).getD "") parentTitle) a.title,
          a.title, withoutMd a.path, inPrivate || a.tags.contains "private", a.visible⟩]
      else collectLeafArticles a.articles (if a.tags.contains "service" then some a.title else serviceName) a.title
        (inPrivate || a.tags.contains "private") := by
  obtain ⟨title, path, tags, visible, articles⟩ := a
  cases articles <;> rfl

/-- The items of a list are collected like the leaves by address, where this holds under each of them. -/
theorem lists_leavesFrom_of {items above : List Article} {serviceName : Option String} {parentTitle : String}
    {inPrivate : Bool} (each : ∀ a ∈ items, ∀ i, List.Forall₂ (fun leaf l => Lists leaf (above ++ l.2))
      (collectArticle a serviceName parentTitle inPrivate) (leavesAt i a)) (k : Nat) :
    List.Forall₂ (fun leaf l => Lists leaf (above ++ l.2)) (collectLeafArticles items serviceName parentTitle inPrivate)
      (leavesFrom k items) := by
  induction items generalizing k with
  | nil => exact .nil
  | cons a items ih =>
    rw [collectLeafArticles, leavesFrom]
    exact List.rel_append (each a List.mem_cons_self k) (ih (fun b member => each b (List.mem_cons_of_mem a member)) (k + 1))

/-- Every article below has a title. -/
def Titled (items : List Article) : Prop := ∀ address way, Leads items address way → ∀ a ∈ way, a.title ≠ ""

theorem titled_iff {items : List Article} : Titled items ↔ ∀ a ∈ items, a.title ≠ "" ∧ Titled a.articles := by
  constructor
  · intro titled a member
    obtain ⟨i, found⟩ := List.mem_iff_getElem?.mp member
    exact ⟨titled [i] [a] (.here found) a List.mem_cons_self,
      fun address way leads b inside => titled (i :: address) (a :: way) (.inside found leads) b (List.mem_cons_of_mem a inside)⟩
  · intro each address way leads
    cases leads with
    | here found =>
      intro b inside
      rw [List.mem_singleton.mp inside]
      exact (each _ (List.mem_of_getElem? found)).1
    | inside found under =>
      intro b inside
      obtain ⟨named, below⟩ := each _ (List.mem_of_getElem? found)
      rcases List.mem_cons.mp inside with rfl | inner
      · exact named
      · exact below _ _ under b inner

theorem lists_leavesAt (a : Article) : ∀ {above : List Article} {serviceName : Option String} {parentTitle : String}
    {inPrivate : Bool}, Inherited above serviceName parentTitle inPrivate → a.title ≠ "" → Titled a.articles →
    ∀ i, List.Forall₂ (fun leaf l => Lists leaf (above ++ l.2)) (collectArticle a serviceName parentTitle inPrivate)
      (leavesAt i a) := by
  induction a using articleInduction with
  | step a ih =>
    intro above serviceName parentTitle inPrivate inherited named titled i
    have grown := inherited_snoc inherited named
    rw [collectArticle_eq, leavesAt_eq]
    split
    · split
      · exact .nil
      · refine .cons ⟨⟨a, List.getLast?_concat, rfl, rfl, rfl⟩, serviceTitle_snoc inherited named, ?_⟩ .nil
        exact grown.inPrivate
    · have below := lists_leavesFrom_of (fun b member => ih b member grown (titled_iff.mp titled _ member).1
        (titled_iff.mp titled _ member).2) 0
      rw [List.forall₂_map_right_iff]
      refine below.imp (fun leaf l lists => ?_)
      rwa [List.append_assoc] at lists

/-- The leaves are listed by address, each as its way says. -/
theorem lists_leafArticles {tree : List Article} (titled : Titled tree) :
    List.Forall₂ (fun leaf l => Lists leaf l.2) (leafArticles tree) (leavesFrom 0 tree) := by
  have top : Inherited [] none "" false := ⟨by simp, rfl, rfl, rfl⟩
  exact lists_leavesFrom_of (fun a member => lists_leavesAt a top (titled_iff.mp titled _ member).1
    (titled_iff.mp titled _ member).2) 0

/-! ### The filter of the portal's navigation -/

/-- The article is not shown in the navigation: `visible && !tags.includes("private")` is false. -/
def Filtered (a : Article) : Prop := "private" ∈ a.tags ∨ a.visible = .scalar (.bool false)

/-- The leaf is listed and hidden as its way says. -/
structure StatusOf (leaf : Leaf) (way : List Article) : Prop where
  article : ∃ a ∈ way.getLast?, leaf.title = a.title ∧ leaf.path = withoutMd a.path
  service : serviceTitle way = some leaf.service
  hidden : (hiddenStatus leaf).1 = true ↔ ∃ a ∈ way, Filtered a

/-- Every leaf is listed once, in document order, with its status. -/
def FollowsNavigation (tree : List Article) : Prop :=
  ∃ listed : List (List Nat × List Article), (listed.map Prod.fst).Pairwise (· < ·) ∧
    (∀ address way, (address, way) ∈ listed ↔ Leads tree address way ∧ EndsInLeaf way) ∧
    List.Forall₂ (fun leaf l => StatusOf leaf l.2) (leafArticles tree) listed

/-- A leaf in a folder that is not visible is private or not visible itself. -/
def FoldersVisible (tree : List Article) : Prop :=
  ∀ address way, Leads tree address way → EndsInLeaf way →
    (∃ folder ∈ way.dropLast, folder.visible = .scalar (.bool false)) →
      (∃ a ∈ way, "private" ∈ a.tags) ∨ ∃ a ∈ way.getLast?, a.visible = .scalar (.bool false)

theorem hiddenStatus_iff {leaf : Leaf} :
    (hiddenStatus leaf).1 = true ↔ leaf.isPrivate = true ∨ leaf.visible = .scalar (.bool false) := by
  rw [hiddenStatus]
  by_cases closed : leaf.isPrivate = true
  · simp [closed]
  · rw [if_neg closed]
    constructor
    · intro hidden
      split at hidden
      · rename_i invisible; exact .inr invisible
      · cases hidden
    · rintro (closed' | invisible)
      · exact absurd closed' closed
      · rw [invisible]

/-- A listed leaf is hidden if it is private anywhere on its way or not visible itself. -/
theorem hidden_of_lists {leaf : Leaf} {way : List Article} (lists : Lists leaf way) :
    (hiddenStatus leaf).1 = true ↔ (∃ a ∈ way, "private" ∈ a.tags) ∨ ∃ a ∈ way.getLast?, a.visible = .scalar (.bool false) := by
  obtain ⟨a, last, -, -, visible⟩ := lists.article
  rw [hiddenStatus_iff, lists.isPrivate, visible]
  simp [Option.mem_def.mp last]

/-- Some article of a way is filtered if one is private, a folder is not visible, or the last is not. -/
theorem filtered_iff {way : List Article} (nonempty : way ≠ []) : (∃ a ∈ way, Filtered a) ↔
    (∃ a ∈ way, "private" ∈ a.tags) ∨ (∃ folder ∈ way.dropLast, folder.visible = .scalar (.bool false)) ∨
      ∃ a ∈ way.getLast?, a.visible = .scalar (.bool false) := by
  have parts : (∃ a ∈ way, a.visible = .scalar (.bool false)) ↔
      (∃ folder ∈ way.dropLast, folder.visible = .scalar (.bool false)) ∨
        ∃ a ∈ way.getLast?, a.visible = .scalar (.bool false) := by
    obtain ⟨folders, a, rfl⟩ := (List.eq_nil_or_concat' way).resolve_left nonempty
    simp [or_and_right, exists_or]
  rw [← parts]
  simp only [Filtered, and_or_left, exists_or]

/-- The addressed leaves are the only list that every way to a leaf is on. -/
theorem eq_leavesFrom {tree : List Article} {listed : List (List Nat × List Article)}
    (ascending : (listed.map Prod.fst).Pairwise (· < ·))
    (complete : ∀ address way, (address, way) ∈ listed ↔ Leads tree address way ∧ EndsInLeaf way) :
    listed = leavesFrom 0 tree := by
  have ascending' := ascending_leavesFrom tree
  rw [List.pairwise_map] at ascending ascending'
  have distinct : ∀ {l : List (List Nat × List Article)}, l.Pairwise (fun a b => a.1 < b.1) → l.Nodup :=
    fun sorted => sorted.imp (fun {a b} less (same : a = b) => lt_irrefl a.1 (same ▸ less))
  have perm : listed.Perm (leavesFrom 0 tree) :=
    (List.perm_ext_iff_of_nodup (distinct ascending) (distinct ascending')).mpr
      (fun l => (complete l.1 l.2).trans mem_leavesFrom.symm)
  exact perm.eq_of_pairwise (fun a b _ _ less greater => absurd less (lt_asymm greater)) ascending ascending'

/-- Leaves follow the navigation of the portal if and only if no leaf that is public by
    itself lies in a folder that is not visible. -/
theorem leaf_status_iff (tree : List Article) (titled : Titled tree) : FollowsNavigation tree ↔ FoldersVisible tree := by
  obtain ⟨same, lists⟩ := List.forall₂_iff_get.mp (lists_leafArticles titled)
  constructor
  · rintro ⟨listed, ascending, complete, statuses⟩ address way leads leaf hiddenFolder
    obtain rfl := eq_leavesFrom ascending complete
    obtain ⟨i, below, found⟩ := List.mem_iff_getElem.mp ((complete address way).mpr ⟨leads, leaf⟩)
    have status := (List.forall₂_iff_get.mp statuses).2 i (same ▸ below) below
    have listing := lists i (same ▸ below) below
    rw [show (leavesFrom 0 tree).get ⟨i, below⟩ = (address, way) from found] at status listing
    refine (hidden_of_lists listing).mp (status.hidden.mpr ?_)
    exact (filtered_iff (way_ne_nil leads)).mpr (.inr (.inl hiddenFolder))
  · intro folders
    refine ⟨leavesFrom 0 tree, ascending_leavesFrom tree, fun _ _ => mem_leavesFrom, List.forall₂_iff_get.mpr ⟨same, ?_⟩⟩
    intro i inside below
    have listing := lists i inside below
    obtain ⟨leads, leaf⟩ := mem_leavesFrom.mp (List.get_mem (leavesFrom 0 tree) ⟨i, below⟩)
    obtain ⟨a, last, title, path, -⟩ := listing.article
    refine ⟨⟨a, last, title, path⟩, listing.service, ?_⟩
    rw [hidden_of_lists listing, filtered_iff (way_ne_nil leads)]
    constructor
    · rintro (closed | invisible)
      · exact .inl closed
      · exact .inr (.inr invisible)
    · rintro (closed | folder | invisible)
      · exact .inl closed
      · exact folders _ _ leads leaf folder
      · exact .inr invisible

/-! ### A folder that is not visible -/

def article (title path : String) (articles : List Article) (tags : List String := []) (visible : Option Node := none) :
    Article := .item title path tags visible articles

/-- A private programme with a service in it. -/
def partners : List Article :=
  [article "Партнёрская программа" "" [
    article "Короткая анкета" "" [article "Отправить анкету" "partner/send.md" []] ["service"]] ["private", "alfa-api"]]

/-- A folder that the navigation leaves out, with a leaf that says nothing of it. -/
def archive : List Article :=
  [article "Архив" "" [article "Выписка v1" "statements/v1.md" []] [] (some (.scalar (.bool false)))]

theorem titled_partners : Titled partners := by
  have none : Titled [] := titled_iff.mpr (fun a member => nomatch member)
  refine titled_iff.mpr (fun programme member => ?_)
  obtain rfl := List.mem_singleton.mp member
  refine ⟨by decide, titled_iff.mpr (fun form member => ?_)⟩
  obtain rfl := List.mem_singleton.mp member
  refine ⟨by decide, titled_iff.mpr (fun leaf member => ?_)⟩
  obtain rfl := List.mem_singleton.mp member
  exact ⟨by decide, none⟩

theorem leaf_status_iff_partners : FollowsNavigation partners := by
  refine (leaf_status_iff partners titled_partners).mpr (fun address way leads _ _ => .inl ?_)
  cases leads with
  | here found => exact ⟨_, List.mem_cons_self, by rw [List.mem_singleton.mp (List.mem_of_getElem? found)]; decide⟩
  | inside found _ => exact ⟨_, List.mem_cons_self, by rw [List.mem_singleton.mp (List.mem_of_getElem? found)]; decide⟩

/-- The leaf of a folder that is not visible is shown. -/
theorem archive_shows : Titled archive ∧ ¬ FollowsNavigation archive := by
  have titled : Titled archive := by
    refine titled_iff.mpr (fun folder member => ?_)
    obtain rfl := List.mem_singleton.mp member
    refine ⟨by decide, titled_iff.mpr (fun leaf member => ?_)⟩
    obtain rfl := List.mem_singleton.mp member
    exact ⟨by decide, titled_iff.mpr (fun a member => nomatch member)⟩
  refine ⟨titled, ?_⟩
  rintro ⟨listed, ascending, complete, statuses⟩
  obtain rfl := eq_leavesFrom ascending complete
  cases statuses with
  | cons status _ =>
    have hidden := status.hidden.mpr ⟨_, List.mem_cons_self, .inr rfl⟩
    revert hidden
    decide

end ScanApi.Alfa
