import ScanApi.AlfaMethods
import ScanApi.EntryOrder
import ScanApi.Python
import ScanApi.Raising

/-!
The operation of an article's endpoint in its embedded spec
(`_operation_from_embedded_spec` of `alfabank_parser.py`). The spec path is found
by its text: the endpoint's own path, the same without `/api`, else the first path
that ends like it. Two paths are about the same endpoint only if the one is the
other after whole segments, which the text does not tell.
-/
namespace ScanApi.AlfaEmbedded
open ScanApi.Alfa ScanApi.Python ScanApi.Raising ScanApi.Yaml
open ScanApi.EntryOrder (lookup_mem)

/-! ### The search -/

/-- `path.lstrip("/")`. -/
def stripSlashes (path : String) : List Char := path.toList.dropWhile (· = '/')

/-- `path.endswith(sp) or sp.endswith(path.lstrip("/"))`. -/
def sameEnd (path sp : String) : Bool := sp.toList.isSuffixOf path.toList || (stripSlashes path).isSuffixOf sp.toList

def matchesEnd (path : String) (e : Scalar × Node) : Except PyError Bool :=
  match e.1 with
  | .str sp => .ok (sameEnd path sp)
  | _ => .error .typeError

/-- `paths.get(key)`, where it is truthy. -/
def getTruthy (paths : List (Scalar × Node)) (key : String) : Option (Scalar × Node) :=
  match lookup paths key with
  | some item => if item.truthy then some (.str key, item) else none
  | none => none

/-- The spec path that the search ends at, with its item. -/
def pathItem (paths : List (Scalar × Node)) (path : String) : Except PyError (Option (Scalar × Node)) :=
  match getTruthy paths path with
  | some found => .ok (some found)
  | none => match getTruthy paths (normPath path) with
    | some found => .ok (some found)
    | none => firstThat (matchesEnd path) paths

/-- `path_item.get(method.lower())`, where it is an operation. -/
def operationOf (text : Text) (method : String) : Node → Option Node
  | .map item => match lookup item (text.lower method) with
    | some operation => if isNone operation then none else some operation
    | none => none
  | _ => none

/-- The operation and the spec path it is taken from. -/
def findOperation (text : Text) (spec : Node) (path method : String) : Except PyError (Option (Scalar × Node)) := do
  let paths ← get "paths" (.map []) spec
  let paths ← items paths
  match ← pathItem paths path with
  | none => return none
  | some (sp, item) => return (operationOf text method item).map (fun operation => (sp, operation))

def operationFromEmbeddedSpec (text : Text) (spec : Node) (path method : String) : Except PyError Node := do
  return ((← findOperation text spec path method).map Prod.snd).getD (.map [])

/-! ### Paths of one endpoint -/

/-- `whole` is `tail` after whole segments. -/
def AfterSegments (whole tail : List Char) : Prop :=
  ∃ before, whole = before ++ tail ∧ (before = [] ∨ tail.head? = some '/' ∨ before.getLast? = some '/')

/-- Equal, or the one is the other after whole segments. -/
def Related (sp path : String) : Prop := AfterSegments sp.toList path.toList ∨ AfterSegments path.toList sp.toList

/-- The paths of a spec. -/
def pathsOf (spec : Node) : List (Scalar × Node) :=
  match (get "paths" (.map []) spec >>= items) with
  | .ok paths => paths
  | .error _ => []

variable {text : Text} {spec : Node} {path method : String}

/-- Some path of the endpoint has the verb. -/
def Offers (text : Text) (spec : Node) (path method : String) : Prop :=
  ∃ sp item, (.str sp, item) ∈ pathsOf spec ∧ Related sp path ∧ (operationOf text method item).isSome

/-- An operation is taken from a path of the endpoint only, and it is if there is one. -/
structure Sound (text : Text) (spec : Node) (path method : String) : Prop where
  related : ∀ sp operation, findOperation text spec path method = .ok (some (sp, operation)) →
    ∃ own, sp = .str own ∧ Related own path
  found : Offers text spec path method → ∃ sp operation, findOperation text spec path method = .ok (some (sp, operation))

/-- The first entry of a spec in the order of trial: the endpoint's path, the same without `/api`, and then
    the paths as they stand, of which each that is not a text ends the search. -/
inductive First (paths : List (Scalar × Node)) (path : String) : String → Node → Prop
  | own {item : Node} : lookup paths path = some item → item.truthy = true → First paths path path item
  | stripped {item : Node} : getTruthy paths path = none → lookup paths (normPath path) = some item →
      item.truthy = true → First paths path (normPath path) item
  | ending {before after : List (Scalar × Node)} {sp : String} {item : Node} : getTruthy paths path = none →
      getTruthy paths (normPath path) = none → paths = before ++ (.str sp, item) :: after →
      (∀ e ∈ before, ∃ other, e.1 = .str other ∧ sameEnd path other = false) → sameEnd path sp = true →
      First paths path sp item

theorem getTruthy_some {paths : List (Scalar × Node)} {key : String} {found : Scalar × Node} :
    getTruthy paths key = some found ↔ ∃ item, lookup paths key = some item ∧ item.truthy = true ∧ found = (.str key, item) := by
  unfold getTruthy
  cases here : lookup paths key with
  | none => simp
  | some item =>
    by_cases truthy : item.truthy = true
    · simp [truthy, @eq_comm _ _ found]
    · simp [truthy]

theorem matchesEnd_text {e : Scalar × Node} {sp : String} (text : e.1 = .str sp) :
    matchesEnd path e = .ok (sameEnd path sp) := by
  rw [matchesEnd, text]

/-- The loop ends at the first path with the same end. -/
theorem firstThat_matchesEnd {paths : List (Scalar × Node)} {e : Scalar × Node} :
    firstThat (matchesEnd path) paths = .ok (some e) ↔
      ∃ before after sp, paths = before ++ e :: after ∧ e.1 = .str sp ∧ sameEnd path sp = true ∧
        ∀ e' ∈ before, ∃ other, e'.1 = .str other ∧ sameEnd path other = false := by
  induction paths with
  | nil =>
    constructor
    · intro found; cases found
    · rintro ⟨before, after, sp, same, -⟩
      exact absurd same (by simp)
  | cons first rest ih =>
    rw [firstThat, bind_ok]
    constructor
    · rintro ⟨hit, tested, tail⟩
      obtain ⟨sp, text, same⟩ : ∃ sp, first.1 = .str sp ∧ sameEnd path sp = hit := by
        unfold matchesEnd at tested
        split at tested
        · rename_i sp text
          exact ⟨sp, text, Except.ok.inj tested⟩
        · cases tested
      cases hit with
      | true =>
        obtain rfl := Option.some.inj (pure_ok.mp tail)
        exact ⟨[], rest, sp, rfl, text, same, by simp⟩
      | false =>
        obtain ⟨before, after, sp', parts, text', same', others⟩ := ih.mp tail
        exact ⟨first :: before, after, sp', by rw [parts]; rfl, text', same',
          List.forall_mem_cons.mpr ⟨⟨sp, text, same⟩, others⟩⟩
    · rintro ⟨before, after, sp, parts, text, same, others⟩
      cases before with
      | nil =>
        obtain ⟨rfl, rfl⟩ := List.cons.inj parts
        exact ⟨true, by rw [matchesEnd_text text, same], rfl⟩
      | cons other before =>
        obtain ⟨rfl, rfl⟩ := List.cons.inj parts
        obtain ⟨⟨missed, text', same'⟩, others⟩ := List.forall_mem_cons.mp others
        exact ⟨false, by rw [matchesEnd_text text', same'], ih.mpr ⟨before, after, sp, rfl, text, same, others⟩⟩

theorem pathItem_iff {paths : List (Scalar × Node)} {found : Scalar × Node} :
    pathItem paths path = .ok (some found) ↔ ∃ sp item, found = (.str sp, item) ∧ First paths path sp item := by
  unfold pathItem
  constructor
  · intro ended
    cases own : getTruthy paths path with
    | some direct =>
      obtain ⟨item, listed, truthy, rfl⟩ := getTruthy_some.mp own
      rw [own] at ended
      obtain rfl := Option.some.inj (Except.ok.inj ended)
      exact ⟨path, item, rfl, .own listed truthy⟩
    | none =>
      cases stripped : getTruthy paths (normPath path) with
      | some direct =>
        obtain ⟨item, listed, truthy, rfl⟩ := getTruthy_some.mp stripped
        rw [own, stripped] at ended
        obtain rfl := Option.some.inj (Except.ok.inj ended)
        exact ⟨normPath path, item, rfl, .stripped own listed truthy⟩
      | none =>
        rw [own, stripped] at ended
        obtain ⟨before, after, sp, parts, text, same, others⟩ := firstThat_matchesEnd.mp ended
        obtain ⟨key, item⟩ := found
        obtain rfl : key = .str sp := text
        exact ⟨sp, item, rfl, .ending own stripped parts others same⟩
  · rintro ⟨sp, item, rfl, first⟩
    cases first with
    | own listed truthy => rw [getTruthy_some.mpr ⟨item, listed, truthy, rfl⟩]
    | stripped own listed truthy => rw [own, getTruthy_some.mpr ⟨item, listed, truthy, rfl⟩]
    | ending own stripped parts others same =>
      rw [own, stripped]
      exact firstThat_matchesEnd.mpr ⟨_, _, sp, parts, rfl, same, others⟩

theorem findOperation_iff {found : Scalar × Node} :
    findOperation text spec path method = .ok (some found) ↔
      ∃ sp item operation, First (pathsOf spec) path sp item ∧ operationOf text method item = some operation ∧
        found = (.str sp, operation) := by
  have search : findOperation text spec path method =
      (get "paths" (.map []) spec >>= items) >>= fun paths => pathItem paths path >>= fun
        | none => pure none
        | some (sp, item) => pure ((operationOf text method item).map (fun operation => (sp, operation))) := by
    rw [bind_assoc]
    rfl
  rw [search]
  unfold pathsOf
  cases unpacked : (get "paths" (.map []) spec >>= items) with
  | error e =>
    constructor
    · intro impossible; cases impossible
    · rintro ⟨sp, item, operation, first, -⟩
      cases first with
      | own listed | stripped _ listed => cases listed
      | ending _ _ parts => exact absurd parts (by simp)
  | ok paths =>
    rw [ok_bind, bind_ok]
    constructor
    · rintro ⟨entry, ended, tail⟩
      cases entry with
      | none => cases tail
      | some entry =>
        obtain ⟨sp, item, rfl, first⟩ := pathItem_iff.mp ended
        obtain ⟨operation, taken, rfl⟩ := Option.map_eq_some_iff.mp (pure_ok.mp tail)
        exact ⟨sp, item, operation, first, taken, rfl⟩
    · rintro ⟨sp, item, operation, first, taken, rfl⟩
      refine ⟨some (.str sp, item), pathItem_iff.mpr ⟨sp, item, rfl, first⟩, ?_⟩
      exact pure_ok.mpr (by rw [taken]; rfl)

/-- The trial has one first entry. -/
theorem First.unique {paths : List (Scalar × Node)} {sp sp' : String} {item item' : Node} (first : First paths path sp item)
    (first' : First paths path sp' item') : sp = sp' ∧ item = item' := by
  have one := pathItem_iff.mpr ⟨sp, item, rfl, first⟩
  have other := pathItem_iff.mpr ⟨sp', item', rfl, first'⟩
  have same := Option.some.inj (Except.ok.inj (one.symm.trans other))
  simpa using same

/-- Where the trial ends at a path of the endpoint that has the verb, or at none with the verb and no path of the
    endpoint has it, the search is sound. -/
theorem sound_of_first (ends : (∃ sp item, First (pathsOf spec) path sp item ∧ Related sp path ∧
      (operationOf text method item).isSome) ∨
    (¬ Offers text spec path method ∧ ∀ sp item, First (pathsOf spec) path sp item → operationOf text method item = none)) :
    Sound text spec path method := by
  rcases ends with ⟨sp, item, first, related, some_operation⟩ | ⟨none_offered, lacking⟩
  · refine ⟨fun sp' operation found => ?_, fun _ => ?_⟩
    · obtain ⟨own, item', _, first', -, same⟩ := findOperation_iff.mp found
      obtain ⟨rfl, -⟩ := first.unique first'
      exact ⟨sp, (Prod.mk.inj same).1, related⟩
    · obtain ⟨operation, has⟩ := Option.isSome_iff_exists.mp some_operation
      exact ⟨.str sp, operation, findOperation_iff.mpr ⟨sp, item, operation, first, has, rfl⟩⟩
  · refine ⟨fun sp' operation found => ?_, fun offered => absurd offered none_offered⟩
    obtain ⟨sp, item, _, first, has, -⟩ := findOperation_iff.mp found
    rw [lacking sp item first] at has
    cases has

/-- The search is sound exactly if the first path of the trial has the verb and is one of the endpoint, or it
    lacks the verb, if there is one, and no path of the endpoint has it. -/
theorem operation_sound_iff (text : Text) (spec : Node) (path method : String) :
    Sound text spec path method ↔
      (∃ sp item, First (pathsOf spec) path sp item ∧ Related sp path ∧ (operationOf text method item).isSome) ∨
      (¬ Offers text spec path method ∧
        ∀ sp item, First (pathsOf spec) path sp item → operationOf text method item = none) := by
  refine ⟨fun sound => ?_, sound_of_first⟩
  by_cases taken : ∃ sp item, First (pathsOf spec) path sp item ∧ (operationOf text method item).isSome
  · obtain ⟨sp, item, first, some_operation⟩ := taken
    obtain ⟨operation, has⟩ := Option.isSome_iff_exists.mp some_operation
    obtain ⟨own, same, related⟩ :=
      sound.related _ _ (findOperation_iff.mpr ⟨sp, item, operation, first, has, rfl⟩)
    obtain rfl : sp = own := by simpa using same
    exact .inl ⟨sp, item, first, related, some_operation⟩
  · refine .inr ⟨fun offered => ?_, fun sp item first => ?_⟩
    · obtain ⟨_, _, found⟩ := sound.found offered
      obtain ⟨sp, item, operation, first, has, -⟩ := findOperation_iff.mp found
      exact taken ⟨sp, item, first, by rw [has]; rfl⟩
    · by_contra has
      exact taken ⟨sp, item, first, Option.isSome_iff_ne_none.mpr has⟩

/-! ### Specs whose paths end alike by whole segments -/

/-- The paths of a spec are texts, those that end like the endpoint's path do so by whole segments, and of
    those that do all have the verb or none. -/
structure Whole (text : Text) (spec : Node) (path method : String) : Prop where
  texts : ∀ e ∈ pathsOf spec, ∃ sp, e.1 = .str sp
  whole : ∀ sp item, (.str sp, item) ∈ pathsOf spec → sameEnd path sp = true → Related sp path
  alike : ∀ sp item sp' item', (.str sp, item) ∈ pathsOf spec → (.str sp', item') ∈ pathsOf spec → Related sp path →
    Related sp' path → (operationOf text method item).isSome → (operationOf text method item').isSome

theorem AfterSegments.refl (path : List Char) : AfterSegments path path := ⟨[], rfl, .inl rfl⟩

theorem AfterSegments.suffix {whole tail : List Char} (after : AfterSegments whole tail) : tail <:+ whole := by
  obtain ⟨before, same, -⟩ := after
  exact ⟨before, same.symm⟩

theorem related_normPath (path : String) : Related (normPath path) path := by
  unfold normPath
  split
  · rename_i rest same
    refine .inr ⟨['/', 'a', 'p', 'i'], ?_, .inr (.inl ?_)⟩
    · rw [same, String.toList_ofList]; rfl
    · rw [String.toList_ofList]; rfl
  · exact .inl (.refl _)

/-- A path of the endpoint ends like it. -/
theorem sameEnd_of_related {sp : String} (related : Related sp path) : sameEnd path sp = true := by
  rcases related with after | after
  · have stripped : stripSlashes path <:+ path.toList := List.dropWhile_suffix _
    simp [sameEnd, stripped.trans after.suffix]
  · simp [sameEnd, after.suffix]

theorem First.related (whole : Whole text spec path method) {sp : String} {item : Node}
    (first : First (pathsOf spec) path sp item) : (.str sp, item) ∈ pathsOf spec ∧ Related sp path := by
  cases first with
  | own listed _ => exact ⟨lookup_mem listed, .inl (.refl _)⟩
  | stripped _ listed _ => exact ⟨lookup_mem listed, related_normPath path⟩
  | ending _ _ parts _ same =>
    have member : (.str sp, item) ∈ pathsOf spec := by rw [parts]; simp
    exact ⟨member, whole.whole sp item member same⟩

/-- Where a path ends alike, the trial ends at one. -/
theorem exists_first (texts : ∀ e ∈ pathsOf spec, ∃ sp, e.1 = .str sp) {sp : String} {item : Node}
    (member : (.str sp, item) ∈ pathsOf spec) (same : sameEnd path sp = true) :
    ∃ sp item, First (pathsOf spec) path sp item := by
  cases own : getTruthy (pathsOf spec) path with
  | some found =>
    obtain ⟨item, listed, truthy, -⟩ := getTruthy_some.mp own
    exact ⟨path, item, .own listed truthy⟩
  | none => cases stripped : getTruthy (pathsOf spec) (normPath path) with
    | some found =>
      obtain ⟨item, listed, truthy, -⟩ := getTruthy_some.mp stripped
      exact ⟨normPath path, item, .stripped own listed truthy⟩
    | none =>
      have hit : ((pathsOf spec).find? (fun e => (matchesEnd path e).toOption = some true)).isSome :=
        List.find?_isSome.mpr ⟨_, member, by rw [matchesEnd_text rfl, same]; rfl⟩
      obtain ⟨⟨key, item⟩, found⟩ := Option.isSome_iff_exists.mp hit
      obtain ⟨passed, before, after, parts, others⟩ := List.find?_eq_some_iff_append.mp found
      obtain ⟨sp, text⟩ := texts (key, item) (by rw [parts]; simp)
      obtain rfl : key = .str sp := text
      refine ⟨sp, item, .ending own stripped parts (fun e early => ?_) (by simpa [matchesEnd, Except.toOption] using passed)⟩
      obtain ⟨other, text⟩ := texts e (by rw [parts]; exact List.mem_append_left _ early)
      exact ⟨other, text, by simpa [matchesEnd_text text, Except.toOption] using others e early⟩

/-- In such a spec the search is sound, whatever the order of its paths. -/
theorem operation_sound_of_whole (whole : Whole text spec path method) : Sound text spec path method := by
  refine sound_of_first ?_
  by_cases offered : Offers text spec path method
  · obtain ⟨sp, item, member, related, some_operation⟩ := offered
    obtain ⟨sp', item', first⟩ := exists_first whole.texts member (sameEnd_of_related related)
    obtain ⟨member', related'⟩ := first.related whole
    exact .inl ⟨sp', item', first, related', whole.alike sp item sp' item' member member' related related' some_operation⟩
  · refine .inr ⟨offered, fun sp item first => ?_⟩
    obtain ⟨member, related⟩ := first.related whole
    by_contra has
    exact offered ⟨sp, item, member, related, Option.isSome_iff_ne_none.mpr has⟩

/-! ### Another endpoint's operation -/

def plainText : Text where
  lower text := String.ofList (text.toList.map Char.toLower)
  isdigit := Char.isDigit
  isspace := Char.isWhitespace
  str _ := ""

/-- A spec with one path, which has GET. -/
def specOf (sp : String) : Node :=
  .map [(.str "paths", .map [(.str sp, .map [(.str "get", .map [(.str "summary", .scalar (.str "GET"))])])])]

/-- `/my-accounts` ends like `/accounts`, in the middle of a segment. -/
theorem my_accounts_taken : ¬ ∀ text spec path method, Sound text spec path method := by
  intro every
  have taken : findOperation plainText (specOf "/my-accounts") "/accounts" "GET" =
      .ok (some (.str "/my-accounts", .map [(.str "summary", .scalar (.str "GET"))])) := by rfl
  obtain ⟨own, same, related⟩ := (every plainText (specOf "/my-accounts") "/accounts" "GET").related _ _ taken
  obtain rfl : "/my-accounts" = own := by simpa using same
  rcases related with after | after
  · exact absurd after.suffix (by decide)
  · exact absurd after.suffix (by decide)

end ScanApi.AlfaEmbedded
