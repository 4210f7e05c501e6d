import ScanApi.EntryOrder
import ScanApi.OpenApi

/-!
Reading a reordered spec. The parser reads mappings in document order, and in two
places it takes the first candidate: the response among several successful ones,
and the media type among several usable ones. Where neither is left to the order
(`Decisive`), the same methods with the same fields are read
(`specMethods_reordered`).
-/
namespace ScanApi.Reordering
open ScanApi.Raising ScanApi.Yaml ScanApi.Python ScanApi.Refs ScanApi.Fields ScanApi.Examples ScanApi.OpenApi
  ScanApi.EntryOrder

variable {docs docs' : Documents (Except PyError)} {site site' : Site}

/-! ### Fields -/

section
variable {n n' : Node} (related : Reordered n n')
include related

theorem firstOf_reordered : ∀ keys : List String, Agree (Option.Rel Reordered) (firstOf n keys) (firstOf n' keys) := by
  intro keys
  induction keys with
  | nil => exact agree_pure .none
  | cons key rest ih =>
    simp only [firstOf, ← contains_reordered related]
    refine agree_bind (agree_same rfl) (fun present _ same => ?_)
    subst same
    refine agree_ite rfl (agree_bind (item_reordered related key) (fun value value' pair => ?_)) ih
    exact agree_pure (.some pair)

theorem combined_reordered : Agree (Option.Rel Reordered) (combined n) (combined n') := firstOf_reordered related _

theorem get?_reordered (key : String) : Agree Reordered (get? key n) (get? key n') :=
  get_reordered related key (.scalar .null)

theorem isObjectSchema_reordered : Agree (· = ·) (isObjectSchema n) (isObjectSchema n') := by
  simp only [isObjectSchema, ← contains_reordered related]
  refine agree_bind (get?_reordered related _) (fun type type' pair => ?_)
  exact agree_ite (isStr_reordered pair _) (agree_pure rfl) (agree_same rfl)

theorem isArraySchema_reordered : Agree (· = ·) (isArraySchema n) (isArraySchema n') := by
  simp only [isArraySchema, ← contains_reordered related]
  refine agree_bind (get?_reordered related _) (fun type type' pair => ?_)
  exact agree_ite (isStr_reordered pair _) (agree_pure rfl) (agree_same rfl)

end

/-- The same elements in some order. -/
abbrev SameElements {α : Type} : List α → List α → Prop := Matches (· = ·)

theorem sameElements_iff {α : Type} {l l' : List α} : SameElements l l' ↔ l.Perm l' := by
  rw [SameElements, Matches, Multiset.rel_eq, Multiset.coe_eq_coe]

theorem propertyFields_reordered {nested : Bool} {deeper deeper' : Scalar → Site → Except PyError (List Scalar)}
    (below : ∀ name site site', ReorderedSite site site' → Agree SameElements (deeper name site) (deeper' name site'))
    (place : ReorderedSite site site') {namePrefix : Scalar} {e e' : Scalar × Node} (pair : ReorderedEntry e e') :
    Agree SameElements (propertyFields nested deeper namePrefix site e)
      (propertyFields nested deeper' namePrefix site' e') := by
  obtain ⟨name, value⟩ := pair
  simp only [propertyFields, ← name]
  refine agree_ite rfl (agree_bind (below _ _ _ (site_at place value)) (fun l l' same => ?_)) ?_
  · exact agree_pure (matches_cons rfl same)
  · exact agree_pure (matches_cons rfl matches_nil)

theorem schemaFields_reordered {nested : Bool} {deeper deeper' : Scalar → Site → Except PyError (List Scalar)}
    (below : ∀ name site site', ReorderedSite site site' → Agree SameElements (deeper name site) (deeper' name site'))
    (place : ReorderedSite site site') {namePrefix : Scalar} :
    Agree SameElements (schemaFields nested deeper namePrefix site) (schemaFields nested deeper' namePrefix site') := by
  simp only [schemaFields, py_except]
  refine agree_bind (combined_reordered place.schema) (fun subs subs' found => ?_)
  cases found with
  | some pair =>
    refine agree_bind (iter_reordered pair) (fun l l' matched => ?_)
    exact agree_extend (fun sub sub' pair => below _ _ _ (site_at place pair)) matched
  | none =>
    refine agree_bind (isObjectSchema_reordered place.schema) (fun object _ same => ?_)
    subst same
    refine agree_ite rfl ?_ ?_
    · refine agree_bind (get_reordered place.schema _ reordered_empty) (fun properties properties' pair => ?_)
      refine agree_bind (items_reordered pair) (fun entries entries' matched => ?_)
      exact agree_extend (fun e e' pair => propertyFields_reordered below place pair) matched.1
    · refine agree_bind (isArraySchema_reordered place.schema) (fun array _ same => ?_)
      subst same
      refine agree_ite rfl ?_ (agree_pure matches_nil)
      refine agree_bind (get_reordered place.schema _ reordered_empty) (fun schema schema' pair => ?_)
      exact below _ _ _ (site_at place pair)

/-- A reordered schema has the same fields. -/
theorem extractFields_reordered (files : ReorderedFiles docs docs') :
    ∀ (room : Nat) (namePrefix : Scalar) (site site' : Site),
    ReorderedSite site site' →
      Agree SameElements (extractFields docs room namePrefix site) (extractFields docs' room namePrefix site') := by
  intro room
  induction room with
  | zero => intro namePrefix site site' _; exact agree_pure matches_nil
  | succ room ih =>
    intro namePrefix site site' place
    simp only [extractFields]
    refine agree_bind (enter_reordered place files) (fun target target' reached => ?_)
    cases reached with
    | none => exact agree_pure matches_nil
    | some reached => exact schemaFields_reordered ih reached

/-! ### Choices -/

/-- A body has at most one JSON media type and, where it has none, at most one
    that is usable. -/
def OneMedia (text : Text) (content : Node) : Prop :=
  ∀ entries, items content = .ok entries → Single (isJsonEntry text) entries ∧
    ((∀ e ∈ entries, isJsonEntry text e = .ok false) → Single (isUsableEntry text) entries)

/-- At most one candidate is preferred and, where none is, there is at most one. -/
def Decided (candidates : List (String × Site)) : Prop :=
  (∀ c ∈ candidates, ∀ c' ∈ candidates, isPreferred c.1 → isPreferred c'.1 → c = c') ∧
    ((∀ c ∈ candidates, ¬ isPreferred c.1) → ∀ c ∈ candidates, ∀ c' ∈ candidates, c = c')

/-- Nothing about the operation's response is left to the order of the document. -/
structure DecisiveResponse (text : Text) (docs : Documents (Except PyError)) (site : Site) (operation : Node) : Prop where
  statuses : ∀ responses entries, get "responses" (.map []) operation = .ok responses → items responses = .ok entries →
    (entries.map (fun e => strScalar e.1)).Nodup
  response : ∀ responses cs, get "responses" (.map []) operation = .ok responses →
    candidates text docs site responses = .ok cs → Decided cs
  media : ∀ responses ok content, get "responses" (.map []) operation = .ok responses →
    selectResponse text docs site responses = .ok (some ok) → get "content" (.map []) ok.schema = .ok content →
    OneMedia text content

/-- Nor about its request body. -/
def DecisiveRequest (text : Text) (operation : Node) : Prop :=
  ∀ body content, get "requestBody" (.map []) operation = .ok body → get "content" (.map []) body = .ok content →
    OneMedia text content

/-- What is read of an operation is decisive: the request for POST, PUT and PATCH, and the response
    for all others and where the request has no fields. -/
structure Decisive (text : Text) (docs : Documents (Except PyError)) (site : Site) (httpVerb : String) (operation : Node) :
    Prop where
  request : hasRequestBody httpVerb = true → DecisiveRequest text operation
  response : (hasRequestBody httpVerb = true → extractRequestBodyFields text docs site operation = .ok []) →
    DecisiveResponse text docs site operation

theorem isJsonEntry_reordered (text : Text) {e e' : Scalar × Node} (pair : ReorderedEntry e e') :
    isJsonEntry text e = isJsonEntry text e' := by
  simp only [isJsonEntry, pair.1]

/-- Whether a key has a value that counts. -/
theorem bind_get?_reordered {α : Type} {n n' : Node} (related : Reordered n n') (key : String)
    (f : Bool → Except PyError α) : (get? key n >>= fun v => f v.truthy) = (get? key n' >>= fun v => f v.truthy) := by
  cases related with
  | map distinct perm keys values =>
    have pair := rel_getD (lookup_reordered (.map distinct perm keys values) key) (.scalar .null)
    exact congrArg f (truthy_reordered pair)
  | scalar | list | set => rfl

theorem isUsableEntry_reordered (text : Text) {e e' : Scalar × Node} (pair : ReorderedEntry e e') :
    isUsableEntry text e = isUsableEntry text e' := by
  obtain ⟨key, related⟩ := pair
  simp only [isUsableEntry, key, ← isDict_reordered related, ← contains_reordered related]
  refine congrArg _ (funext fun mediaType => ?_)
  split
  · rfl
  · split
    · rfl
    · have last := bind_get?_reordered related "examples" (fun b => pure b)
      rw [bind_get?_reordered related "schema" (fun b => if b then pure true else do
        if ← contains "example" e.2 then pure true else do
          let v ← get? "examples" e.2
          pure v.truthy), last]

theorem pickMediaType_reordered {text : Text} {content content' : Node} (related : Reordered content content')
    (one : OneMedia text content) : Agree Reordered (pickMediaType text content) (pickMediaType text content') := by
  simp only [pickMediaType]
  refine agree_ite (by rw [truthy_reordered related]) (agree_pure (.scalar .null)) ?_
  refine agree_bind_of (items_reordered related) (fun entries entries' read _ matched => ?_)
  obtain ⟨json, usable⟩ := one entries read
  refine agree_bind_of (agree_firstThat (fun _ _ pair => isJsonEntry_reordered text pair) matched.1 json)
    (fun e e' first _ found => ?_)
  cases found with
  | some pair => exact agree_pure pair.2
  | none =>
    have single := usable (firstThat_none first)
    refine agree_bind (agree_firstThat (fun _ _ pair => isUsableEntry_reordered text pair) matched.1 single)
      (fun e e' found => ?_)
    cases found with
    | some pair => exact agree_pure pair.2
    | none => exact agree_pure (.scalar .null)

/-! ### Responses and requests -/

/-- The same status with a response at the same place. -/
def ReorderedResponse (c c' : String × Site) : Prop := c.1 = c'.1 ∧ ReorderedSite c.2 c'.2

theorem isRef_reordered {n n' : Node} (related : Reordered n n') : isRef n = isRef n' := by
  simp only [isRef, ← isDict_reordered related, ← contains_reordered related]

theorem normalized_reordered {responses responses' : Node} (related : Reordered responses responses')
    (distinct : ∀ entries, items responses = .ok entries → (entries.map (fun e => strScalar e.1)).Nodup) :
    Agree (fun d d' => Matches (fun e e' => e.1 = e'.1 ∧ Reordered e.2 e'.2) d.entries d'.entries)
      (normalized responses) (normalized responses') := by
  simp only [normalized]
  refine agree_ite (by rw [truthy_reordered related]) (agree_pure matches_nil) ?_
  refine agree_bind_of (items_reordered related) (fun entries entries' read _ matched => agree_pure ?_)
  have texts : Matches (fun e e' => e.1 = e'.1 ∧ Reordered e.2 e'.2) (entries.map (fun e => (strScalar e.1, e.2)))
      (entries'.map (fun e => (strScalar e.1, e.2))) :=
    matches_map (fun e e' pair => ⟨congrArg strScalar pair.1, pair.2⟩) matched.1
  have moved : (entries.map (fun e => strScalar e.1)).Perm (entries'.map (fun e => strScalar e.1)) :=
    sameElements_iff.mp (matches_map (fun e e' pair => congrArg strScalar pair.1) matched.1)
  have once := distinct entries read
  rw [Dict.entries_ofEntries (by simpa [List.map_map, Function.comp_def] using once),
    Dict.entries_ofEntries (by simpa [List.map_map, Function.comp_def] using moved.nodup_iff.mp once)]
  exact texts

section
variable (place : ReorderedSite site site') (files : ReorderedFiles docs docs')
include place files

theorem responseSite_reordered {entry entry' : Node} (related : Reordered entry entry') :
    Agree ReorderedSite (responseSite docs site entry) (responseSite docs' site' entry') := by
  simp only [responseSite, py_except, ← isRef_reordered related]
  refine agree_bind (agree_same rfl) (fun reference _ same => ?_)
  subst same
  refine agree_ite rfl (agree_bind (item_reordered related _) (fun ref ref' pair => ?_))
    (agree_pure (site_at place related))
  have fresh : ReorderedSite { site with seen := ∅ } { site' with seen := ∅ } :=
    ⟨place.schema, place.spec, place.specUrl, rfl⟩
  exact resolveRef_reordered fresh files pair

theorem candidate_reordered {text : Text} {e e' : String × Node} (status : e.1 = e'.1) (related : Reordered e.2 e'.2) :
    Agree (Matches ReorderedResponse) (candidate text docs site e) (candidate text docs' site' e') := by
  simp only [candidate, py_except, ← status]
  refine agree_ite rfl (agree_pure matches_nil) (agree_bind (responseSite_reordered place files related) ?_)
  intro target target' reached
  have one : Matches ReorderedResponse [(e.1, target)] [(e.1, target')] := matches_cons ⟨rfl, reached⟩ matches_nil
  refine agree_ite (by rw [isDict_reordered reached.schema]) (agree_pure matches_nil) ?_
  refine agree_bind (get?_reordered reached.schema _) (fun content content' pair => ?_)
  refine agree_ite (truthy_reordered pair) (agree_pure one) ?_
  refine agree_bind (get?_reordered reached.schema _) (fun schema schema' pair => ?_)
  exact agree_ite (truthy_reordered pair) (agree_pure one) (agree_pure matches_nil)

theorem candidates_reordered {text : Text} {responses responses' : Node} (related : Reordered responses responses')
    (distinct : ∀ entries, items responses = .ok entries → (entries.map (fun e => strScalar e.1)).Nodup) :
    Agree (Matches ReorderedResponse) (candidates text docs site responses) (candidates text docs' site' responses') := by
  simp only [candidates, py_except]
  refine agree_bind (normalized_reordered related distinct) (fun d d' matched => ?_)
  exact agree_extend (fun e e' pair => candidate_reordered place files pair.1 pair.2) matched

end

theorem bodyFields_reordered (files : ReorderedFiles docs docs') {ok ok' : Site} (reached : ReorderedSite ok ok')
    {schema schema' : Node} (pair : Reordered schema schema') :
    Agree SameElements (bodyFields docs ok schema) (bodyFields docs' ok' schema') :=
  extractFields_reordered files 5 _ _ _ ⟨pair, reached.spec, reached.specUrl, rfl⟩

theorem found_preferred {cs : List (String × Site)} {c : String × Site}
    (found : cs.find? (fun c => isPreferred c.1) = some c) : c ∈ cs ∧ isPreferred c.1 := by
  have preferred := @List.find?_some _ (fun c : String × Site => isPreferred c.1) _ _ found
  exact ⟨List.mem_of_find?_eq_some found, preferred⟩

/-- A decided choice does not depend on the order. -/
theorem choose_reordered {cs cs' : List (String × Site)} (matched : Matches ReorderedResponse cs cs')
    (decided : Decided cs) :
    Option.Rel ReorderedSite (choose cs) (choose cs') := by
  obtain ⟨onePreferred, oneOther⟩ := decided
  unfold choose
  cases left : cs.find? (fun c => isPreferred c.1) with
  | some c =>
    obtain ⟨member, preferred⟩ := found_preferred left
    obtain ⟨c', member', status, _⟩ := matches_left matched member
    cases right : cs'.find? (fun c => isPreferred c.1) with
    | none => exact absurd (status ▸ preferred) (List.find?_eq_none.mp right c' member')
    | some d' =>
      obtain ⟨inside, preferred'⟩ := found_preferred right
      obtain ⟨d, inside, pair⟩ := matches_right matched inside
      obtain rfl := onePreferred c member d inside preferred (by rw [pair.1]; exact preferred')
      exact .some pair.2
  | none =>
    have missed := List.find?_eq_none.mp left
    cases right : cs'.find? (fun c => isPreferred c.1) with
    | some d' =>
      obtain ⟨inside, preferred'⟩ := found_preferred right
      obtain ⟨d, inside, pair⟩ := matches_right matched inside
      exact absurd (by rw [pair.1]; exact preferred') (missed d inside)
    | none =>
      have single := oneOther missed
      cases cs with
      | nil =>
        obtain rfl := matches_nil_left matched
        exact .none
      | cons c rest =>
        cases cs' with
        | nil =>
          obtain ⟨_, impossible, _⟩ := matches_left matched List.mem_cons_self
          cases impossible
        | cons c' rest' =>
          obtain ⟨d, member, pair⟩ := matches_right matched List.mem_cons_self
          obtain rfl := single c List.mem_cons_self d member
          exact .some pair.2

/-- A list of parameters keeps its order; what is no list has no parameters. -/
theorem bodyParameter_reordered {l l' : List Node} (matched : List.Forall₂ Reordered l l' ∨
    ∃ scalars scalars' : List Scalar, scalars.Perm scalars' ∧ l = scalars.map .scalar ∧ l' = scalars'.map .scalar) :
    Agree (Option.Rel Reordered) (bodyParameter l) (bodyParameter l') := by
  rcases matched with items | ⟨scalars, scalars', perm, rfl, rfl⟩
  · induction items with
    | nil => exact agree_pure .none
    | cons head _ ih =>
      simp only [bodyParameter]
      refine agree_bind (get?_reordered head _) (fun place place' pair => ?_)
      refine agree_ite (isStr_reordered pair _) ?_ ih
      refine agree_bind (get_reordered head _ reordered_empty) (fun schema schema' pair => ?_)
      exact agree_ite (truthy_reordered pair) (agree_pure (.some pair)) ih
  · cases scalars with
    | nil =>
      obtain rfl := perm.nil_eq
      exact agree_pure .none
    | cons scalar rest => intro _ _ impossible; cases impossible

section
variable {operation operation' : Node} {text : Text} (place : ReorderedSite site site') (files : ReorderedFiles docs docs')
  (related : Reordered operation operation')
include place files related

theorem extractResponse200Fields_reordered (decisive : DecisiveResponse text docs site operation) :
    Agree SameElements (extractResponse200Fields text docs site operation)
      (extractResponse200Fields text docs' site' operation') := by
  simp only [extractResponse200Fields, py_except]
  refine agree_bind_of (get_reordered related _ reordered_empty) (fun responses responses' read _ pair => ?_)
  have chosen : Agree (Option.Rel ReorderedSite) (selectResponse text docs site responses)
      (selectResponse text docs' site' responses') := by
    refine agree_map (candidates_reordered place files pair (decisive.statuses _ · read)) (fun cs cs' ran _ matched => ?_)
    exact choose_reordered matched (decisive.response _ _ read ran)
  refine agree_bind_of chosen (fun ok ok' selected _ reached => ?_)
  cases reached with
  | none => exact agree_pure matches_nil
  | some reached =>
    refine agree_bind_of (get_reordered reached.schema _ reordered_empty) (fun content content' found _ pair => ?_)
    refine agree_ite (truthy_reordered pair) ?_ ?_
    · refine agree_bind (pickMediaType_reordered pair (decisive.media _ _ _ read selected found)) ?_
      intro data data' pair
      refine agree_ite (isNone_reordered pair) (agree_pure matches_nil) ?_
      exact agree_bind (get_reordered pair _ reordered_empty) (fun _ _ pair => bodyFields_reordered files reached pair)
    · refine agree_bind (get_reordered reached.schema _ reordered_empty) (fun schema schema' pair => ?_)
      exact agree_ite (truthy_reordered pair) (bodyFields_reordered files reached pair) (agree_pure matches_nil)

theorem requestBodyFields_reordered (decisive : DecisiveRequest text operation) :
    Agree SameElements (requestBodyFields text docs site operation) (requestBodyFields text docs' site' operation') := by
  simp only [requestBodyFields, py_except]
  refine agree_bind_of (get_reordered related _ reordered_empty) (fun body body' read _ pair => ?_)
  refine agree_ite (by rw [truthy_reordered pair]) (agree_pure matches_nil) ?_
  refine agree_bind_of (get_reordered pair _ reordered_empty) (fun content content' found _ pair => ?_)
  refine agree_bind (pickMediaType_reordered pair (decisive _ _ read found)) (fun data data' pair => ?_)
  refine agree_ite (isNone_reordered pair) (agree_pure matches_nil) ?_
  exact agree_bind (get_reordered pair _ reordered_empty) (fun _ _ pair => bodyFields_reordered files place pair)

theorem parameterFields_reordered :
    Agree SameElements (parameterFields docs site operation) (parameterFields docs' site' operation') := by
  have noParameters : Reordered (.list []) (.list []) := .list .nil
  simp only [parameterFields, py_except]
  refine agree_bind (get_reordered related _ noParameters) (fun parameters parameters' pair => ?_)
  refine agree_bind (iter_cases pair) (fun l l' matched => ?_)
  refine agree_bind (bodyParameter_reordered matched) (fun schema schema' found => ?_)
  cases found with
  | none => exact agree_pure matches_nil
  | some pair => exact bodyFields_reordered files place pair

theorem extractRequestBodyFields_reordered (decisive : DecisiveRequest text operation) :
    Agree SameElements (extractRequestBodyFields text docs site operation)
      (extractRequestBodyFields text docs' site' operation') := by
  simp only [extractRequestBodyFields]
  refine agree_bind (requestBodyFields_reordered place files related decisive) (fun fields fields' same => ?_)
  refine agree_ite (by rw [matches_isEmpty same]) (agree_pure same) ?_
  exact parameterFields_reordered place files related

theorem extractFieldsForMethod_reordered {httpVerb : String} (decisive : Decisive text docs site httpVerb operation) :
    Agree SameElements (extractFieldsForMethod text docs site httpVerb operation)
      (extractFieldsForMethod text docs' site' httpVerb operation') := by
  simp only [extractFieldsForMethod]
  cases has : hasRequestBody httpVerb with
  | false =>
    have unasked := decisive.response (fun asked => by rw [has] at asked; cases asked)
    exact extractResponse200Fields_reordered place files related unasked
  | true =>
    simp only [if_true]
    have request := extractRequestBodyFields_reordered place files related (decisive.request has)
    refine agree_bind_of request (fun fields fields' read _ same => ?_)
    cases fields with
    | nil =>
      obtain rfl := matches_nil_left same
      have response := decisive.response (fun _ => read)
      exact extractResponse200Fields_reordered place files related response
    | cons field rest =>
      rw [← matches_isEmpty same]
      exact agree_pure same

end

/-! ### Methods -/

/-- The same method but for the order of its fields and of what its texts hold. -/
structure SameMethod (method method' : RawMethod) : Prop where
  serviceName : method.serviceName = method'.serviceName
  httpMethod : method.httpMethod = method'.httpMethod
  path : method.path = method'.path
  summary : Reordered method.summary method'.summary
  fields : SameElements method.response200Fields method'.response200Fields

theorem taggedMethod_reordered {portal : Portal} {opId opId' : Node} {method method' : RawMethod}
    (same : ∀ serviceName urlOnPortal urlOnPortal',
      SameMethod { method with serviceName, urlOnPortal } { method' with serviceName, urlOnPortal := urlOnPortal' })
    {tag tag' : Node} (related : Reordered tag tag') :
    Agree (Matches SameMethod) (taggedMethod portal opId method tag : Except PyError (List RawMethod))
      (taggedMethod portal opId' method' tag') := by
  simp only [taggedMethod, py_except, isExcluded, ← lower_reordered related, ← hashable_reordered related]
  refine agree_bind (agree_same rfl) (fun skipped _ equal => ?_)
  subst equal
  refine agree_ite rfl (agree_pure matches_nil) (agree_bind (agree_any _ _) (fun url url' _ => ?_))
  refine agree_bind (agree_same rfl) (fun name _ equal => ?_)
  subst equal
  exact agree_pure (matches_cons (same name url url') matches_nil)

theorem tagsOf_reordered {operation operation' : Node} (related : Reordered operation operation') :
    Agree (Matches Reordered) (tagsOf operation) (tagsOf operation') := by
  simp only [tagsOf]
  refine agree_bind (get?_reordered related _) (fun tags tags' pair => ?_)
  refine agree_ite (truthy_reordered pair) (iter_reordered pair) (agree_pure ?_)
  exact matches_cons (.scalar _) matches_nil

section
variable {portal : Portal} (place : ReorderedSite site site') (files : ReorderedFiles docs docs')
include place files

theorem operationMethods_reordered {path : Scalar} {httpVerb upper : String} {operation operation' : Node}
    (related : Reordered operation operation') (decisive : Decisive portal.text docs site httpVerb operation) :
    Agree (Matches SameMethod) (operationMethods portal docs site path httpVerb upper operation)
      (operationMethods portal docs' site' path httpVerb upper operation') := by
  have text : Reordered (.scalar (.str "")) (.scalar (.str "")) := .scalar _
  simp only [operationMethods, py_except]
  refine agree_bind (get_reordered related _ text) (fun summary summary' same => ?_)
  refine agree_bind (agree_any _ _) (fun _ _ _ => agree_bind (agree_any _ _) (fun _ _ _ => ?_))
  refine agree_bind (extractFieldsForMethod_reordered place files related decisive) (fun fields fields' list => ?_)
  refine agree_bind (agree_any _ _) (fun _ _ _ => agree_bind (agree_any _ _) (fun _ _ _ => ?_))
  refine agree_bind (tagsOf_reordered related) (fun tags tags' matched => ?_)
  refine agree_extend (fun tag tag' pair => taggedMethod_reordered ?_ pair) matched
  exact fun _ _ _ => ⟨rfl, rfl, rfl, same, list⟩

/-- An entry of a path that is an operation of a verb that is read. -/
def DecisiveEntry (text : Text) (docs : Documents (Except PyError)) (site : Site) (e : Scalar × Node) : Prop :=
  ∀ httpVerb upper entries, e = (.str httpVerb, .map entries) → upperVerb httpVerb = some upper →
    Decisive text docs site httpVerb (.map entries)

theorem entryMethods_reordered {path : Scalar} {e e' : Scalar × Node} (pair : ReorderedEntry e e')
    (decisive : DecisiveEntry portal.text docs site e) :
    Agree (Matches SameMethod) (entryMethods portal docs site path e) (entryMethods portal docs' site' path e') := by
  obtain ⟨key, value⟩ := e
  obtain ⟨_, value'⟩ := e'
  obtain ⟨rfl, related⟩ := pair
  cases key with
  | str httpVerb =>
    cases related with
    | map distinct perm keys values =>
      simp only [entryMethods]
      split
      · rename_i upper verb
        exact operationMethods_reordered place files (.map distinct perm keys values) (decisive _ upper _ rfl verb)
      · exact agree_pure matches_nil
    | scalar | list | set => exact agree_pure matches_nil
  | null | bool _ | int _ | float _ | date _ _ | binary _ => exact agree_pure matches_nil

/-- The operations of a path. -/
def DecisivePath (text : Text) (docs : Documents (Except PyError)) (site : Site) (e : Scalar × Node) : Prop :=
  ∀ pathItem, e.2 = .map pathItem → ∀ entry ∈ pathItem, DecisiveEntry text docs site entry

theorem pathMethods_reordered {e e' : Scalar × Node} (pair : ReorderedEntry e e')
    (decisive : DecisivePath portal.text docs site e) :
    Agree (Matches SameMethod) (pathMethods portal docs site e) (pathMethods portal docs' site' e') := by
  obtain ⟨path, value⟩ := e
  obtain ⟨_, value'⟩ := e'
  obtain ⟨rfl, related⟩ := pair
  cases related with
  | map distinct perm keys values =>
    have matched := (Reordered.map distinct perm keys values).entries.2
    refine agree_extend (fun o o' known => ?_) (matches_mem matched)
    exact entryMethods_reordered place files known.2 (decisive _ rfl o known.1)
  | scalar | list | set => exact agree_pure matches_nil

end

/-- Every operation of the spec is decisive. -/
def DecisiveSpec (portal : Portal) (docs : Documents (Except PyError)) (spec : Node) (specUrl : Option String) : Prop :=
  ∀ paths entries, get "paths" (.map []) spec = .ok paths → items paths = .ok entries →
    ∀ e ∈ entries, DecisivePath portal.text docs { schema := .map [], spec, specUrl } e

theorem specMethods_reordered {portal : Portal} (files : ReorderedFiles docs docs') {spec spec' : Node}
    (related : Reordered spec spec') (specUrl : Option String) (decisive : DecisiveSpec portal docs spec specUrl) :
    Agree (Matches SameMethod) (specMethods portal docs spec specUrl) (specMethods portal docs' spec' specUrl) := by
  simp only [specMethods, py_except]
  refine agree_bind_of (get_reordered related _ reordered_empty) (fun paths paths' read _ pair => ?_)
  refine agree_bind_of (items_reordered pair) (fun entries entries' unpacked _ matched => ?_)
  have place : ReorderedSite { schema := .map [], spec, specUrl } { schema := .map [], spec := spec', specUrl } :=
    ⟨reordered_empty, related, rfl, rfl⟩
  refine agree_extend (fun e e' known => ?_) (matches_mem matched.1)
  exact pathMethods_reordered place files known.2 (decisive _ _ read unpacked e known.1)

end ScanApi.Reordering
