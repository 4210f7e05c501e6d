import ScanApi.Declared
import ScanApi.Reordering
import ScanApi.VisibleChanges

/-!
Two snapshots of a reordered spec. Methods with one verb and one path come from
one operation, so where no two operations share a method key and nothing is left
to the order of the document, the second snapshot shows no changes against the
first (`reordered_shows_nothing`).
-/
namespace ScanApi.ReorderedSnapshots
open ScanApi.MapM ScanApi.Raising ScanApi.Yaml ScanApi.Python ScanApi.Refs ScanApi.OpenApi ScanApi.EntryOrder ScanApi.Reordering
  ScanApi.Diff ScanApi.SnapshotImport ScanApi.Declared ScanApi.VisibleChanges

variable {docs docs' : Documents (Except PyError)} {site : Site}

/-! ### One operation, one set of fields -/

/-- The mappings of paths and operations have distinct keys. -/
def DistinctKeys (spec : Node) : Prop :=
  ∀ paths entries, get "paths" (.map []) spec = .ok paths → items paths = .ok entries →
    (entries.map Prod.fst).Nodup ∧ ∀ e ∈ entries, ∀ pathItem, e.2 = .map pathItem → (pathItem.map Prod.fst).Nodup

theorem distinctKeys_of_reordered {spec spec' : Node} (related : Reordered spec spec') : DistinctKeys spec := by
  intro paths entries read unpacked
  cases related with
  | map distinct perm keys values =>
    obtain rfl := Except.ok.inj read
    obtain ⟨paths', pair⟩ : ∃ paths', Reordered ((lookup _ "paths").getD (.map [])) paths' :=
      ⟨_, rel_getD (lookup_reordered (.map distinct perm keys values) "paths") reordered_empty⟩
    generalize (lookup _ "paths").getD (.map []) = paths at pair unpacked
    cases pair with
    | map distinct perm keys values =>
      obtain rfl := Except.ok.inj unpacked
      obtain ⟨once, matched⟩ := (Reordered.map distinct perm keys values).entries
      refine ⟨once, fun e member pathItem same => ?_⟩
      obtain ⟨e', _, _, inner⟩ := matches_left matched member
      rw [same] at inner
      generalize e'.2 = value at inner
      cases inner with
      | map distinct perm keys values => exact distinct
    | scalar | list | set => cases unpacked
  | scalar | list | set => cases read

theorem upperVerb_injective {verb verb' upper : String} (read : upperVerb verb = some upper)
    (read' : upperVerb verb' = some upper) : verb = verb' := by
  unfold upperVerb at read read'
  split at read <;> simp only [Option.some.injEq, reduceCtorEq] at read <;> subst read <;> split at read' <;>
    simp_all

/-- A tag that is not excluded gives the method its service and its link. -/
theorem taggedMethod_ok {portal : Portal} {opId : Node} {method : RawMethod} {tag : Node}
    {part : List RawMethod} (returned : (taggedMethod portal opId method tag : Except PyError _) = .ok part) :
    (isExcluded portal.text portal.excludedTags tag = .ok true ∧ part = []) ∨
    (isExcluded portal.text portal.excludedTags tag = .ok false ∧
      ∃ serviceName urlOnPortal, hashable tag = .ok serviceName ∧ part = [{ method with serviceName, urlOnPortal }]) := by
  simp only [taggedMethod, py_except] at returned
  obtain ⟨excluded, decided, returned⟩ := bind_ok.mp returned
  cases excluded with
  | true => exact .inl ⟨decided, (pure_ok.mp returned).symm⟩
  | false =>
    obtain ⟨urlOnPortal, _, returned⟩ := bind_ok.mp returned
    obtain ⟨serviceName, named, returned⟩ := bind_ok.mp returned
    exact .inr ⟨decided, serviceName, urlOnPortal, named, (pure_ok.mp returned).symm⟩

/-- The methods of an operation are one method under each of its tags. -/
theorem operationMethods_parts {portal : Portal} {path : Scalar} {httpVerb upper : String} {operation : Node}
    {methods : List RawMethod} (returned : operationMethods portal docs site path httpVerb upper operation = .ok methods) :
    ∃ (method : RawMethod) (opId : Node) (tags : List Node),
      get "summary" (.scalar (.str "")) operation = .ok method.summary ∧
      extractFieldsForMethod portal.text docs site httpVerb operation = .ok method.response200Fields ∧
      tagsOf operation = .ok tags ∧ (extend (taggedMethod portal opId method) tags : Except PyError _) = .ok methods ∧
      method.httpMethod = upper ∧ method.path = path := by
  simp only [operationMethods, py_except] at returned
  obtain ⟨summary, read, returned⟩ := bind_ok.mp returned
  obtain ⟨description, _, returned⟩ := bind_ok.mp returned
  obtain ⟨opId, _, returned⟩ := bind_ok.mp returned
  obtain ⟨fields, listed, returned⟩ := bind_ok.mp returned
  obtain ⟨requestExample, _, returned⟩ := bind_ok.mp returned
  obtain ⟨responseExample, _, returned⟩ := bind_ok.mp returned
  obtain ⟨tags, named, looped⟩ := bind_ok.mp returned
  exact ⟨_, opId, tags, read, listed, named, looped, rfl, rfl⟩

/-- All methods of an operation are known by its verb and path, and have its fields. -/
theorem mem_operationMethods {portal : Portal} {path : Scalar} {httpVerb upper : String} {operation : Node}
    {methods : List RawMethod} (returned : operationMethods portal docs site path httpVerb upper operation = .ok methods) :
    ∃ fields, ∀ m ∈ methods, m.httpMethod = upper ∧ m.path = path ∧ m.response200Fields = fields := by
  obtain ⟨method, _, tags, _, _, _, looped, verb, place⟩ := operationMethods_parts returned
  refine ⟨method.response200Fields, fun m member => ?_⟩
  obtain ⟨tag, _, part, ran, inside⟩ := mem_extend looped m member
  rcases taggedMethod_ok ran with ⟨_, rfl⟩ | ⟨_, name, url, _, rfl⟩
  · cases inside
  · obtain rfl := List.mem_singleton.mp inside
    exact ⟨verb, place, rfl⟩

/-- Only a verb with an operation is read. -/
theorem entryMethods_cases {portal : Portal} {path : Scalar} {e : Scalar × Node} {methods : List RawMethod}
    (returned : entryMethods portal docs site path e = .ok methods) :
    (∃ httpVerb operation upper, e = (.str httpVerb, .map operation) ∧ upperVerb httpVerb = some upper ∧
      operationMethods portal docs site path httpVerb upper (.map operation) = .ok methods) ∨
    ((∀ httpVerb operation, e = (.str httpVerb, .map operation) → upperVerb httpVerb = none) ∧ methods = []) := by
  unfold entryMethods at returned
  split at returned
  · rename_i httpVerb operation
    split at returned
    · rename_i upper known
      exact .inl ⟨httpVerb, operation, upper, rfl, known, returned⟩
    · rename_i unknown
      refine .inr ⟨fun _ _ same => ?_, (pure_ok.mp returned).symm⟩
      obtain rfl := Scalar.str.inj (Prod.mk.inj same).1
      exact unknown
  · rename_i other
    exact .inr ⟨fun httpVerb operation same => absurd same (other httpVerb operation), (pure_ok.mp returned).symm⟩

theorem mem_entryMethods {portal : Portal} {path : Scalar} {e : Scalar × Node} {methods : List RawMethod}
    (returned : entryMethods portal docs site path e = .ok methods) {m : RawMethod} (member : m ∈ methods) :
    ∃ httpVerb, e.1 = .str httpVerb ∧ upperVerb httpVerb = some m.httpMethod ∧ m.path = path ∧
      ∀ m' ∈ methods, m'.response200Fields = m.response200Fields := by
  obtain ⟨httpVerb, operation, upper, rfl, known, ran⟩ | ⟨_, rfl⟩ := entryMethods_cases returned
  · obtain ⟨fields, all⟩ := mem_operationMethods ran
    obtain ⟨rfl, rfl, rfl⟩ := all m member
    exact ⟨httpVerb, rfl, known, rfl, fun m' inside => (all m' inside).2.2⟩
  · cases member

theorem mem_pathMethods {portal : Portal} {e : Scalar × Node} {methods : List RawMethod}
    (returned : pathMethods portal docs site e = .ok methods) {m : RawMethod} (member : m ∈ methods) :
    ∃ pathItem, e.2 = .map pathItem ∧
      ∃ o ∈ pathItem, ∃ part, entryMethods portal docs site e.1 o = .ok part ∧ m ∈ part := by
  unfold pathMethods at returned
  split at returned
  · rename_i pathItem same
    exact ⟨pathItem, same, mem_extend returned m member⟩
  · obtain rfl := pure_ok.mp returned
    cases member

/-- Methods with one verb and one path come from one operation. -/
theorem specMethods_sameFields {portal : Portal} {spec : Node} {specUrl : Option String} {methods : List RawMethod}
    (distinct : DistinctKeys spec) (returned : specMethods portal docs spec specUrl = .ok methods) {m m' : RawMethod}
    (member : m ∈ methods) (member' : m' ∈ methods) (sameVerb : m.httpMethod = m'.httpMethod) (samePath : m.path = m'.path) :
    m.response200Fields = m'.response200Fields := by
  simp only [specMethods, py_except] at returned
  obtain ⟨paths, read, returned⟩ := bind_ok.mp returned
  obtain ⟨entries, unpacked, returned⟩ := bind_ok.mp returned
  obtain ⟨once, inner⟩ := distinct paths entries read unpacked
  obtain ⟨e, among, part, ran, inside⟩ := mem_extend returned m member
  obtain ⟨e', among', part', ran', inside'⟩ := mem_extend returned m' member'
  obtain ⟨pathItem, item, o, here, one, listed, found⟩ := mem_pathMethods ran inside
  obtain ⟨pathItem', item', o', here', one', listed', found'⟩ := mem_pathMethods ran' inside'
  obtain ⟨verb, key, upper, path, all⟩ := mem_entryMethods listed found
  obtain ⟨verb', key', upper', path', _⟩ := mem_entryMethods listed' found'
  have sameEntry : e = e' := List.inj_on_of_nodup_map once among among' (path.symm.trans (samePath.trans path'))
  subst sameEntry
  obtain rfl := Node.map.inj (item.symm.trans item')
  have sameKey : verb = verb' := upperVerb_injective upper (sameVerb ▸ upper')
  have sameOperation : o = o' := by
    refine List.inj_on_of_nodup_map (inner e among pathItem item) here here' ?_
    rw [key, key', sameKey]
  subst sameOperation
  obtain rfl := Except.ok.inj (listed.symm.trans listed')
  exact (all m' found').symm

/-! ### Two snapshots -/

/-- All methods of a snapshot. -/
def allMethods (services : Dict Scalar (List RawMethod)) : List RawMethod := services.entries.flatMap Prod.snd

/-- `method_key` of the record of a parsed method. -/
def rawKey (text : Text) (m : RawMethod) : String :=
  if m.path.truthy then m.httpMethod ++ " " ++ strScalar m.path
  else strScalar m.serviceName ++ " / " ++ m.httpMethod ++ " " ++ str text m.summary

/-- A method without a path has a scalar name. -/
def Named (methods : List RawMethod) : Prop := ∀ m ∈ methods, m.path.truthy = true ∨ ∃ value, m.summary = .scalar value

/-- No two operations share a method key. -/
def NoDuplicates (text : Text) (methods : List RawMethod) : Prop :=
  ∀ m ∈ methods, ∀ m' ∈ methods, rawKey text m = rawKey text m' → m.httpMethod = m'.httpMethod ∧ m.path = m'.path

/-- The same method keys, and for each the same fields. -/
structure SameMethods (text : Text) (old new : List RawMethod) : Prop where
  keys : ∀ k, (∃ m ∈ old, rawKey text m = k) ↔ ∃ m ∈ new, rawKey text m = k
  fields : ∀ m ∈ old, ∀ m' ∈ new, rawKey text m = rawKey text m' →
    SameElements m.response200Fields m'.response200Fields

/-- The changes of a snapshot against an earlier one. -/
def changesBetween (old new : ParseSnapshot) : List Change :=
  computeChanges (some (snapshotToRecords old)) (snapshotToRecords new).1 (snapshotToRecords new).2

theorem mem_allMethods {methods : List RawMethod} {m : RawMethod} :
    m ∈ allMethods (Dict.groupBy RawMethod.serviceName id methods) ↔ m ∈ methods := by
  rw [allMethods, List.mem_flatMap]
  constructor
  · rintro ⟨e, member, inside⟩
    exact ((mem_service member).mp inside).1
  · intro known
    obtain ⟨e, member, _, inside⟩ := exists_service known
    exact ⟨e, member, inside⟩

/-- One method read twice has one key. -/
theorem rawKey_sameMethod {text : Text} {m m' : RawMethod} (same : SameMethod m m')
    (named : m.path.truthy = true ∨ ∃ value, m.summary = .scalar value) : rawKey text m = rawKey text m' := by
  simp only [rawKey, ← same.path, ← same.httpMethod, ← same.serviceName]
  rcases named with path | ⟨value, name⟩
  · rw [if_pos path, if_pos path]
  · have related := same.summary
    rw [name] at related ⊢
    generalize m'.summary = summary at related
    cases related
    rfl

theorem methodKey_recordOf {text : Text} {m : RawMethod} {r : MethodRecord} (made : recordOf m = some r) :
    methodKey r = rawKey text m := by
  obtain ⟨texts, service, verb, path, name, _⟩ := recordOf_parts made
  simp [methodKey, rawKey, service, verb, path, name, str, strScalar, Scalar.truthy]

theorem toFinset_of_sameElements {fields fields' : List Scalar} (same : SameElements fields fields')
    {texts texts' : List String} (mapped : fields.mapM scalarText = some texts)
    (mapped' : fields'.mapM scalarText = some texts') : texts.toFinset = texts'.toFinset := by
  ext text
  rw [List.mem_toFinset, List.mem_toFinset, mem_mapM mapped, mem_mapM mapped']
  simp only [(sameElements_iff.mp same).mem_iff]

section
variable {portal : Portal} {spec : Node} {specUrl : Option String} {methods methods' : List RawMethod}

/-- Methods related one to one, where methods of one operation have one key. -/
theorem sameMethods_of_matches (distinct : DistinctKeys spec) (read : specMethods portal docs spec specUrl = .ok methods)
    (matched : Matches SameMethod methods methods') (named : Named methods)
    (noDuplicates : NoDuplicates portal.text methods) : SameMethods portal.text methods methods' where
  keys k := by
    constructor
    · rintro ⟨m, inside, rfl⟩
      obtain ⟨m', inside', pair⟩ := matches_left matched inside
      exact ⟨m', inside', (rawKey_sameMethod pair (named m inside)).symm⟩
    · rintro ⟨m', inside', rfl⟩
      obtain ⟨m, inside, pair⟩ := matches_right matched inside'
      exact ⟨m, inside, rawKey_sameMethod pair (named m inside)⟩
  fields m inside m' inside' sameKey := by
    obtain ⟨q, other, pair⟩ := matches_right matched inside'
    -- The partner has the key of `m`, so it is a method of the same operation.
    obtain ⟨verbs, paths⟩ := noDuplicates m inside q other (sameKey.trans (rawKey_sameMethod pair (named q other)).symm)
    rw [specMethods_sameFields distinct read inside other verbs paths]
    exact pair.fields

/-- Snapshots with the same methods show no changes. -/
theorem changesBetween_eq_nil {text : Text} (matched : Matches SameMethod methods methods')
    (same : SameMethods text methods methods') {snapshot snapshot' : ParseSnapshot}
    (made : declared (Dict.groupBy RawMethod.serviceName id methods) = some snapshot)
    (made' : declared (Dict.groupBy RawMethod.serviceName id methods') = some snapshot') :
    changesBetween snapshot snapshot' = [] := by
  refine computeChanges_eq_nil_of ?_ (fun k => ?_) (fun r member r' member' sameKey => ?_)
  · ext name
    rw [mem_serviceKeys made, mem_serviceKeys made']
    constructor
    · rintro ⟨m, inside, named⟩
      obtain ⟨m', inside', pair⟩ := matches_left matched inside
      exact ⟨m', inside', pair.serviceName.symm.trans named⟩
    · rintro ⟨m', inside', named⟩
      obtain ⟨m, inside, pair⟩ := matches_right matched inside'
      exact ⟨m, inside, pair.serviceName.trans named⟩
  · constructor
    · rintro ⟨r, member, rfl⟩
      obtain ⟨m, inside, one⟩ := (mem_records made).mp member
      obtain ⟨m', inside', sameKey⟩ := (same.keys _).mp ⟨m, inside, rfl⟩
      obtain ⟨r', one'⟩ := recordOf_declared made' inside'
      refine ⟨r', (mem_records made').mpr ⟨m', inside', one'⟩, ?_⟩
      rw [methodKey_recordOf one', sameKey, ← methodKey_recordOf one]
    · rintro ⟨r', member', rfl⟩
      obtain ⟨m', inside', one'⟩ := (mem_records made').mp member'
      obtain ⟨m, inside, sameKey⟩ := (same.keys _).mpr ⟨m', inside', rfl⟩
      obtain ⟨r, one⟩ := recordOf_declared made inside
      refine ⟨r, (mem_records made).mpr ⟨m, inside, one⟩, ?_⟩
      rw [methodKey_recordOf one, sameKey, ← methodKey_recordOf one']
  · obtain ⟨m, inside, one⟩ := (mem_records made).mp member
    obtain ⟨m', inside', one'⟩ := (mem_records made').mp member'
    have sameFields := same.fields m inside m' inside'
      ((methodKey_recordOf one).symm.trans (sameKey.trans (methodKey_recordOf one')))
    obtain ⟨texts, _, _, _, _, fields, set, hidden⟩ := recordOf_parts one
    obtain ⟨texts', _, _, _, _, fields', set', hidden'⟩ := recordOf_parts one'
    rw [hidden, hidden', set, set']
    exact ⟨rfl, toFinset_of_sameElements sameFields fields fields'⟩

end

/-- A spec whose bodies leave nothing to the order of the document gives the same
    methods with the same fields when its mappings are reordered; its snapshots,
    where names and texts are texts, show no changes. -/
theorem reordered_shows_nothing {portal : Portal} (files : ReorderedFiles docs docs') {spec spec' : Node}
    (related : Reordered spec spec') {specUrl : Option String} (decisive : DecisiveSpec portal docs spec specUrl)
    {services services' : Dict Scalar (List RawMethod)} (parsed : parseOpenapiSpec portal docs spec specUrl = .ok services)
    (parsed' : parseOpenapiSpec portal docs' spec' specUrl = .ok services') (named : Named (allMethods services))
    (noDuplicates : NoDuplicates portal.text (allMethods services)) :
    SameMethods portal.text (allMethods services) (allMethods services') ∧
      ∀ snapshot snapshot', declared services = some snapshot → declared services' = some snapshot' →
        changesBetween snapshot snapshot' = [] := by
  rw [parseOpenapiSpec, ← bind_pure_comp] at parsed parsed'
  obtain ⟨methods, read, same⟩ := bind_ok.mp parsed
  obtain rfl := pure_ok.mp same
  obtain ⟨methods', read', same⟩ := bind_ok.mp parsed'
  obtain rfl := pure_ok.mp same
  have matched := specMethods_reordered files related specUrl decisive methods methods' read read'
  simp only [Named, NoDuplicates, mem_allMethods] at named noDuplicates
  have found := sameMethods_of_matches (distinctKeys_of_reordered related) read matched named noDuplicates
  refine ⟨⟨fun k => ?_, fun m inside m' inside' => ?_⟩, fun snapshot snapshot' made made' => ?_⟩
  · simpa only [mem_allMethods] using found.keys k
  · exact found.fields m (mem_allMethods.mp inside) m' (mem_allMethods.mp inside')
  · exact changesBetween_eq_nil matched found made made'

/-! ### Reordered specs -/

def asciiText : Text where
  lower text := String.ofList (text.toList.map Char.toLower)
  isdigit := Char.isDigit
  isspace := Char.isWhitespace
  str _ := ""

/-- A spec with one operation. -/
def specWith (responses : List (Scalar × Node)) : Node :=
  .map [(.str "paths", .map [(.str "/accounts", .map [(.str "get", .map [(.str "responses", .map responses)])])])]

def jsonBody (properties : List (Scalar × Node)) : Node :=
  .map [(.str "content", .map [(.str "application/json",
    .map [(.str "schema", .map [(.str "properties", .map properties)])])])]

theorem reordered_specWith {responses responses' : List (Scalar × Node)}
    (related : Reordered (.map responses) (.map responses')) : Reordered (specWith responses) (specWith responses') :=
  reordered_single _ (reordered_single _ (reordered_single _ (reordered_single _ related)))

theorem reordered_jsonBody {properties properties' : List (Scalar × Node)}
    (related : Reordered (.map properties) (.map properties')) : Reordered (jsonBody properties) (jsonBody properties') :=
  reordered_single _ (reordered_single _ (reordered_single _ (reordered_single _ related)))

def portal : Portal := { text := asciiText, baseUrl := "https://bank" }

/-- An account and an error, each with its properties. -/
def accounts : Node :=
  specWith [(.int 200, jsonBody [(.str "inn", .map []), (.str "kpp", .map [])]), (.str "404", .map [])]

def accountsReordered : Node :=
  specWith [(.str "404", .map []), (.int 200, jsonBody [(.str "kpp", .map []), (.str "inn", .map [])])]

theorem decisive_accounts : DecisiveSpec portal (noFiles _) accounts none := by
  intro paths entries read unpacked e member pathItem same operation inside httpVerb upper parts own verb
  obtain rfl := Except.ok.inj read
  obtain rfl := Except.ok.inj unpacked
  obtain rfl := List.mem_singleton.mp member
  obtain rfl := Node.map.inj same
  obtain rfl := List.mem_singleton.mp inside
  obtain ⟨key, value⟩ := Prod.mk.inj own
  obtain rfl := Scalar.str.inj key
  rw [← value]
  refine ⟨fun asked => absurd asked (by decide), fun _ => ⟨?_, ?_, ?_⟩⟩
  · intro responses entries read unpacked
    obtain rfl := Except.ok.inj read
    obtain rfl := Except.ok.inj unpacked
    decide
  · intro responses cs read ran
    obtain rfl := Except.ok.inj read
    obtain rfl := Except.ok.inj ran
    refine ⟨fun c here c' here' _ _ => ?_, fun _ c here c' here' => ?_⟩ <;>
      rw [List.mem_singleton.mp here, List.mem_singleton.mp here']
  · intro responses ok content read chosen body entries unpacked
    obtain rfl := Except.ok.inj read
    obtain rfl := Option.some.inj (Except.ok.inj chosen)
    obtain rfl := Except.ok.inj body
    obtain rfl := Except.ok.inj unpacked
    exact ⟨single_singleton, fun _ => single_singleton⟩

theorem reordered_shows_nothing_accounts : ∃ services services' snapshot snapshot',
    parseOpenapiSpec portal (noFiles (Except PyError)) accounts none = .ok services ∧
    parseOpenapiSpec portal (noFiles (Except PyError)) accountsReordered none = .ok services' ∧
    declared services = some snapshot ∧ declared services' = some snapshot' ∧
    SameMethods asciiText (allMethods services) (allMethods services') ∧ changesBetween snapshot snapshot' = [] := by
  have related : Reordered accounts accountsReordered := by
    refine reordered_specWith (reordered_swap (by decide) (reordered_jsonBody ?_) reordered_empty)
    exact reordered_swap (by decide) reordered_empty reordered_empty
  have files : ReorderedFiles (noFiles _) (noFiles _) := ⟨rfl, fun _ => agree_pure reordered_empty⟩
  have built : (snapshotOf portal (noFiles _) accounts none).isSome := by decide +kernel
  have built' : (snapshotOf portal (noFiles _) accountsReordered none).isSome := by decide +kernel
  have keys : ((parseOpenapiSpec portal (noFiles (Except PyError)) accounts none).toOption.map
      (fun services => (allMethods services).map (fun m => (m.httpMethod, m.path)))) =
        some [("GET", .str "/accounts")] := by decide +kernel
  obtain ⟨snapshot, found⟩ := Option.isSome_iff_exists.mp built
  obtain ⟨snapshot', found'⟩ := Option.isSome_iff_exists.mp built'
  obtain ⟨services, parsed, made⟩ := Option.bind_eq_some_iff.mp found
  obtain ⟨services', parsed', made'⟩ := Option.bind_eq_some_iff.mp found'
  rw [parsed, Option.map_some, Option.some.injEq] at keys
  rw [toOption_some] at parsed parsed'
  obtain ⟨only, single, key⟩ := List.map_eq_singleton_iff.mp keys
  have path : only.path = .str "/accounts" := congrArg Prod.snd key
  have named : Named (allMethods services) := by
    intro m member
    rw [single, List.mem_singleton] at member
    rw [member, path]
    exact .inl rfl
  have noDuplicates : NoDuplicates asciiText (allMethods services) := by
    intro m member m' member' _
    rw [single, List.mem_singleton] at member member'
    rw [member, member']
    exact ⟨rfl, rfl⟩
  have shown := reordered_shows_nothing files related decisive_accounts parsed parsed' named noDuplicates
  exact ⟨services, services', snapshot, snapshot', parsed, parsed', made, made', shown.1, shown.2 _ _ made made'⟩

/-- Two preferred responses. -/
def twoAnswers : Node :=
  specWith [(.str "200", jsonBody [(.str "inn", .map [])]), (.str "201", jsonBody [(.str "kpp", .map [])])]

def twoAnswersReordered : Node :=
  specWith [(.str "201", jsonBody [(.str "kpp", .map [])]), (.str "200", jsonBody [(.str "inn", .map [])])]

/-- The first of the two is read, and the next day the other one. -/
theorem reordered_shows_change : Reordered twoAnswers twoAnswersReordered ∧
    ((snapshotOf portal (noFiles _) twoAnswers none).bind (fun old =>
      (snapshotOf portal (noFiles _) twoAnswersReordered none).map (changesBetween old))) =
    some [{ changeType := .field, action := .modified, entityName := "GET /accounts"
            entityPath := "Без тега / GET /accounts", url := "https://bank", oldValue := "-inn", newValue := "+kpp" }] := by
  refine ⟨?_, by decide +kernel⟩
  refine reordered_specWith (reordered_swap (by decide) ?_ ?_) <;>
    exact reordered_jsonBody (reordered_single _ reordered_empty)

end ScanApi.ReorderedSnapshots
