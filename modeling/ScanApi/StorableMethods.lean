import ScanApi.FieldNames
import ScanApi.ReorderedSnapshots

/-!
Whether the methods of a spec can be stored. The columns of names take texts
only, and a spec may have anything in their place: a summary that is null, a
property whose key YAML reads as a number or a truth value. Which specs parse
into methods with text names is said of the spec itself (`SpecTexts`,
`parsed_storable_iff`).
-/
namespace ScanApi.StorableMethods
open ScanApi.MapM ScanApi.Raising ScanApi.Yaml ScanApi.Python ScanApi.Refs ScanApi.Fields ScanApi.FieldNames ScanApi.OpenApi
  ScanApi.SnapshotImport ScanApi.Declared ScanApi.ReorderedSnapshots

variable {docs : Documents (Except PyError)} {site : Site} {text : Text} {portal : Portal} {fits : String → Prop}

/-! ### Storing names -/

/-- What `methods.name` and `fields.name` get from `_write_snapshot`: the summary
    and `sorted(set(response_200_fields))`. Other values than texts do not sort, or
    the statement refuses them, as it does texts with the character NUL. -/
def storedNames (method : RawMethod) : Option (String × List String) := do
  let summary ← nodeText method.summary
  let fields ← method.response200Fields.mapM scalarText
  let name ← jsonText summary
  let names ← (sorted fields.toFinset).mapM jsonText
  return (name, names)

/-- The summary and all field names are texts of a kind. -/
structure TextNames (fits : String → Prop) (method : RawMethod) : Prop where
  summary : ∃ value, method.summary = .scalar value ∧ TextOf fits value
  fields : ∀ name ∈ method.response200Fields, TextOf fits name

def AnyText (_ : String) : Prop := True

theorem dotted_anyText : Dotted AnyText where
  empty := trivial
  join _ _ := by simp [AnyText]

theorem dotted_nulFree : Dotted NulFree where
  empty := by simp [NulFree]
  join a b := by simp [NulFree, String.toList_append]

theorem nodeText_some {value : Node} {text : String} : nodeText value = some text ↔ value = .scalar (.str text) := by
  cases value with
  | scalar value => simp [nodeText, scalarText_some]
  | list _ | map _ | set _ => simp [nodeText]

theorem mapM_jsonText {names stored : List String} :
    names.mapM jsonText = some stored ↔ names = stored ∧ ∀ name ∈ names, NulFree name := by
  induction names generalizing stored with
  | nil => simp [eq_comm]
  | cons name rest ih =>
    rw [mapM_cons_some]
    constructor
    · rintro ⟨first, others, one, all, rfl⟩
      obtain ⟨rfl, fit⟩ := jsonText_some.mp one
      obtain ⟨rfl, fits⟩ := ih.mp all
      exact ⟨rfl, List.forall_mem_cons.mpr ⟨fit, fits⟩⟩
    · rintro ⟨rfl, fits⟩
      obtain ⟨fit, fits⟩ := List.forall_mem_cons.mp fits
      exact ⟨name, rest, jsonText_some.mpr ⟨rfl, fit⟩, ih.mpr ⟨rfl, fits⟩, rfl⟩

/-- Names are stored exactly where all of them are texts without NUL. -/
theorem storedNames_isSome {method : RawMethod} : (storedNames method).isSome ↔ TextNames NulFree method := by
  rw [Option.isSome_iff_exists]
  simp only [storedNames, Option.bind_eq_bind, Option.bind_eq_some_iff, Option.pure_def, Option.some.injEq,
    jsonText_some, mapM_jsonText]
  constructor
  · rintro ⟨stored, summary, given, fields, mapped, _, ⟨rfl, fit⟩, _, ⟨rfl, all⟩, rfl⟩
    refine ⟨nodeText_some.mp given ▸ ⟨_, rfl, _, rfl, fit⟩, fun name member => ?_⟩
    obtain ⟨value, found⟩ := mapM_all mapped member
    have listed : value ∈ fields := (mem_mapM mapped).mpr ⟨name, member, found⟩
    exact ⟨value, scalarText_some.mp found, all value (mem_sorted.mpr (List.mem_toFinset.mpr listed))⟩
  · rintro ⟨⟨_, given, summary, rfl, fit⟩, all⟩
    have each := fun name member => (all name member).imp (fun _ found => scalarText_some.mpr found.1)
    obtain ⟨fields, mapped⟩ := exists_mapM each
    refine ⟨_, summary, nodeText_some.mpr given, fields, mapped, _, ⟨rfl, fit⟩, _, ⟨rfl, fun value member => ?_⟩, rfl⟩
    obtain ⟨name, inside, found⟩ := (mem_mapM mapped).mp (List.mem_toFinset.mp (mem_sorted.mp member))
    obtain ⟨text, rfl, fit⟩ := all name inside
    exact Scalar.str.inj (scalarText_some.mp found) ▸ fit

/-- The stored names are what `writeMethod` passes on for a method of the declared types. -/
theorem storedNames_declared {method : RawMethod} {m : ApiMethod} (declared : declaredMethod method = some m)
    {name : String} {names : List String} (stored : storedNames method = some (name, names)) :
    m.summary = name ∧ sorted (fieldSet m) = names := by
  simp only [declaredMethod, Option.bind_eq_bind, Option.bind_eq_some_iff, Option.pure_def, Option.some.injEq]
    at declared
  simp only [storedNames, Option.bind_eq_bind, Option.bind_eq_some_iff, Option.pure_def, Option.some.injEq,
    jsonText_some, mapM_jsonText, Prod.mk.injEq] at stored
  obtain ⟨_, _, summary, given, _, _, fields, mapped, rfl⟩ := declared
  obtain ⟨summary', given', fields', mapped', _, ⟨rfl, _⟩, _, ⟨rfl, _⟩, rfl, rfl⟩ := stored
  obtain rfl := Option.some.inj (given.symm.trans given')
  obtain rfl := Option.some.inj (mapped.symm.trans mapped')
  exact ⟨rfl, rfl⟩

/-! ### Bodies -/

/-- A schema of a body where it is read. -/
def bodySite (site : Site) (schema : Node) : Site := { site with schema, seen := ∅ }

/-- The body that `requestBody` of OpenAPI 3.x describes. -/
def requestBodySite (text : Text) (site : Site) (operation : Node) : Except PyError (Option Site) := do
  let requestBody ← get "requestBody" (.map []) operation
  if !requestBody.truthy then return none
  let content ← get "content" (.map []) requestBody
  let data ← pickMediaType text content
  if isNone data then return none
  let schema ← get "schema" (.map []) data
  return some (bodySite site schema)

/-- The body parameter of Swagger 2.0. -/
def parameterSite (site : Site) (operation : Node) : Except PyError (Option Site) := do
  let parameters ← get "parameters" (.list []) operation
  let parameters ← iter parameters
  return (← bodyParameter parameters).map (bodySite site)

/-- The body of the best 2xx response. -/
def responseBodySite (text : Text) (docs : Documents (Except PyError)) (site : Site) (operation : Node) :
    Except PyError (Option Site) := do
  let responses ← get "responses" (.map []) operation
  match ← selectResponse text docs site responses with
  | none => return none
  | some ok =>
    let content ← get "content" (.map []) ok.schema
    if content.truthy then
      let data ← pickMediaType text content
      if isNone data then return none
      let schema ← get "schema" (.map []) data
      return some (bodySite ok schema)
    else
      let schema ← get "schema" (.map []) ok.schema
      return if schema.truthy then some (bodySite ok schema) else none

/-- The field names of a body, if there is one. -/
def fieldsOf (docs : Documents (Except PyError)) : Option Site → Except PyError (List Scalar)
  | none => .ok []
  | some body => extractFields docs 5 (.str "") body

theorem requestBodyFields_eq (operation : Node) :
    requestBodyFields text docs site operation = requestBodySite text site operation >>= fieldsOf docs := by
  simp only [requestBodyFields, requestBodySite, py_except, bind_assoc]
  refine bind_congr (fun requestBody => ?_)
  split
  · rfl
  · simp only [bind_assoc]
    refine bind_congr (fun content => bind_congr (fun data => ?_))
    split
    · rfl
    · simp only [bind_assoc]
      rfl

theorem parameterFields_eq (operation : Node) :
    parameterFields docs site operation = parameterSite site operation >>= fieldsOf docs := by
  simp only [parameterFields, parameterSite, py_except, bind_assoc]
  refine bind_congr (fun parameters => bind_congr (fun parameters => bind_congr (fun body => ?_)))
  cases body <;> rfl

theorem extractResponse200Fields_eq (operation : Node) :
    extractResponse200Fields text docs site operation = responseBodySite text docs site operation >>= fieldsOf docs := by
  simp only [extractResponse200Fields, responseBodySite, py_except, bind_assoc]
  refine bind_congr (fun responses => bind_congr (fun ok => ?_))
  cases ok with
  | none => rfl
  | some ok =>
    simp only [bind_assoc]
    refine bind_congr (fun content => ?_)
    split
    · simp only [bind_assoc]
      refine bind_congr (fun data => ?_)
      split
      · rfl
      · simp only [bind_assoc]
        rfl
    · simp only [bind_assoc]
      refine bind_congr (fun schema => ?_)
      split <;> rfl

/-! ### Property keys of bodies -/

/-- A property of a body, under a name. -/
def PropertyOf (docs : Documents (Except PyError)) (body : Option Site) (under key : Scalar) : Prop :=
  ∃ place ∈ body, Reads docs 5 (.str "") place under key

def Nameless (docs : Documents (Except PyError)) (body : Option Site) : Prop :=
  ∀ under key, ¬ PropertyOf docs body under key

/-- All keys of the body are such that make names of the kind. -/
def TextKeys (fits : String → Prop) (docs : Documents (Except PyError)) (body : Option Site) : Prop :=
  ∀ under key, PropertyOf docs body under key → KeyOf fits under key

/-- The keys of the body whose fields a method has: of POST, PUT and PATCH the
    request's or the body parameter's; where these have none, and of GET and
    DELETE, the response's. -/
structure UsedKeys (fits : String → Prop) (text : Text) (docs : Documents (Except PyError)) (site : Site)
    (httpVerb : String) (operation : Node) : Prop where
  request : hasRequestBody httpVerb = true → ∀ body, requestBodySite text site operation = .ok body →
    TextKeys fits docs body
  parameter : hasRequestBody httpVerb = true →
    (∀ body, requestBodySite text site operation = .ok body → Nameless docs body) →
    ∀ body, parameterSite site operation = .ok body → TextKeys fits docs body
  response : (hasRequestBody httpVerb = true → ∀ body,
      requestBodySite text site operation = .ok body ∨ parameterSite site operation = .ok body → Nameless docs body) →
    ∀ body, responseBodySite text docs site operation = .ok body → TextKeys fits docs body

section
variable {body : Option Site} {fields : List Scalar}

theorem fieldsOf_nil (listed : fieldsOf docs body = .ok fields) : fields = [] ↔ Nameless docs body := by
  cases body with
  | none =>
    obtain rfl := Except.ok.inj listed
    simp [Nameless, PropertyOf]
  | some place =>
    rw [List.eq_nil_iff_forall_not_mem]
    simp only [mem_extractFields listed, Nameless, PropertyOf, Option.mem_some_iff, exists_eq_left']
    constructor
    · intro none under key reads
      exact none _ ⟨under, key, reads, rfl⟩
    · rintro none name ⟨under, key, reads, _⟩
      exact none under key reads

theorem fieldsOf_texts (dotted : Dotted fits) (listed : fieldsOf docs body = .ok fields) :
    (∀ name ∈ fields, TextOf fits name) ↔ TextKeys fits docs body := by
  cases body with
  | none =>
    obtain rfl := Except.ok.inj listed
    simp [TextKeys, PropertyOf]
  | some place =>
    have outer : fits (strScalar (.str "")) := dotted.empty
    rw [texts_iff dotted outer listed]
    simp [TextKeys, PropertyOf]

end

section
variable {httpVerb : String} {operation : Node} {fields : List Scalar}

/-- The fields of a request are its body's, or else the body parameter's. -/
theorem extractRequestBodyFields_cases (listed : extractRequestBodyFields text docs site operation = .ok fields) :
    ∃ body requested, requestBodySite text site operation = .ok body ∧ fieldsOf docs body = .ok requested ∧
      (requested ≠ [] ∧ fields = requested ∨
        requested = [] ∧ ∃ param, parameterSite site operation = .ok param ∧ fieldsOf docs param = .ok fields) := by
  obtain ⟨requested, read, listed⟩ := bind_ok.mp listed
  rw [requestBodyFields_eq] at read
  obtain ⟨body, found, read⟩ := bind_ok.mp read
  refine ⟨body, requested, found, read, ?_⟩
  cases requested with
  | nil =>
    have second : parameterFields docs site operation = .ok fields := listed
    rw [parameterFields_eq] at second
    exact .inr ⟨rfl, bind_ok.mp second⟩
  | cons name rest => exact .inl ⟨List.cons_ne_nil _ _, (pure_ok.mp listed).symm⟩

theorem extractResponse200Fields_cases (listed : extractResponse200Fields text docs site operation = .ok fields) :
    ∃ body, responseBodySite text docs site operation = .ok body ∧ fieldsOf docs body = .ok fields := by
  rw [extractResponse200Fields_eq] at listed
  exact bind_ok.mp listed

/-- The fields of a method are those of its request, or else of its response. -/
theorem extractFieldsForMethod_cases
    (listed : extractFieldsForMethod text docs site httpVerb operation = .ok fields) :
    (hasRequestBody httpVerb = true ∧ ∃ accepted, extractRequestBodyFields text docs site operation = .ok accepted ∧
      (accepted ≠ [] ∧ fields = accepted ∨
        accepted = [] ∧ extractResponse200Fields text docs site operation = .ok fields)) ∨
    (hasRequestBody httpVerb = false ∧ extractResponse200Fields text docs site operation = .ok fields) := by
  unfold extractFieldsForMethod at listed
  split at listed
  · rename_i accepts
    obtain ⟨accepted, read, listed⟩ := bind_ok.mp listed
    refine .inl ⟨accepts, accepted, read, ?_⟩
    cases accepted with
    | nil => exact .inr ⟨rfl, listed⟩
    | cons name rest => exact .inl ⟨List.cons_ne_nil _ _, (pure_ok.mp listed).symm⟩
  · rename_i noBody
    exact .inr ⟨by simpa using noBody, listed⟩

theorem textKeys_of_nameless {body : Option Site} (nameless : Nameless docs body) : TextKeys fits docs body :=
  fun under key property => absurd property (nameless under key)

theorem eq_of_ok {α : Type} {x : Except PyError α} {a b : α} (left : x = .ok a) (right : x = .ok b) : a = b :=
  Except.ok.inj (left.symm.trans right)

/-- A request body with names is the one whose keys count. -/
theorem usedKeys_request {body : Option Site} (accepts : hasRequestBody httpVerb = true)
    (found : requestBodySite text site operation = .ok body) (named : ¬ Nameless docs body) :
    UsedKeys fits text docs site httpVerb operation ↔ TextKeys fits docs body := by
  constructor
  · intro used
    exact used.request accepts body found
  · intro keys
    exact {
      request := fun _ other same => eq_of_ok found same ▸ keys
      parameter := fun _ nameless => absurd (nameless body found) named
      response := fun nameless => absurd (nameless accepts body (.inl found)) named }

/-- Where it has none, the body parameter is. -/
theorem usedKeys_parameter {body param : Option Site} (accepts : hasRequestBody httpVerb = true)
    (found : requestBodySite text site operation = .ok body) (nameless : Nameless docs body)
    (found' : parameterSite site operation = .ok param) (named : ¬ Nameless docs param) :
    UsedKeys fits text docs site httpVerb operation ↔ TextKeys fits docs param := by
  constructor
  · intro used
    exact used.parameter accepts (fun other same => eq_of_ok found same ▸ nameless) param found'
  · intro keys
    exact {
      request := fun _ other same => textKeys_of_nameless (eq_of_ok found same ▸ nameless)
      parameter := fun _ _ other same => eq_of_ok found' same ▸ keys
      response := fun nameless => absurd (nameless accepts param (.inr found')) named }

/-- Where no request has names, the response is. -/
theorem usedKeys_response {ok : Option Site}
    (nameless : hasRequestBody httpVerb = true → ∀ body,
      requestBodySite text site operation = .ok body ∨ parameterSite site operation = .ok body → Nameless docs body)
    (found : responseBodySite text docs site operation = .ok ok) :
    UsedKeys fits text docs site httpVerb operation ↔ TextKeys fits docs ok := by
  constructor
  · intro used
    exact used.response nameless ok found
  · intro keys
    exact {
      request := fun accepts other same => textKeys_of_nameless (nameless accepts other (.inl same))
      parameter := fun accepts _ other same => textKeys_of_nameless (nameless accepts other (.inr same))
      response := fun _ other same => eq_of_ok found same ▸ keys }

/-- The field names of a method are texts of the kind exactly where the keys they
    come from are such that make them. -/
theorem extractFieldsForMethod_texts (dotted : Dotted fits)
    (listed : extractFieldsForMethod text docs site httpVerb operation = .ok fields) :
    (∀ name ∈ fields, TextOf fits name) ↔ UsedKeys fits text docs site httpVerb operation := by
  rcases extractFieldsForMethod_cases listed with ⟨accepts, accepted, read, answered⟩ | ⟨noBody, answered⟩
  · obtain ⟨body, requested, found, ran, second⟩ := extractRequestBodyFields_cases read
    rcases second with ⟨some, rfl⟩ | ⟨rfl, param, found', ran'⟩
    · rcases answered with ⟨_, rfl⟩ | ⟨none, _⟩
      · have named : ¬ Nameless docs body := fun nameless => some ((fieldsOf_nil ran).mpr nameless)
        rw [fieldsOf_texts dotted ran, usedKeys_request accepts found named]
      · exact absurd none some
    · have nameless : Nameless docs body := (fieldsOf_nil ran).mp rfl
      rcases answered with ⟨some, rfl⟩ | ⟨rfl, answered⟩
      · have named : ¬ Nameless docs param := fun nameless => some ((fieldsOf_nil ran').mpr nameless)
        rw [fieldsOf_texts dotted ran', usedKeys_parameter accepts found nameless found' named]
      · obtain ⟨ok, chosen, ran''⟩ := extractResponse200Fields_cases answered
        have silent : ∀ other, requestBodySite text site operation = .ok other ∨ parameterSite site operation = .ok other →
            Nameless docs other := by
          rintro other (same | same)
          · exact eq_of_ok found same ▸ nameless
          · exact eq_of_ok found' same ▸ (fieldsOf_nil ran').mp rfl
        rw [fieldsOf_texts dotted ran'', usedKeys_response (fun _ => silent) chosen]
  · obtain ⟨ok, chosen, ran⟩ := extractResponse200Fields_cases answered
    have gets : hasRequestBody httpVerb ≠ true := by simp [noBody]
    rw [fieldsOf_texts dotted ran, usedKeys_response (fun accepts => absurd accepts gets) chosen]

end

/-! ### Methods of a spec -/

/-- A tag of the operation is not excluded, so it has a method. -/
def Kept (portal : Portal) (operation : Node) : Prop :=
  ∃ tags, tagsOf operation = .ok tags ∧ ∃ tag ∈ tags, isExcluded portal.text portal.excludedTags tag = .ok false

/-- The operation has no summary, or a text; and the keys that its field names
    come from make texts. -/
structure OperationTexts (fits : String → Prop) (portal : Portal) (docs : Documents (Except PyError)) (site : Site)
    (httpVerb : String) (entries : List (Scalar × Node)) : Prop where
  summary : ∀ value, lookup entries "summary" = some value → ∃ scalar, value = .scalar scalar ∧ TextOf fits scalar
  keys : UsedKeys fits portal.text docs site httpVerb (.map entries)

/-- All operations with methods are such. -/
def SpecTexts (fits : String → Prop) (portal : Portal) (docs : Documents (Except PyError)) (spec : Node)
    (specUrl : Option String) : Prop :=
  ∀ paths entries, get "paths" (.map []) spec = .ok paths → items paths = .ok entries →
    ∀ e ∈ entries, ∀ pathItem, e.2 = .map pathItem →
      ∀ httpVerb operation, (Scalar.str httpVerb, Node.map operation) ∈ pathItem → (upperVerb httpVerb).isSome →
        Kept portal (.map operation) →
          OperationTexts fits portal docs { schema := .map [], spec, specUrl } httpVerb operation

theorem get_summary (dotted : Dotted fits) {entries : List (Scalar × Node)} {summary : Node}
    (read : get "summary" (.scalar (.str "")) (.map entries) = .ok summary) :
    (∃ value, summary = .scalar value ∧ TextOf fits value) ↔
      ∀ value, lookup entries "summary" = some value → ∃ scalar, value = .scalar scalar ∧ TextOf fits scalar := by
  obtain rfl := Except.ok.inj read
  cases found : lookup entries "summary" with
  | none => simp [TextOf, dotted.empty]
  | some value => simp

/-- The methods of an operation have text names exactly where it is such, or has
    no methods. -/
theorem operationMethods_texts (dotted : Dotted fits) {path : Scalar} {httpVerb upper : String}
    {entries : List (Scalar × Node)} {methods : List RawMethod}
    (returned : operationMethods portal docs site path httpVerb upper (.map entries) = .ok methods) :
    (∀ m ∈ methods, TextNames fits m) ↔
      (Kept portal (.map entries) → OperationTexts fits portal docs site httpVerb entries) := by
  obtain ⟨method, _, tags, summary, listed, named, looped, _⟩ := operationMethods_parts returned
  rw [forall_mem_extend looped]
  constructor
  · rintro texts ⟨_, same, tag, member, kept⟩
    obtain rfl := Except.ok.inj (named.symm.trans same)
    obtain ⟨part, ran, _⟩ := extend_ok looped tag member
    rcases taggedMethod_ok ran with ⟨excluded, _⟩ | ⟨_, name, url, _, rfl⟩
    · rw [kept] at excluded
      cases excluded
    · obtain ⟨first, second⟩ := texts tag member _ ran _ List.mem_cons_self
      exact ⟨(get_summary dotted summary).mp first, (extractFieldsForMethod_texts dotted listed).mp second⟩
  · intro such tag member part ran m inside
    rcases taggedMethod_ok ran with ⟨_, rfl⟩ | ⟨kept, name, url, _, rfl⟩
    · cases inside
    · obtain rfl := List.mem_singleton.mp inside
      obtain ⟨first, second⟩ := such ⟨tags, named, tag, member, kept⟩
      exact ⟨(get_summary dotted summary).mpr first, (extractFieldsForMethod_texts dotted listed).mpr second⟩

/-- The methods of one entry of a path. -/
theorem entryMethods_texts (dotted : Dotted fits) {path : Scalar} {e : Scalar × Node} {methods : List RawMethod}
    (returned : entryMethods portal docs site path e = .ok methods) :
    (∀ m ∈ methods, TextNames fits m) ↔ ∀ httpVerb operation, e = (.str httpVerb, .map operation) →
      (upperVerb httpVerb).isSome → Kept portal (.map operation) →
        OperationTexts fits portal docs site httpVerb operation := by
  obtain ⟨httpVerb, operation, upper, rfl, known, ran⟩ | ⟨unread, rfl⟩ := entryMethods_cases returned
  · rw [operationMethods_texts dotted ran]
    constructor
    · rintro such _ _ same _
      obtain ⟨rfl, rfl⟩ : httpVerb = _ ∧ operation = _ := by simpa using same
      exact such
    · intro such
      exact such httpVerb operation rfl (by simp [known])
  · simp only [List.not_mem_nil, false_implies, implies_true, true_iff]
    intro httpVerb operation same known
    rw [unread httpVerb operation same] at known
    cases known

theorem pathMethods_texts (dotted : Dotted fits) {e : Scalar × Node} {methods : List RawMethod}
    (returned : pathMethods portal docs site e = .ok methods) :
    (∀ m ∈ methods, TextNames fits m) ↔ ∀ pathItem, e.2 = .map pathItem →
      ∀ httpVerb operation, (Scalar.str httpVerb, Node.map operation) ∈ pathItem → (upperVerb httpVerb).isSome →
        Kept portal (.map operation) → OperationTexts fits portal docs site httpVerb operation := by
  unfold pathMethods at returned
  split at returned
  · rename_i pathItem item
    rw [forall_mem_extend returned]
    constructor
    · intro texts pathItem' same httpVerb operation member
      obtain rfl := Node.map.inj (item.symm.trans same)
      obtain ⟨part, ran, _⟩ := extend_ok returned _ member
      exact (entryMethods_texts dotted ran).mp (texts _ member part ran) httpVerb operation rfl
    · intro such o member part ran
      refine (entryMethods_texts dotted ran).mpr ?_
      rintro httpVerb operation rfl
      exact such pathItem item httpVerb operation member
  · rename_i other
    obtain rfl := pure_ok.mp returned
    simp only [List.not_mem_nil, false_implies, implies_true, true_iff]
    intro pathItem same
    exact absurd same (other pathItem)

theorem specMethods_texts (dotted : Dotted fits) {spec : Node} {specUrl : Option String} {methods : List RawMethod}
    (returned : specMethods portal docs spec specUrl = .ok methods) :
    (∀ m ∈ methods, TextNames fits m) ↔ SpecTexts fits portal docs spec specUrl := by
  simp only [specMethods, py_except] at returned
  obtain ⟨paths, read, returned⟩ := bind_ok.mp returned
  obtain ⟨entries, unpacked, returned⟩ := bind_ok.mp returned
  rw [forall_mem_extend returned]
  constructor
  · intro texts paths' entries' read' unpacked' e member
    obtain rfl := Except.ok.inj (read.symm.trans read')
    obtain rfl := Except.ok.inj (unpacked.symm.trans unpacked')
    obtain ⟨part, ran, _⟩ := extend_ok returned e member
    exact (pathMethods_texts dotted ran).mp (texts e member part ran)
  · intro such e member part ran
    exact (pathMethods_texts dotted ran).mpr (such paths entries read unpacked e member)

/-- A spec that parses gives methods with text names exactly where its operations
    have text summaries, or none, and text keys where a name is a key alone; and
    the names of all its methods are stored exactly where these texts and keys are
    besides without NUL. -/
theorem parsed_storable_iff {spec : Node} {specUrl : Option String} {services : Dict Scalar (List RawMethod)}
    (parsed : parseOpenapiSpec portal docs spec specUrl = .ok services) :
    ((∀ m ∈ allMethods services, TextNames AnyText m) ↔ SpecTexts AnyText portal docs spec specUrl) ∧
    ((∀ m ∈ allMethods services, (storedNames m).isSome) ↔ SpecTexts NulFree portal docs spec specUrl) := by
  rw [parseOpenapiSpec, ← bind_pure_comp] at parsed
  obtain ⟨methods, read, same⟩ := bind_ok.mp parsed
  obtain rfl := pure_ok.mp same
  simp only [mem_allMethods, storedNames_isSome]
  exact ⟨specMethods_texts dotted_anyText read, specMethods_texts dotted_nulFree read⟩

/-! ### An odd operation -/

def getWith (summary : Node) (properties : List (Scalar × Node)) : Node :=
  .map [(.str "get", .map [(.str "summary", summary), (.str "responses", .map [(.int 200, jsonBody properties)])])]

/-- Keys that are no texts, below a name that is one. -/
def statusSpec : Node :=
  .map [(.str "paths", .map [(.str "/status", getWith (.scalar (.str "status"))
    [(.str "status", .map [(.str "properties", .map [(.bool true, .map []), (.int 404, .map [])])])])])]

theorem parsed_storable_status : ∃ services,
    parseOpenapiSpec ReorderedSnapshots.portal (noFiles (Except PyError)) statusSpec none = .ok services ∧
    (allMethods services).map storedNames = [some ("status", ["status", "status.404", "status.True"])] ∧
    SpecTexts NulFree ReorderedSnapshots.portal (noFiles _) statusSpec none := by
  have ran : ((parseOpenapiSpec ReorderedSnapshots.portal (noFiles (Except PyError)) statusSpec none).toOption.map
      (fun services => (allMethods services).map storedNames)) =
        some [some ("status", ["status", "status.404", "status.True"])] := by decide +kernel
  obtain ⟨services, parsed, names⟩ := Option.map_eq_some_iff.mp ran
  rw [toOption_some] at parsed
  refine ⟨services, parsed, names, (parsed_storable_iff parsed).2.mp (fun m member => ?_)⟩
  have stored : storedNames m ∈ (allMethods services).map storedNames := List.mem_map_of_mem member
  rw [names, List.mem_singleton] at stored
  rw [stored]
  rfl

/-- Beside an operation as it should be, one with a null summary and a property
    that YAML 1.1 reads as a truth value. -/
def oddSpec : Node :=
  .map [(.str "paths", .map [
    (.str "/accounts", getWith (.scalar (.str "accounts")) [(.str "id", .map [])]),
    (.str "/cards", getWith (.scalar .null) [(.str "id", .map []), (.bool true, .map [])])])]

/-- It parses into a method whose summary and field names are not all texts, and
    whose names are not stored. -/
theorem odd_operation_not_stored : ∃ services,
    parseOpenapiSpec ReorderedSnapshots.portal (noFiles (Except PyError)) oddSpec none = .ok services ∧
    (allMethods services).map (fun m => (nodeText m.summary, m.response200Fields)) =
      [(some "accounts", [.str "id"]), (none, [.str "id", .bool true])] ∧
    (allMethods services).map storedNames = [some ("accounts", ["id"]), none] ∧
    ¬ ∀ m ∈ allMethods services, TextNames AnyText m := by
  have ran : ((parseOpenapiSpec ReorderedSnapshots.portal (noFiles (Except PyError)) oddSpec none).toOption.map
      (fun services => ((allMethods services).map (fun m => (nodeText m.summary, m.response200Fields)),
        (allMethods services).map storedNames))) =
      some ([(some "accounts", [.str "id"]), (none, [.str "id", .bool true])], [some ("accounts", ["id"]), none]) := by
    decide +kernel
  obtain ⟨services, parsed, both⟩ := Option.map_eq_some_iff.mp ran
  obtain ⟨given, stored⟩ := Prod.mk.inj both
  rw [toOption_some] at parsed
  refine ⟨services, parsed, given, stored, fun all => ?_⟩
  have odd : (none, [Scalar.str "id", .bool true]) ∈
      (allMethods services).map (fun m => (nodeText m.summary, m.response200Fields)) := by
    rw [given]
    simp
  obtain ⟨m, member, same⟩ := List.mem_map.mp odd
  obtain ⟨text, impossible, _⟩ := (all m member).fields (.bool true) (by simp [(Prod.mk.inj same).2])
  cases impossible

end ScanApi.StorableMethods
