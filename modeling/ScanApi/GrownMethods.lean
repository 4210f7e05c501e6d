import ScanApi.Diff
import ScanApi.Growth
import ScanApi.StorableMethods

/-!
Fields of a method when an object schema of its spec gets one more property.
The bodies are found at the same places as before (`requestBodySite_grown`,
`responseBodySite_grown`), and each has at least its fields
(`fieldsOf_grown`). But a method reports the fields of one body only: of
the request, or where that has none, of the response. So a field is kept unless a
body that is asked earlier has its first fields now (`methodFields_monotone`).
-/
namespace ScanApi.GrownMethods
open ScanApi.Diff ScanApi.Raising ScanApi.Yaml ScanApi.Python ScanApi.Refs ScanApi.Fields ScanApi.OpenApi ScanApi.EntryOrder
open ScanApi.Growth ScanApi.StorableMethods
open ScanApi.RefTransparency (refTo)
open ScanApi.ReorderedSnapshots (asciiText)

variable {name : Scalar} {new : Node} {n n' : Node} {entries entries' : List (Scalar × Node)} {text : Text}

/-! ### Operations on what grew -/

theorem isDict_grown (grown : Grown name new n n') : isDict n = isDict n' := by cases grown <;> rfl

theorem isNone_grown (grown : Grown name new n n') : isNone n = isNone n' := by cases grown <;> rfl

theorem get_grown (grown : Grown name new n n') {key : String} (other : key ≠ "properties") (default : Node) :
    Agree (Grown name new) (get key default n) (get key default n') := by
  cases n with
  | map entries =>
    obtain ⟨entries', rfl⟩ := grown_map grown
    exact get_related (lookup_grown grown other) (.same default)
  | scalar _ | list _ | set _ => intro _ _ read; cases read

theorem contains_grown (grown : Grown name new (.map entries) (.map entries')) {key : String} (other : key ≠ "properties") :
    contains key (.map entries) = contains key (.map entries') :=
  congrArg Except.ok (rel_isSome (lookup_grown grown other))

theorem item_grown (grown : Grown name new n n') {key : String} (other : key ≠ "properties") :
    Agree (Grown name new) (item key n) (item key n') := by
  cases n with
  | map entries =>
    obtain ⟨entries', rfl⟩ := grown_map grown
    exact item_related (lookup_grown grown other)
  | scalar _ | list _ | set _ => intro _ _ read; cases read

theorem isRef_grown (grown : Grown name new n n') : isRef n = isRef n' := by
  cases n with
  | map entries =>
    obtain ⟨entries', rfl⟩ := grown_map grown
    exact contains_grown grown (by decide)
  | scalar _ | list _ | set _ =>
    have noMap : isDict n' = false := (isDict_grown grown).symm
    rw [isRef, isRef, noMap]
    rfl

/-- Apart from `properties`, the entries of a map are the same, with values that grew at most. -/
theorem entries_grown (grown : Grown name new (.map entries) (.map entries')) (keep : Scalar → Bool)
    (apart : keep (.str "properties") = false) :
    Dict.AlikeEntries (Grown name new) (entries.filter (fun e => keep e.1)) (entries'.filter (fun e => keep e.1)) := by
  have same : ∀ l : List (Scalar × Node), Dict.AlikeEntries (Grown name new) l l :=
    fun l => List.forall₂_same.mpr (fun e _ => ⟨rfl, .same e.2⟩)
  cases grown with
  | same => exact same _
  | @entry before after _ _ _ part =>
    exact Dict.alike_filter keep (List.rel_append (same before) (.cons ⟨rfl, part⟩ (same after)))
  | property | properties =>
    simp only [List.filter_append, List.filter_cons, apart, Bool.false_eq_true, if_false]
    exact same _

/-! ### Media types -/

theorem isUsableEntry_grown {e e' : Scalar × Node} (pair : e.1 = e'.1 ∧ Grown name new e.2 e'.2) :
    isUsableEntry text e = isUsableEntry text e' := by
  obtain ⟨mediaType, value⟩ := e
  obtain ⟨_, value'⟩ := e'
  obtain ⟨rfl, grown⟩ : mediaType = _ ∧ Grown name new value value' := pair
  simp only [isUsableEntry, ← isDict_grown grown]
  refine congrArg _ (funext fun mediaType => ?_)
  cases value with
  | map entries =>
    obtain ⟨entries', rfl⟩ := grown_map grown
    have truth : ∀ key ≠ "properties",
        ((lookup entries key).getD pyNone).truthy = ((lookup entries' key).getD pyNone).truthy :=
      fun key other => truthy_grown (rel_getD (lookup_grown grown other) (.same pyNone))
    have named := contains_grown grown (show "example" ≠ "properties" by decide)
    simp only [get?, Python.get, bind, Except.bind, named, truth "schema" (by decide), truth "examples" (by decide)]
  | scalar _ | list _ | set _ => rfl

theorem pickMediaType_grown {content content' : Node} (grown : Grown name new content content')
    (alike : Agree (Dict.AlikeEntries (Grown name new)) (items content) (items content')) :
    Agree (Grown name new) (pickMediaType text content) (pickMediaType text content') := by
  simp only [pickMediaType]
  refine agree_ite (by rw [truthy_grown grown]) (agree_pure (.same pyNone)) ?_
  refine agree_bind alike (fun entries entries' alike => ?_)
  refine agree_bind (agree_firstThat_forall₂ (fun e e' pair => by simp only [isJsonEntry, pair.1]) alike)
    (fun found found' one => ?_)
  cases one with
  | some pair => exact agree_pure pair.2
  | none =>
    refine agree_bind (agree_firstThat_forall₂ (fun _ _ pair => isUsableEntry_grown pair) alike) (fun found found' one => ?_)
    cases one with
    | some pair => exact agree_pure pair.2
    | none => exact agree_pure (.same pyNone)

/-! ### Responses -/

/-- What a response is read from: the same object as before, or a map with a new entry that is not read. -/
inductive Kept (name : Scalar) (new : Node) : Node → Node → Prop
  | grown {n n' : Node} (part : Grown name new n n') : Kept name new n n'
  | widened {entries entries' : List (Scalar × Node)} (wider : Widened name new entries entries')
      (unread : ∀ key ∈ ["content", "schema"], name ≠ .str key) : Kept name new (.map entries) (.map entries')

theorem isDict_kept (kept : Kept name new n n') : isDict n = isDict n' := by
  cases kept with
  | grown part => exact isDict_grown part
  | widened => rfl

theorem get_kept (kept : Kept name new n n') {key : String} (read : key ∈ ["content", "schema"]) (default : Node) :
    Agree (Grown name new) (get key default n) (get key default n') := by
  cases kept with
  | grown part =>
    refine get_grown part ?_ default
    rintro rfl
    simp at read
  | widened wider unread =>
    cases wider with
    | insert =>
      refine get_related ?_ (.same default)
      rw [lookup_inserted _ _ (unread key read)]
      exact rel_refl .same _

/-- The same place as before, with what is read there. -/
structure KeptSite (name : Scalar) (new : Node) (site site' : Site) : Prop extends GrownSite name new site site' where
  kept : Kept name new site.schema site'.schema

variable {docs docs' : Documents (Except PyError)} {site site' : Site} {operation operation' : Node}

/-- The media types of a body. -/
def mediaTypes (body : Node) : Except PyError (List (Scalar × Node)) := do items (← get "content" (.map []) body)

theorem agree_items {R : List (Scalar × Node) → List (Scalar × Node) → Prop} {body body' content content' : Node}
    (media : Agree R (mediaTypes body) (mediaTypes body')) (found : get "content" (.map []) body = .ok content)
    (found' : get "content" (.map []) body' = .ok content') : Agree R (items content) (items content') := by
  simp only [mediaTypes, found, found'] at media
  exact media

/-- What the property is added to is a schema: not the map of media types of a body, and where a
    reference of a response leads, there is what was there before, with nothing new that a response is read by. -/
structure InSchemas (name : Scalar) (new : Node) (text : Text) (docs docs' : Documents (Except PyError)) (site site' : Site)
    (operation operation' : Node) : Prop where
  references : ∀ responses statuses, get "responses" (.map []) operation = .ok responses →
    normalized responses = .ok statuses → ∀ e ∈ statuses.entries, isSuccess text e.1 = true →
      ∀ ref, item "$ref" e.2 = .ok ref → Agree (fun target target' => Kept name new target.schema target'.schema)
        (resolveRef docs ref { site with seen := ∅ }) (resolveRef docs' ref { site' with seen := ∅ })
  responseMedia : ∀ responses responses' ok ok', get "responses" (.map []) operation = .ok responses →
    get "responses" (.map []) operation' = .ok responses' → selectResponse text docs site responses = .ok (some ok) →
      selectResponse text docs' site' responses' = .ok (some ok') →
        Agree (Dict.AlikeEntries (Grown name new)) (mediaTypes ok.schema) (mediaTypes ok'.schema)
  requestMedia : ∀ body body', get "requestBody" (.map []) operation = .ok body →
    get "requestBody" (.map []) operation' = .ok body' →
      Agree (Dict.AlikeEntries (Grown name new)) (mediaTypes body) (mediaTypes body')

/-- The responses by their statuses, those of a success only. -/
theorem candidates_successes (text : Text) (docs : Documents (Except PyError)) (site : Site) (responses : Node) :
    candidates text docs site responses = (do
      let statuses ← normalized responses
      extend (candidate text docs site) (statuses.filter (fun status _ => isSuccess text status)).entries) := by
  simp only [candidates, py_except]
  refine bind_congr (fun statuses => (extend_filter (fun e failed => ?_)).symm)
  simp only [candidate, failed]
  rfl

theorem normalized_grown (text : Text) {responses responses' : Node} (grown : Grown name new responses responses') :
    Agree (fun statuses statuses' => Dict.AlikeEntries (Grown name new)
        (statuses.filter (fun status _ => isSuccess text status)).entries
        (statuses'.filter (fun status _ => isSuccess text status)).entries)
      (normalized responses) (normalized responses') := by
  simp only [normalized]
  refine agree_ite (by rw [truthy_grown grown]) (agree_pure .nil) ?_
  cases responses with
  | map entries =>
    obtain ⟨entries', rfl⟩ := grown_map grown
    refine agree_pure ?_
    -- `properties` is no status of a success.
    have alike := entries_grown grown (fun status => isSuccess text (strScalar status)) rfl
    rw [Dict.filter_ofEntries, Dict.filter_ofEntries, List.filter_map, List.filter_map]
    refine Dict.alike_ofEntries ?_
    simp only [Dict.AlikeEntries, List.forall₂_map_left_iff, List.forall₂_map_right_iff]
    exact alike.imp (fun e e' pair => ⟨congrArg strScalar pair.1, pair.2⟩)
  | scalar _ | list _ | set _ => intro _ _ read; cases read

/-- What is no text is no reference. -/
theorem resolveRef_noText {ref : Node} {target : Site} (noText : ∀ value, ref ≠ .scalar value)
    (resolved : resolveRef docs ref site = .ok target) : ref.truthy = false ∧ target = site.unresolved := by
  simp only [resolveRef, py_except] at resolved
  split at resolved
  · rename_i falsy
    exact ⟨by simpa using falsy, (pure_ok.mp resolved).symm⟩
  · obtain ⟨text, read, -⟩ := bind_ok.mp resolved
    cases ref with
    | scalar value => exact absurd rfl (noText value)
    | list _ | map _ | set _ => cases read

section
variable (place : GrownSite name new site site') (files : GrownFiles name new docs docs')
include place files

theorem responseSite_grown {entry entry' : Node} (grown : Grown name new entry entry')
    (references : ∀ ref, item "$ref" entry = .ok ref → Agree (fun target target' => Kept name new target.schema target'.schema)
      (resolveRef docs ref { site with seen := ∅ }) (resolveRef docs' ref { site' with seen := ∅ })) :
    Agree (KeptSite name new) (responseSite docs site entry) (responseSite docs' site' entry') := by
  simp only [responseSite, py_except, ← isRef_grown grown]
  refine agree_bind (agree_same rfl) (fun reference _ same => ?_)
  subst same
  refine agree_ite rfl ?_ (agree_pure ⟨grownSite_at place (.grown grown), .grown grown⟩)
  refine agree_bind_of (item_grown grown (by decide)) (fun ref ref' read _ pair => ?_)
  have fresh : GrownSite name new { site with seen := ∅ } { site' with seen := ∅ } :=
    ⟨place.schema, place.spec, place.specUrl, rfl⟩
  intro target target' ran ran'
  refine ⟨resolveRef_grown fresh files pair target target' ran ran', ?_⟩
  cases ref with
  | scalar value =>
    obtain rfl := grown_scalar pair
    exact references _ read target target' ran ran'
  | list _ | map _ | set _ =>
    obtain ⟨falsy, rfl⟩ := resolveRef_noText (by simp) ran
    rw [truthy_grown pair] at falsy
    simp only [resolveRef, falsy, Bool.not_false, if_true] at ran'
    obtain rfl := pure_ok.mp ran'
    exact .grown (.same _)

/-- A response under the same status. -/
abbrev KeptResponse (name : Scalar) (new : Node) (c c' : String × Site) : Prop := c.1 = c'.1 ∧ KeptSite name new c.2 c'.2

theorem candidate_grown {e e' : String × Node} (status : e.1 = e'.1) (grown : Grown name new e.2 e'.2)
    (references : isSuccess text e.1 = true → ∀ ref, item "$ref" e.2 = .ok ref →
      Agree (fun target target' => Kept name new target.schema target'.schema)
        (resolveRef docs ref { site with seen := ∅ }) (resolveRef docs' ref { site' with seen := ∅ })) :
    Agree (List.Forall₂ (KeptResponse name new)) (candidate text docs site e) (candidate text docs' site' e') := by
  simp only [candidate, py_except, ← status]
  cases success : isSuccess text e.1 with
  | false => exact agree_pure .nil
  | true =>
    refine agree_bind (responseSite_grown place files grown (references success)) (fun target target' reached => ?_)
    have one : List.Forall₂ (KeptResponse name new) [(e.1, target)] [(e.1, target')] := .cons ⟨rfl, reached⟩ .nil
    refine agree_ite (by rw [isDict_kept reached.kept]) (agree_pure .nil) ?_
    refine agree_bind (get_kept reached.kept (by simp) pyNone) (fun content content' pair => ?_)
    refine agree_ite (truthy_grown pair) (agree_pure one) ?_
    refine agree_bind (get_kept reached.kept (by simp) pyNone) (fun schema schema' pair => ?_)
    exact agree_ite (truthy_grown pair) (agree_pure one) (agree_pure .nil)

omit place files in
theorem choose_grown {cs cs' : List (String × Site)} (kept : List.Forall₂ (KeptResponse name new) cs cs') :
    Option.Rel (KeptSite name new) (choose cs) (choose cs') := by
  have preferred : Option.Rel (KeptResponse name new) (cs.find? (fun c => isPreferred c.1))
      (cs'.find? (fun c => isPreferred c.1)) := by
    induction kept with
    | nil => exact .none
    | @cons c c' _ _ pair _ ih =>
      cases here : isPreferred c.1 with
      | true => simpa [here, ← pair.1] using pair
      | false => simpa [here, ← pair.1] using ih
  simp only [choose]
  generalize cs.find? _ = found at preferred ⊢
  generalize cs'.find? _ = found' at preferred ⊢
  cases preferred with
  | some pair => exact .some pair.2
  | none =>
    cases kept with
    | nil => exact .none
    | cons pair => exact .some pair.2

theorem selectResponse_grown (inSchemas : InSchemas name new text docs docs' site site' operation operation') {responses responses' : Node}
    (read : get "responses" (.map []) operation = .ok responses) (grown : Grown name new responses responses') :
    Agree (Option.Rel (KeptSite name new)) (selectResponse text docs site responses)
      (selectResponse text docs' site' responses') := by
  have kept : Agree (List.Forall₂ (KeptResponse name new)) (candidates text docs site responses)
      (candidates text docs' site' responses') := by
    rw [candidates_successes, candidates_successes]
    refine agree_bind_of (normalized_grown text grown) (fun statuses statuses' found _ alike => ?_)
    refine agree_extend_forall₂ alike (fun e member e' pair => ?_)
    have among : e ∈ statuses.entries := (List.mem_filter.mp member).1
    exact candidate_grown place files pair.1 pair.2 (inSchemas.references _ _ read found e among)
  exact agree_map kept (fun cs cs' _ _ pairs => choose_grown pairs)

/-! ### Bodies -/

omit files in
theorem requestBodySite_grown (inSchemas : InSchemas name new text docs docs' site site' operation operation')
    (grown : Grown name new operation operation') :
    Agree (Option.Rel (GrownSite name new)) (requestBodySite text site operation) (requestBodySite text site' operation') := by
  simp only [requestBodySite]
  refine agree_bind_of (get_grown grown (by decide) (.map [])) (fun body body' read read' grown => ?_)
  refine agree_ite (by rw [truthy_grown grown]) (agree_pure .none) ?_
  refine agree_bind_of (get_grown grown (by decide) (.map [])) (fun content content' found found' grown => ?_)
  have alike := agree_items (inSchemas.requestMedia _ _ read read') found found'
  refine agree_bind (pickMediaType_grown grown alike) (fun data data' grown => ?_)
  refine agree_ite (isNone_grown grown) (agree_pure .none) ?_
  refine agree_bind (get_grown grown (by decide) (.map [])) (fun schema schema' grown => agree_pure (.some ?_))
  exact ⟨.grown grown, place.spec, place.specUrl, rfl⟩

omit place files in
theorem bodyParameter_grown {l l' : List Node} (grown : List.Forall₂ (Grown name new) l l') :
    Agree (Option.Rel (Grown name new)) (bodyParameter l) (bodyParameter l') := by
  induction grown with
  | nil => exact agree_pure .none
  | cons param _ ih =>
    simp only [bodyParameter]
    refine agree_bind (get_grown param (by decide) pyNone) (fun place place' pair => ?_)
    refine agree_ite (isStr_grown pair _) ?_ ih
    refine agree_bind (get_grown param (by decide) (.map [])) (fun schema schema' pair => ?_)
    exact agree_ite (truthy_grown pair) (agree_pure (.some pair)) ih

omit files in
theorem parameterSite_grown (grown : Grown name new operation operation') :
    Agree (Option.Rel (GrownSite name new)) (parameterSite site operation) (parameterSite site' operation') := by
  simp only [parameterSite]
  refine agree_bind (get_grown grown (by decide) (.list [])) (fun parameters parameters' grown => ?_)
  refine agree_bind_of (iter_grown grown) (fun l l' read read' parts => ?_)
  have chosen : Agree (Option.Rel (Grown name new)) (bodyParameter l) (bodyParameter l') := by
    rcases parts with ⟨-, -, pairs⟩ | ⟨scalars, empty⟩
    · exact bodyParameter_grown pairs
    · cases l with
      | nil =>
        obtain rfl : l' = [] := by simpa using empty.symm
        exact agree_pure .none
      | cons param rest =>
        -- What is no mapping has no `get`.
        intro found found' ran _
        obtain ⟨place, read, -⟩ := bind_ok.mp ran
        have noMap := scalars param List.mem_cons_self
        cases param with
        | map => cases noMap
        | scalar _ | list _ | set _ => cases read
  refine agree_bind chosen (fun schema schema' pair => agree_pure ?_)
  cases pair with
  | none => exact .none
  | some grown => exact .some ⟨.grown grown, place.spec, place.specUrl, rfl⟩

theorem responseBodySite_grown (inSchemas : InSchemas name new text docs docs' site site' operation operation')
    (grown : Grown name new operation operation') :
    Agree (Option.Rel (GrownSite name new)) (responseBodySite text docs site operation)
      (responseBodySite text docs' site' operation') := by
  simp only [responseBodySite]
  refine agree_bind_of (get_grown grown (by decide) (.map [])) (fun responses responses' read read' grown => ?_)
  refine agree_bind_of (selectResponse_grown place files inSchemas read grown) (fun ok ok' selected selected' kept => ?_)
  cases kept with
  | none => exact agree_pure .none
  | some kept =>
    refine agree_bind_of (get_kept kept.kept (by simp) (.map [])) (fun content content' found found' grown => ?_)
    refine agree_ite (truthy_grown grown) ?_ ?_
    · have alike := agree_items (inSchemas.responseMedia _ _ _ _ read read' selected selected') found found'
      refine agree_bind (pickMediaType_grown grown alike) (fun data data' grown => ?_)
      refine agree_ite (isNone_grown grown) (agree_pure .none) ?_
      refine agree_bind (get_grown grown (by decide) (.map [])) (fun schema schema' grown => agree_pure (.some ?_))
      exact ⟨.grown grown, kept.spec, kept.specUrl, rfl⟩
    · refine agree_bind (get_kept kept.kept (by simp) (.map [])) (fun schema schema' grown => agree_pure ?_)
      rw [← truthy_grown grown]
      split
      · exact .some ⟨.grown grown, kept.spec, kept.specUrl, rfl⟩
      · exact .none

end

/-! ### Fields of a method -/

/-- A body whose fields a method may report. -/
inductive Source
  | request
  | parameter
  | response

/-- Where the body is read, if there is one. -/
def bodyOf (text : Text) (docs : Documents (Except PyError)) (site : Site) (operation : Node) :
    Source → Except PyError (Option Site)
  | .request => requestBodySite text site operation
  | .parameter => parameterSite site operation
  | .response => responseBodySite text docs site operation

/-- The bodies that are asked for a verb, one after another. -/
def sourcesOf (httpVerb : String) : List Source :=
  if hasRequestBody httpVerb then [.request, .parameter, .response] else [.response]

/-- A body that is asked before another and had no fields still has none. -/
structure Steady (text : Text) (docs docs' : Documents (Except PyError)) (site site' : Site) (operation operation' : Node) :
    Prop where
  requestBody : requestBodyFields text docs site operation = .ok [] →
    requestBodyFields text docs' site' operation' = .ok []
  request : extractRequestBodyFields text docs site operation = .ok [] →
    extractRequestBodyFields text docs' site' operation' = .ok []

/-- The record of a method with these fields. -/
def Reports (m : MethodRecord) (fields : List Scalar) : Prop := ∀ field, field ∈ m.fields ↔ .str field ∈ fields

/-- What grew lists no removed fields. -/
theorem fieldChange_grown {old now : MethodRecord} {fields fields' : List Scalar} (reports : Reports old fields)
    (reports' : Reports now fields') (kept : fields ⊆ fields') {change : Change} (changed : fieldChange old now = some change) :
    change.oldValue = "" := by
  have removed : sorted (old.fields \ now.fields) = [] := by
    rw [sorted_eq_nil, Finset.sdiff_eq_empty_iff_subset]
    exact fun field member => (reports' field).mpr (kept ((reports field).mp member))
  simp only [fieldChange, removed] at changed
  split at changed
  · cases changed
  · obtain rfl := Option.some.inj changed
    rfl

section
variable {httpVerb : String}

theorem bodyOf_grown (place : GrownSite name new site site') (files : GrownFiles name new docs docs')
    (inSchemas : InSchemas name new text docs docs' site site' operation operation') (grown : Grown name new operation operation')
    (source : Source) : Agree (Option.Rel (GrownSite name new)) (bodyOf text docs site operation source)
      (bodyOf text docs' site' operation' source) := by
  cases source with
  | request => exact requestBodySite_grown place inSchemas grown
  | parameter => exact parameterSite_grown place grown
  | response => exact responseBodySite_grown place files inSchemas grown

/-- Every body has at least its fields. -/
theorem fieldsOf_grown (place : GrownSite name new site site') (files : GrownFiles name new docs docs')
    (inSchemas : InSchemas name new text docs docs' site site' operation operation') (grown : Grown name new operation operation')
    {source : Source} (free : (∀ keyword ∈ keywords, name ≠ .str keyword) ∨ ∀ body body',
      bodyOf text docs site operation source = .ok (some body) →
        bodyOf text docs' site' operation' source = .ok (some body') → ¬ MapRead name new docs docs' body body') :
    Agree (· ⊆ ·) (bodyOf text docs site operation source >>= fieldsOf docs)
      (bodyOf text docs' site' operation' source >>= fieldsOf docs') := by
  refine agree_bind_of (bodyOf_grown place files inSchemas grown source) (fun body body' found found' related => ?_)
  cases related with
  | none => exact agree_pure (List.Subset.refl _)
  | @some body body' reached =>
    have unread := free.imp id (fun unread => unread body body' found found')
    exact extractFields_grown files unread 5 (.str "") body body' .start reached

/-- A choice that the first of two lists decides, where it has an element. -/
theorem agree_orElse {first first' second second' : Except PyError (List Scalar)} (one : Agree (· ⊆ ·) first first')
    (steady : first = .ok [] → first' = .ok []) (two : Agree (· ⊆ ·) second second') :
    Agree (· ⊆ ·) (first >>= fun fields => if !fields.isEmpty then pure fields else second)
      (first' >>= fun fields => if !fields.isEmpty then pure fields else second') := by
  refine agree_bind_of one (fun fields fields' read read' within => ?_)
  cases fields with
  | nil =>
    obtain rfl := Except.ok.inj (read'.symm.trans (steady read))
    exact two
  | cons field rest =>
    cases fields' with
    | nil => exact absurd within (by simp)
    | cons => exact agree_pure within

/-- Where both extractions return, no field is missing unless a body that is asked
    earlier has its first fields, or the map that got the property is read as a schema. -/
theorem methodFields_monotone (files : GrownFiles name new docs docs') (place : GrownSite name new site site')
    (grown : Grown name new operation operation') (inSchemas : InSchemas name new text docs docs' site site' operation operation')
    (free : (∀ keyword ∈ keywords, name ≠ .str keyword) ∨ ∀ source ∈ sourcesOf httpVerb, ∀ body body',
      bodyOf text docs site operation source = .ok (some body) →
        bodyOf text docs' site' operation' source = .ok (some body') → ¬ MapRead name new docs docs' body body')
    {fields fields' : List Scalar} (listed : extractFieldsForMethod text docs site httpVerb operation = .ok fields)
    (listed' : extractFieldsForMethod text docs' site' httpVerb operation' = .ok fields')
    (steady : hasRequestBody httpVerb = true → fields ≠ [] → Steady text docs docs' site site' operation operation') :
    fields ⊆ fields' ∧ ∀ old now, Reports old fields → Reports now fields' →
      ∀ change, fieldChange old now = some change → change.oldValue = "" := by
  have each : ∀ source ∈ sourcesOf httpVerb, Agree (· ⊆ ·) (bodyOf text docs site operation source >>= fieldsOf docs)
      (bodyOf text docs' site' operation' source >>= fieldsOf docs') :=
    fun source asked => fieldsOf_grown place files inSchemas grown (free.imp id (fun unread => unread source asked))
  have kept : fields ⊆ fields' := by
    by_cases empty : fields = []
    · rw [empty]
      exact List.nil_subset _
    · have response : Agree (· ⊆ ·) (extractResponse200Fields text docs site operation)
          (extractResponse200Fields text docs' site' operation') := by
        rw [extractResponse200Fields_eq, extractResponse200Fields_eq]
        exact each .response (by unfold sourcesOf; split <;> simp)
      cases accepts : hasRequestBody httpVerb with
      | false =>
        simp only [extractFieldsForMethod, accepts] at listed listed'
        exact response fields fields' listed listed'
      | true =>
        have asked : ∀ source, source ∈ sourcesOf httpVerb := by
          intro source
          cases source <;> simp [sourcesOf, accepts]
        obtain ⟨requestBody, request⟩ := steady accepts empty
        have accepted : Agree (· ⊆ ·) (extractRequestBodyFields text docs site operation)
            (extractRequestBodyFields text docs' site' operation') := by
          refine agree_orElse ?_ requestBody ?_
          · rw [requestBodyFields_eq, requestBodyFields_eq]
            exact each .request (asked _)
          · rw [parameterFields_eq, parameterFields_eq]
            exact each .parameter (asked _)
        have all := agree_orElse accepted request response
        simp only [extractFieldsForMethod, accepts] at listed listed'
        exact all fields fields' listed listed'
  exact ⟨kept, fun old now reports reports' change => fieldChange_grown reports reports' kept⟩

end

/-! ### A method that takes its first field -/

/-- A body in JSON. -/
def jsonBody (schema : Node) : Node := .map [(.str "content", .map [(.str "application/json", .map [(.str "schema", schema)])])]

def objectWith (properties : List (Scalar × Node)) : Node :=
  .map [(.str "type", .scalar (.str "object")), (.str "properties", .map properties)]

/-- An operation with properties in its request and one in its response. -/
def operationOf (request : List (Scalar × Node)) : Node :=
  .map [(.str "requestBody", jsonBody (objectWith request)),
    (.str "responses", .map [(.str "200", jsonBody (objectWith [(.str "id", Growth.text)]))])]

/-- The place of the operation in its spec. -/
def siteOf (request : List (Scalar × Node)) : Site where
  schema := .map []
  spec := .map [(.str "paths", .map [(.str "/v1/bills", .map [(.str "post", operationOf request)])])]

theorem grown_single {key : Scalar} {value value' : Node} (grown : Grown name new value value') :
    Grown name new (.map [(key, value)]) (.map [(key, value')]) :=
  @Grown.entry _ _ [] [] _ _ _ grown

theorem grown_objectWith {properties : List (Scalar × Node)} (fresh : hasKey properties name = false) :
    Grown name new (objectWith properties) (objectWith (properties ++ [(name, new)])) :=
  @Grown.property _ _ [(.str "type", .scalar (.str "object"))] [] _ _ (widened_snoc fresh)

theorem grown_operationOf {request : List (Scalar × Node)} (fresh : hasKey request name = false) :
    Grown name new (operationOf request) (operationOf (request ++ [(name, new)])) :=
  @Grown.entry _ _ [] _ _ _ _ (grown_single (grown_single (grown_single (grown_objectWith fresh))))

theorem grownSite_siteOf {request : List (Scalar × Node)} (fresh : hasKey request name = false) :
    GrownSite name new (siteOf request) (siteOf (request ++ [(name, new)])) :=
  ⟨.missing _, grown_single (grown_single (grown_single (grown_operationOf fresh))), rfl, rfl⟩

/-- The media types of the operation are the same. -/
theorem inSchemas_operationOf {request : List (Scalar × Node)} (fresh : hasKey request name = false) (site site' : Site) :
    InSchemas name new asciiText (noFiles _) (noFiles _) site site' (operationOf request)
      (operationOf (request ++ [(name, new)])) where
  references := by
    intro responses statuses read found e member success ref stands
    obtain rfl := Except.ok.inj read
    obtain rfl := Except.ok.inj found
    obtain rfl := List.mem_singleton.mp member
    cases stands
  responseMedia := by
    intro responses responses' ok ok' read read' selected selected'
    obtain rfl := Except.ok.inj read
    obtain rfl := Except.ok.inj read'
    have response := Option.some.inj (Except.ok.inj selected)
    have response' := Option.some.inj (Except.ok.inj selected')
    rw [← response, ← response']
    exact agree_pure (.cons ⟨rfl, .same _⟩ .nil)
  requestMedia := by
    intro body body' read read'
    obtain rfl := Except.ok.inj read
    obtain rfl := Except.ok.inj read'
    exact agree_pure (.cons ⟨rfl, grown_single (grown_objectWith fresh)⟩ .nil)

/-- A request that had a field has it still. -/
theorem methodFields_monotone_bill : ∃ fields, extractFieldsForMethod asciiText (noFiles (Except PyError))
    (siteOf [(.str "inn", Growth.text), (.str "kpp", Growth.text)]) "post"
      (operationOf [(.str "inn", Growth.text), (.str "kpp", Growth.text)]) = .ok fields ∧ [.str "inn"] ⊆ fields := by
  have place : GrownSite (.str "kpp") Growth.text (siteOf [(.str "inn", Growth.text)]) _ := grownSite_siteOf rfl
  have grown : Grown (.str "kpp") Growth.text (operationOf [(.str "inn", Growth.text)]) _ := grown_operationOf rfl
  have listed : extractFieldsForMethod asciiText (noFiles (Except PyError)) (siteOf [(.str "inn", Growth.text)]) "post"
      (operationOf [(.str "inn", Growth.text)]) = .ok [.str "inn"] := rfl
  refine ⟨_, rfl, (methodFields_monotone grownFiles_noFiles place grown (inSchemas_operationOf rfl _ _) (.inl (by decide))
    listed rfl (fun _ _ => ⟨fun empty => ?_, fun empty => ?_⟩)).1⟩
  · cases empty
  · cases empty

def billRecord (fields : Finset String) : MethodRecord where
  service := "Bills"
  httpMethod := "POST"
  path := "/v1/bills"
  name := ""
  url := ""
  fields := fields

def response (field : String) : Node := .map [(.str "schema", objectWith [(.str field, Growth.text)])]

/-- The place of an operation in a spec with one more schema. -/
def siteWith (operation : Node) (properties : List (Scalar × Node)) : Site where
  schema := .map []
  spec := .map [(.str "paths", .map [(.str "/v1/bills", .map [(.str "get", operation)])]),
    (.str "Company", .map [(.str "properties", .map properties)])]

/-- An operation whose second response is a reference. -/
def referring (ref : String) : Node :=
  .map [(.str "responses", .map [(.str "202", response "id"), (.str "200", refTo (.scalar (.str ref)))])]

/-- An operation whose media types look like an object schema. -/
def typedMedia (properties : List (Scalar × Node)) : Node :=
  .map [(.str "requestBody", .map [(.str "content", .map
    ([(.str "type", .scalar (.str "object"))] ++ (properties ++ [(.str "text/xml", response "id")])))])]

theorem grownSite_referring (ref : String) {properties : List (Scalar × Node)} (fresh : hasKey properties name = false) :
    GrownSite name new (siteWith (referring ref) properties) (siteWith (referring ref) (properties ++ [(name, new)])) :=
  ⟨.missing _, @Grown.entry _ _ [_] [] _ _ _ (@Grown.property _ _ [] [] _ _ (widened_snoc fresh)), rfl, rfl⟩

theorem grown_typedMedia :
    Grown name new (typedMedia []) (typedMedia [(.str "properties", .map [(name, new)])]) :=
  grown_single (grown_single (.properties rfl rfl rfl))

theorem grownSite_typedMedia :
    GrownSite name new (siteWith (typedMedia []) []) (siteWith (typedMedia [(.str "properties", .map [(name, new)])]) []) :=
  ⟨.missing _, @Grown.entry _ _ [] _ _ _ _ (grown_single (grown_single grown_typedMedia)), rfl, rfl⟩

/-- The first field of a request hides the fields of the response. So does a response that a
    reference leads to only now, or a property that is read as a media type. -/
theorem fields_replaced :
    (∃ operation operation' site site', Grown (.str "inn") Growth.text operation operation' ∧
      GrownSite (.str "inn") Growth.text site site' ∧
      extractFieldsForMethod asciiText (noFiles (Except PyError)) site "post" operation = .ok [.str "id"] ∧
      extractFieldsForMethod asciiText (noFiles (Except PyError)) site' "post" operation' = .ok [.str "inn"] ∧
      (fieldChange (billRecord {"id"}) (billRecord {"inn"})).map Change.oldValue = some "-id") ∧
    (∃ operation site site', GrownSite (.str "paid") (response "inn") site site' ∧
      extractFieldsForMethod asciiText (noFiles (Except PyError)) site "get" operation = .ok [.str "id"] ∧
      extractFieldsForMethod asciiText (noFiles (Except PyError)) site' "get" operation = .ok [.str "inn"]) ∧
    ∃ new operation operation' site site', Grown (.str "schema") new operation operation' ∧
      GrownSite (.str "schema") new site site' ∧
      extractFieldsForMethod asciiText (noFiles (Except PyError)) site "post" operation = .ok [.str "id"] ∧
      extractFieldsForMethod asciiText (noFiles (Except PyError)) site' "post" operation' = .ok [.str "inn"] := by
  refine ⟨?_, ?_, ?_⟩
  · exact ⟨operationOf [], operationOf [(.str "inn", Growth.text)], siteOf [], siteOf [(.str "inn", Growth.text)],
      grown_operationOf rfl, grownSite_siteOf rfl, rfl, rfl, by decide⟩
  · have grown : GrownSite (.str "paid") (response "inn") (siteWith (referring "#/Company/properties/paid") []) _ :=
      grownSite_referring "#/Company/properties/paid" rfl
    exact ⟨referring "#/Company/properties/paid", siteWith _ [], siteWith _ _, grown, rfl, rfl⟩
  · exact ⟨objectWith [(.str "inn", Growth.text)], typedMedia [], typedMedia _, siteWith _ [], siteWith _ [], grown_typedMedia,
      grownSite_typedMedia, rfl, rfl⟩

end ScanApi.GrownMethods
