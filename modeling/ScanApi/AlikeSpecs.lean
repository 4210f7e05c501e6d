import ScanApi.Coupling
import ScanApi.OpenApi

/-!
Specs that are read alike. The reader looks at few keys of a mapping (`readKeys`), so
two mappings that agree on these are read alike; where all pointers of two specs lead
to nodes that are, an operation gives the same fields and examples in both
(`operationMethods_alike`). Nothing is assumed about sibling files or how they are
fetched: whatever is asked for is asked for in both.
-/
namespace ScanApi.AlikeSpecs
open ScanApi.Raising ScanApi.Coupling ScanApi.Yaml ScanApi.Python ScanApi.Refs ScanApi.Fields ScanApi.Examples ScanApi.OpenApi

/-- The entries of a mapping. -/
abbrev Entries := List (Scalar × Node)

/-! ### Mappings that are read alike -/

/-- The keys that are read in a schema, a body, a response or an operation, tags apart. -/
def readKeys : List String :=
  ["$ref", "allOf", "oneOf", "anyOf", "type", "properties", "items", "example", "examples", "content", "schema",
    "responses", "requestBody", "parameters", "summary", "description", "operationId"]

/-- Two nodes in which the reader finds the same. -/
inductive Alike : Node → Node → Prop
  | same (n : Node) : Alike n n
  | map {entries entries' : Entries} (empty : entries.isEmpty = entries'.isEmpty)
      (reads : ∀ key ∈ readKeys, lookup entries key = lookup entries' key) : Alike (.map entries) (.map entries')

section
variable {n n' : Node} (alike : Alike n n')
include alike

theorem truthy_alike : n.truthy = n'.truthy := by
  cases alike with
  | same => rfl
  | map empty => simp only [Node.truthy, empty]

theorem isDict_alike : isDict n = isDict n' := by
  cases alike <;> rfl

theorem contains_alike {key : String} (read : key ∈ readKeys) : contains key n = contains key n' := by
  cases alike with
  | same => rfl
  | map _ reads => simp only [contains, reads key read]

theorem item_alike {key : String} (read : key ∈ readKeys) : item key n = item key n' := by
  cases alike with
  | same => rfl
  | map _ reads => simp only [item, reads key read]

theorem get_alike {key : String} (read : key ∈ readKeys) (default : Node) : get key default n = get key default n' := by
  cases alike with
  | same => rfl
  | map _ reads => simp only [Python.get, reads key read]

theorem combined_alike : combined n = combined n' := by
  simp only [combined, firstOf, contains_alike alike (show "allOf" ∈ readKeys by decide), item_alike alike (show "allOf" ∈ readKeys by decide),
    contains_alike alike (show "oneOf" ∈ readKeys by decide), item_alike alike (show "oneOf" ∈ readKeys by decide),
    contains_alike alike (show "anyOf" ∈ readKeys by decide), item_alike alike (show "anyOf" ∈ readKeys by decide)]

theorem isObjectSchema_alike : isObjectSchema n = isObjectSchema n' := by
  simp only [isObjectSchema, get?, get_alike alike (show "type" ∈ readKeys by decide),
    contains_alike alike (show "properties" ∈ readKeys by decide)]

theorem isArraySchema_alike : isArraySchema n = isArraySchema n' := by
  simp only [isArraySchema, get?, get_alike alike (show "type" ∈ readKeys by decide),
    contains_alike alike (show "items" ∈ readKeys by decide)]

end

/-! ### Two specs whose pointers lead to nodes that are read alike -/

/-- Every pointer leads to nodes that are read alike. -/
def AlikePointers (spec spec' : Node) : Prop := ∀ ref, Alike (resolvePointer ref spec) (resolvePointer ref spec')

/-- The same place in one spec and in the other, or in a sibling file of both. -/
structure AlikeSite (spec spec' : Node) (site site' : Site) : Prop where
  schema : Alike site.schema site'.schema
  specUrl : site.specUrl = site'.specUrl
  seen : site.seen = site'.seen
  document : (site.spec = spec ∧ site'.spec = spec') ∨ site.spec = site'.spec

/-- Two sites, or none. -/
def AlikePlace (spec spec' : Node) : Option Site → Option Site → Prop := Option.Rel (AlikeSite spec spec')

section
variable {m : Type → Type} [Monad m] [LawfulMonad m] [MonadExceptOf PyError m] {docs : Documents m} {spec spec' : Node}
  {site site' : Site}

theorem AlikeSite.at (place : AlikeSite spec spec' site site') {n n' : Node} (alike : Alike n n') :
    AlikeSite spec spec' (site.at n) (site'.at n') := ⟨alike, place.specUrl, place.seen, place.document⟩

theorem AlikeSite.unresolved (place : AlikeSite spec spec' site site') :
    AlikeSite spec spec' site.unresolved site'.unresolved := place.at (.same _)

/-- A pure value of the same operation. -/
theorem coupled_py {α γ δ : Type} {S : γ → δ → Prop} {x y : Except PyError α} (same : x = y) {f : α → m γ} {g : α → m δ}
    (second : ∀ a, Coupled S (f a) (g a)) : Coupled S ((py x : m α) >>= f) ((py y : m α) >>= g) := by
  subst same
  exact coupled_bind_same _ second

theorem resolveExternal_alike {ref : String} (place : AlikeSite spec spec' site site') :
    Coupled (AlikeSite spec spec') (resolveExternal docs ref site) (resolveExternal docs ref site') := by
  have unresolved : Coupled (AlikeSite spec spec') (pure site.unresolved : m Site) (pure site'.unresolved) :=
    coupled_pure place.unresolved
  simp only [resolveExternal, place.specUrl]
  refine coupled_ite unresolved ?_
  split
  · exact unresolved
  · exact unresolved
  · refine coupled_bind_same _ (fun externalUrl => coupled_bind_same _ (fun sibling => coupled_ite unresolved ?_))
    refine coupled_bind_same _ (fun externalSpec => coupled_ite unresolved (coupled_pure ?_))
    exact ⟨.same _, rfl, place.seen, .inr rfl⟩

theorem resolveRef_alike (specs : AlikePointers spec spec') (ref : Node) (place : AlikeSite spec spec' site site') :
    Coupled (AlikeSite spec spec') (resolveRef docs ref site) (resolveRef docs ref site') := by
  simp only [resolveRef, place.seen]
  refine coupled_ite (coupled_pure place.unresolved) (coupled_bind_same _ (fun text => ?_))
  refine coupled_ite (coupled_pure place.unresolved) ?_
  have branch : AlikeSite spec spec' { site with seen := insert text site'.seen } { site' with seen := insert text site'.seen } :=
    ⟨place.schema, place.specUrl, rfl, place.document⟩
  refine coupled_ite (coupled_pure (branch.at ?_)) (resolveExternal_alike branch)
  rcases place.document with ⟨here, here'⟩ | same
  · rw [here, here']; exact specs text
  · rw [same]; exact .same _

theorem enter_alike (specs : AlikePointers spec spec') (place : AlikeSite spec spec' site site') :
    Coupled (AlikePlace spec spec') (enter docs site) (enter docs site') := by
  simp only [enter, truthy_alike place.schema]
  refine coupled_ite (coupled_pure .none) ?_
  refine coupled_py (contains_alike place.schema (by decide)) (fun hasRef => coupled_ite ?_ (coupled_pure (.some place)))
  refine coupled_py (item_alike place.schema (by decide)) (fun ref => ?_)
  refine coupled_bind (resolveRef_alike specs ref place) (fun target target' reached => coupled_pure ?_)
  rw [truthy_alike reached.schema]
  split
  · exact .some reached
  · exact .none

/-! ### Fields and examples -/

theorem schemaFields_alike {nested : Bool} {deeper : Scalar → Site → m (List Scalar)}
    (below : ∀ name site site', AlikeSite spec spec' site site' → Coupled (· = ·) (deeper name site) (deeper name site'))
    (place : AlikeSite spec spec' site site') (namePrefix : Scalar) :
    Coupled (· = ·) (schemaFields nested deeper namePrefix site) (schemaFields nested deeper namePrefix site') := by
  have join : ∀ first first' rest rest' : List Scalar, first = first' → rest = rest' → first ++ rest = first' ++ rest' := by
    rintro _ _ _ _ rfl rfl; rfl
  have same : ∀ l : List Node, List.Forall₂ (· = ·) l l := fun l => List.forall₂_same.mpr (fun _ _ => rfl)
  simp only [schemaFields]
  refine coupled_py (combined_alike place.schema) (fun found => ?_)
  cases found with
  | some subs =>
    refine coupled_bind_same _ (fun subs => ?_)
    refine coupled_extend rfl join (same subs) ?_
    rintro sub _ rfl
    exact below _ _ _ (place.at (.same _))
  | none =>
    refine coupled_py (isObjectSchema_alike place.schema) (fun object => coupled_ite ?_ ?_)
    · refine coupled_py (get_alike place.schema (by decide) _) (fun properties => coupled_bind_same _ (fun entries => ?_))
      refine coupled_extend rfl join (List.forall₂_same.mpr (fun e _ => rfl)) ?_
      rintro e _ rfl
      simp only [propertyFields]
      refine coupled_ite (coupled_bind (below _ _ _ (place.at (.same _))) ?_) (coupled_refl (fun _ => rfl) _)
      rintro names _ rfl
      exact coupled_refl (fun _ => rfl) _
    · refine coupled_py (isArraySchema_alike place.schema) (fun array => coupled_ite ?_ (coupled_refl (fun _ => rfl) _))
      refine coupled_py (get_alike place.schema (by decide) _) (fun schema => ?_)
      exact below _ _ _ (place.at (.same _))

theorem extractFields_alike (specs : AlikePointers spec spec') : ∀ (room : Nat) (namePrefix : Scalar) (site site' : Site),
    AlikeSite spec spec' site site' → Coupled (· = ·) (extractFields docs room namePrefix site) (extractFields docs room namePrefix site') := by
  intro room
  induction room with
  | zero => intro namePrefix site site' _; exact coupled_refl (fun _ => rfl) _
  | succ room ih =>
    intro namePrefix site site' place
    simp only [extractFields]
    refine coupled_bind (enter_alike specs place) (fun target target' reached => ?_)
    cases reached with
    | none => exact coupled_refl (fun _ => rfl) _
    | some reached => exact schemaFields_alike ih reached namePrefix

section
variable {deeper : Site → m Node}
  (below : ∀ site site', AlikeSite spec spec' site site' → Coupled (· = ·) (deeper site) (deeper site'))
  (place : AlikeSite spec spec' site site')
include below place

omit [MonadExceptOf PyError m] in
theorem mergeProperties_alike : ∀ (properties merged : Entries),
    Coupled (· = ·) (mergeProperties deeper site properties merged) (mergeProperties deeper site' properties merged) := by
  intro properties
  induction properties with
  | nil => intro merged; exact coupled_refl (fun _ => rfl) _
  | cons e rest ih =>
    intro merged
    obtain ⟨name, property⟩ := e
    simp only [mergeProperties]
    refine coupled_ite (ih merged) (coupled_bind (below _ _ (place.at (.same property))) ?_)
    rintro value _ rfl
    exact ih _

theorem objectExample_alike : ∀ (properties obj : Entries),
    Coupled (· = ·) (objectExample deeper site properties obj) (objectExample deeper site' properties obj) := by
  intro properties
  induction properties with
  | nil => intro obj; exact coupled_refl (fun _ => rfl) _
  | cons e rest ih =>
    intro obj
    obtain ⟨name, property⟩ := e
    simp only [objectExample, propertyExample]
    refine coupled_bind (R := (· = ·)) (coupled_bind (below _ _ (place.at (.same property))) ?_) ?_
    · rintro value _ rfl
      exact coupled_refl (fun _ => rfl) _
    · rintro value _ rfl
      exact ih _

variable (specs : AlikePointers spec spec')
include specs

theorem mergeSubs_alike : ∀ (subs : List Node) (merged : Entries),
    Coupled (· = ·) (mergeSubs docs deeper site subs merged) (mergeSubs docs deeper site' subs merged) := by
  intro subs
  induction subs with
  | nil => intro merged; exact coupled_refl (fun _ => rfl) _
  | cons sub rest ih =>
    intro merged
    have reaches : Coupled (AlikePlace spec spec') (combinerSite docs site sub) (combinerSite docs site' sub) := by
      simp only [combinerSite]
      refine coupled_bind_same _ (fun hasRef => coupled_ite ?_ (coupled_pure (.some (place.at (.same sub)))))
      refine coupled_bind_same _ (fun ref => ?_)
      refine coupled_bind (resolveRef_alike specs ref place) (fun target target' reached => coupled_pure ?_)
      rw [truthy_alike reached.schema]
      split
      · exact .some reached
      · exact .none
    simp only [mergeSubs]
    refine coupled_bind reaches (fun target target' reached => ?_)
    cases reached with
    | none => exact ih merged
    | some reached =>
      refine coupled_bind (below _ _ reached) ?_
      rintro value _ rfl
      split
      · exact ih _
      · exact coupled_ite (coupled_refl (fun _ => rfl) _) (ih merged)

theorem exampleOf_alike : Coupled (· = ·) (exampleOf docs deeper site) (exampleOf docs deeper site') := by
  simp only [exampleOf]
  refine coupled_py (contains_alike place.schema (by decide)) (fun given => coupled_ite ?_ ?_)
  · exact coupled_py (item_alike place.schema (by decide)) (fun value => coupled_refl (fun _ => rfl) _)
  · refine coupled_py (combined_alike place.schema) (fun found => ?_)
    cases found with
    | some subs =>
      refine coupled_bind_same _ (fun subs => coupled_bind (mergeSubs_alike below place specs subs []) ?_)
      rintro result _ rfl
      cases result with
      | inl result => exact coupled_refl (fun _ => rfl) _
      | inr merged =>
        refine coupled_py (get_alike place.schema (by decide) _) (fun properties => coupled_bind_same _ (fun entries => ?_))
        refine coupled_bind (mergeProperties_alike below place entries merged) ?_
        rintro merged _ rfl
        exact coupled_refl (fun _ => rfl) _
    | none =>
      refine coupled_py (isObjectSchema_alike place.schema) (fun object => coupled_ite ?_ ?_)
      · refine coupled_py (get_alike place.schema (by decide) _) (fun properties => coupled_bind_same _ (fun entries => ?_))
        refine coupled_bind (objectExample_alike below place entries []) ?_
        rintro obj _ rfl
        exact coupled_refl (fun _ => rfl) _
      · refine coupled_py (isArraySchema_alike place.schema) (fun array => coupled_ite ?_ ?_)
        · refine coupled_py (get_alike place.schema (by decide) _) (fun schema => ?_)
          refine coupled_bind (below _ _ (place.at (.same schema))) ?_
          rintro value _ rfl
          exact coupled_refl (fun _ => rfl) _
        · exact coupled_py (get_alike place.schema (by decide) _) (fun type => coupled_refl (fun _ => rfl) _)

end

theorem schemaToExample_alike (specs : AlikePointers spec spec') : ∀ (room : Nat) (site site' : Site),
    AlikeSite spec spec' site site' → Coupled (· = ·) (schemaToExample docs room site) (schemaToExample docs room site') := by
  intro room
  induction room with
  | zero => intro site site' _; exact coupled_refl (fun _ => rfl) _
  | succ room ih =>
    intro site site' place
    simp only [schemaToExample]
    refine coupled_bind (enter_alike specs place) (fun target target' reached => ?_)
    cases reached with
    | none => exact coupled_refl (fun _ => rfl) _
    | some reached => exact exampleOf_alike ih reached specs

/-! ### Responses and bodies -/

/-- The same status with a response at the same place. -/
def AlikeResponse (spec spec' : Node) (c c' : String × Site) : Prop := c.1 = c'.1 ∧ AlikeSite spec spec' c.2 c'.2

theorem candidate_alike (specs : AlikePointers spec spec') (place : AlikeSite spec spec' site site') (text : Text)
    (e : String × Node) :
    Coupled (List.Forall₂ (AlikeResponse spec spec')) (candidate text docs site e) (candidate text docs site' e) := by
  have reaches : Coupled (AlikeSite spec spec') (responseSite docs site e.2) (responseSite docs site' e.2) := by
    simp only [responseSite]
    refine coupled_bind_same _ (fun hasRef => coupled_ite ?_ (coupled_pure (place.at (.same e.2))))
    refine coupled_bind_same _ (fun ref => resolveRef_alike specs ref ?_)
    exact ⟨place.schema, place.specUrl, rfl, place.document⟩
  simp only [candidate]
  refine coupled_ite (coupled_pure .nil) (coupled_bind reaches (fun target target' reached => ?_))
  rw [isDict_alike reached.schema]
  have one : Coupled (List.Forall₂ (AlikeResponse spec spec')) (pure [(e.1, target)] : m _) (pure [(e.1, target')]) :=
    coupled_pure (.cons ⟨rfl, reached⟩ .nil)
  refine coupled_ite (coupled_pure .nil) ?_
  refine coupled_py (get_alike reached.schema (by decide) _) (fun content => coupled_ite one ?_)
  exact coupled_py (get_alike reached.schema (by decide) _) (fun schema => coupled_ite one (coupled_pure .nil))

theorem choose_alike {cs cs' : List (String × Site)} (alike : List.Forall₂ (AlikeResponse spec spec') cs cs') :
    AlikePlace spec spec' (choose cs) (choose cs') := by
  have found : Option.Rel (AlikeResponse spec spec') (cs.find? (fun c => isPreferred c.1)) (cs'.find? (fun c => isPreferred c.1)) := by
    induction alike with
    | nil => exact .none
    | @cons c c' _ _ pair _ ih =>
      rw [List.find?_cons, List.find?_cons, pair.1]
      split
      · exact .some pair
      · exact ih
  have first : AlikePlace spec spec' (cs.head?.map Prod.snd) (cs'.head?.map Prod.snd) := by
    cases alike with
    | nil => exact .none
    | cons pair _ => exact .some pair.2
  simp only [choose]
  generalize cs.find? (fun c => isPreferred c.1) = hit at found
  generalize cs'.find? (fun c => isPreferred c.1) = hit' at found
  cases found with
  | none => exact first
  | some pair => exact .some pair.2

theorem selectResponse_alike (specs : AlikePointers spec spec') (place : AlikeSite spec spec' site site') (text : Text)
    (responses : Node) :
    Coupled (AlikePlace spec spec') (selectResponse text docs site responses) (selectResponse text docs site' responses) := by
  simp only [selectResponse, candidates]
  refine coupled_map (coupled_bind_same _ (fun responses => ?_)) (fun cs cs' alike => choose_alike alike)
  refine coupled_extend .nil (fun _ _ _ _ first rest => List.rel_append first rest)
    (List.forall₂_same.mpr (fun e _ => rfl)) ?_
  rintro e _ rfl
  exact candidate_alike specs place text e

section
variable (specs : AlikePointers spec spec') (place : AlikeSite spec spec' site site')
include specs place

theorem bodyFields_alike (schema : Node) : Coupled (· = ·) (bodyFields docs site schema) (bodyFields docs site' schema) :=
  extractFields_alike specs 5 (.str "") _ _ ⟨.same schema, place.specUrl, rfl, place.document⟩

theorem bodyExample_alike (schema : Node) : Coupled (· = ·) (bodyExample docs site schema) (bodyExample docs site' schema) :=
  schemaToExample_alike specs 13 _ _ ⟨.same schema, place.specUrl, rfl, place.document⟩

theorem schemaExample_alike (schema : Node) :
    Coupled (· = ·) (schemaExample docs site schema) (schemaExample docs site' schema) := by
  simp only [schemaExample]
  refine coupled_bind (bodyExample_alike specs place schema) ?_
  rintro result _ rfl
  exact coupled_refl (fun _ => rfl) _

theorem mediaExample_alike (data : Node) :
    Coupled (· = ·) (mediaExample docs site data) (mediaExample docs site' data) := by
  simp only [mediaExample]
  refine coupled_bind_same _ (fun given => ?_)
  cases given with
  | some value => exact coupled_refl (fun _ => rfl) _
  | none => exact coupled_bind_same _ (fun schema => schemaExample_alike specs place schema)

theorem parameterExample_alike : ∀ parameters : List Node,
    Coupled (· = ·) (parameterExample docs site parameters) (parameterExample docs site' parameters) := by
  intro parameters
  induction parameters with
  | nil => exact coupled_refl (fun _ => rfl) _
  | cons param rest ih =>
    simp only [parameterExample]
    refine coupled_bind_same _ (fun isIn => coupled_ite (coupled_bind_same _ (fun schema => ?_)) ih)
    refine coupled_bind (schemaExample_alike specs place schema) ?_
    rintro found _ rfl
    cases found with
    | some value => exact coupled_refl (fun _ => rfl) _
    | none => exact ih

theorem swaggerExample_alike (alike : Alike site.schema site'.schema) :
    Coupled (· = ·) (swaggerExample docs site) (swaggerExample docs site') := by
  simp only [swaggerExample]
  refine coupled_py (get_alike alike (by decide) _) (fun examples => coupled_bind_same _ (fun entries => ?_))
  refine coupled_bind_same _ (fun found => ?_)
  cases found with
  | some value => exact coupled_refl (fun _ => rfl) _
  | none =>
    refine coupled_py (get_alike alike (by decide) _) (fun schema => ?_)
    exact coupled_ite (coupled_refl (fun _ => rfl) _) (schemaExample_alike specs place schema)

end

/-! ### Operations -/

section
variable {operation operation' : Node} (specs : AlikePointers spec spec') (place : AlikeSite spec spec' site site')
  (alike : Alike operation operation') (text : Text)
include specs place alike

theorem extractResponse200Fields_alike : Coupled (· = ·) (extractResponse200Fields text docs site operation)
    (extractResponse200Fields text docs site' operation') := by
  simp only [extractResponse200Fields]
  refine coupled_py (get_alike alike (by decide) _) (fun responses => ?_)
  refine coupled_bind (selectResponse_alike specs place text responses) (fun chosen chosen' reached => ?_)
  cases reached with
  | none => exact coupled_refl (fun _ => rfl) _
  | some reached =>
    refine coupled_py (get_alike reached.schema (by decide) _) (fun content => coupled_ite ?_ ?_)
    · refine coupled_bind_same _ (fun data => coupled_ite (coupled_refl (fun _ => rfl) _) ?_)
      exact coupled_bind_same _ (fun schema => bodyFields_alike specs reached schema)
    · refine coupled_py (get_alike reached.schema (by decide) _) (fun schema => ?_)
      exact coupled_ite (bodyFields_alike specs reached schema) (coupled_refl (fun _ => rfl) _)

theorem extractRequestBodyFields_alike : Coupled (· = ·) (extractRequestBodyFields text docs site operation)
    (extractRequestBodyFields text docs site' operation') := by
  have body : Coupled (· = ·) (requestBodyFields text docs site operation) (requestBodyFields text docs site' operation') := by
    simp only [requestBodyFields]
    refine coupled_py (get_alike alike (by decide) _) (fun body => coupled_ite (coupled_refl (fun _ => rfl) _) ?_)
    refine coupled_bind_same _ (fun content => coupled_bind_same _ (fun data => ?_))
    refine coupled_ite (coupled_refl (fun _ => rfl) _) ?_
    exact coupled_bind_same _ (fun schema => bodyFields_alike specs place schema)
  have parameters : Coupled (· = ·) (parameterFields docs site operation) (parameterFields docs site' operation') := by
    simp only [parameterFields]
    refine coupled_py (get_alike alike (by decide) _) (fun parameters => coupled_bind_same _ (fun l => ?_))
    refine coupled_bind_same _ (fun found => ?_)
    cases found with
    | some schema => exact bodyFields_alike specs place schema
    | none => exact coupled_refl (fun _ => rfl) _
  simp only [extractRequestBodyFields]
  refine coupled_bind body ?_
  rintro fields _ rfl
  exact coupled_ite (coupled_refl (fun _ => rfl) _) parameters

theorem extractFieldsForMethod_alike (httpVerb : String) :
    Coupled (· = ·) (extractFieldsForMethod text docs site httpVerb operation)
      (extractFieldsForMethod text docs site' httpVerb operation') := by
  have responses : Coupled (· = ·) (extractResponse200Fields text docs site operation)
      (extractResponse200Fields text docs site' operation') := extractResponse200Fields_alike specs place alike text
  simp only [extractFieldsForMethod]
  refine coupled_ite (coupled_bind (extractRequestBodyFields_alike specs place alike text) ?_) responses
  rintro fields _ rfl
  exact coupled_ite (coupled_refl (fun _ => rfl) _) responses

theorem requestExampleOf_alike (httpVerb : String) : Coupled (· = ·) (requestExampleOf text docs site httpVerb operation)
    (requestExampleOf text docs site' httpVerb operation') := by
  have body : Coupled (· = ·) (requestBodyExample text docs site operation) (requestBodyExample text docs site' operation') := by
    simp only [requestBodyExample]
    refine coupled_py (get_alike alike (by decide) _) (fun body => coupled_ite (coupled_refl (fun _ => rfl) _) ?_)
    refine coupled_bind_same _ (fun content => coupled_bind_same _ (fun data => ?_))
    exact coupled_ite (coupled_refl (fun _ => rfl) _) (mediaExample_alike specs place data)
  simp only [requestExampleOf, extractRequestExample]
  refine coupled_ite (coupled_bind body ?_) (coupled_refl (fun _ => rfl) _)
  rintro found _ rfl
  cases found with
  | some value => exact coupled_refl (fun _ => rfl) _
  | none =>
    refine coupled_py (get_alike alike (by decide) _) (fun parameters => coupled_bind_same _ (fun l => ?_))
    refine coupled_bind (parameterExample_alike specs place l) ?_
    rintro found _ rfl
    exact coupled_refl (fun _ => rfl) _

theorem extractResponseExample_alike : Coupled (· = ·) (extractResponseExample text docs site operation)
    (extractResponseExample text docs site' operation') := by
  simp only [extractResponseExample]
  refine coupled_py (get_alike alike (by decide) _) (fun responses => ?_)
  refine coupled_bind (selectResponse_alike specs place text responses) (fun chosen chosen' reached => ?_)
  cases reached with
  | none => exact coupled_refl (fun _ => rfl) _
  | some reached =>
    refine coupled_py (get_alike reached.schema (by decide) _) (fun content => coupled_ite ?_ ?_)
    · refine coupled_bind_same _ (fun data => coupled_ite (coupled_refl (fun _ => rfl) _) ?_)
      refine coupled_bind (mediaExample_alike specs reached data) ?_
      rintro found _ rfl
      exact coupled_refl (fun _ => rfl) _
    · refine coupled_bind (swaggerExample_alike specs reached reached.schema) ?_
      rintro found _ rfl
      exact coupled_refl (fun _ => rfl) _

/-- The methods of two operations that are read alike, where the loop over the tags
    gives related methods. -/
theorem operationMethods_alike {R : List RawMethod → List RawMethod → Prop} (portal : Portal) (path : Scalar)
    (httpVerb upper : String)
    (tagged : ∀ (opId : Node) (method : RawMethod), Coupled R
      (do let tags ← py (tagsOf operation); (extend (taggedMethod portal opId method) tags : m (List RawMethod)))
      (do let tags ← py (tagsOf operation'); (extend (taggedMethod portal opId method) tags : m (List RawMethod)))) :
    Coupled R (operationMethods portal docs site path httpVerb upper operation)
      (operationMethods portal docs site' path httpVerb upper operation') := by
  simp only [operationMethods]
  refine coupled_py (get_alike alike (by decide) _) (fun summary => ?_)
  refine coupled_py (get_alike alike (by decide) _) (fun description => ?_)
  refine coupled_py (get_alike alike (by decide) _) (fun opId => ?_)
  refine coupled_bind (extractFieldsForMethod_alike specs place alike portal.text httpVerb) ?_
  rintro fields _ rfl
  refine coupled_bind (requestExampleOf_alike specs place alike portal.text httpVerb) ?_
  rintro requestExample _ rfl
  refine coupled_bind (extractResponseExample_alike specs place alike portal.text) ?_
  rintro responseExample _ rfl
  exact tagged opId _

end

end

end ScanApi.AlikeSpecs
