import ScanApi.FieldCoverage
import ScanApi.HostSafety
import ScanApi.OpenApi

/-!
Reading a spec over the network. Whatever a parse reads, it asks the host of the
spec only, and what it returns is what the same functions return over the
sibling files that were fetched on the way (`OnRecord`). So facts about specs
whose files lie ready hold for a parse over the network.
-/
namespace ScanApi.NetworkRuns
open ScanApi.Raising ScanApi.Yaml ScanApi.Python ScanApi.Refs ScanApi.Fields ScanApi.Examples ScanApi.OpenApi
open ScanApi.FieldCoverage ScanApi.Requests ScanApi.Prog ScanApi.Replay ScanApi.HostSafety

/-- Over the network the program asks the host of `base` only, returns what has
    `P`, and returns what it returns over the files that were read. -/
def OnRecord (lib : Library) (base : String) {α : Type} (P : α → Prop)
    (run : {m : Type → Type} → [Monad m] → [MonadExceptOf PyError m] → Documents m → m α) : Prop :=
  Recorded (record lib base) P (run (documents lib)) (fun files => run (siblings lib files))

variable {lib : Library} {base : String} {site : Site}

/-- A place on the host, if any. -/
def PlaceAtHost (lib : Library) (base : String) (place : Option Site) : Prop := ∀ target ∈ place, AtHost lib base target

theorem placeAtHost_usable {target : Site} (there : AtHost lib base target) :
    PlaceAtHost lib base (if target.schema.truthy then some target else none) := by
  intro other member
  split at member
  · obtain rfl := Option.some.inj member
    exact there
  · cases member

theorem placeAtHost_some {target : Site} (there : AtHost lib base target) : PlaceAtHost lib base (some target) := by
  intro other member
  obtain rfl := Option.some.inj member
  exact there

theorem placeAtHost_none : PlaceAtHost lib base none := by
  intro target impossible
  cases impossible

theorem enter_onRecord (here : AtHost lib base site) :
    OnRecord lib base (PlaceAtHost lib base) (fun docs => enter docs site) := by
  simp only [OnRecord, enter]
  refine recorded_ite (fun _ => recorded_pure placeAtHost_none) (fun _ => ?_)
  refine recorded_bind (recorded_py _) (fun hasRef _ => ?_)
  refine recorded_ite (fun _ => ?_) (fun _ => recorded_pure (placeAtHost_some here))
  refine recorded_bind (recorded_py _) (fun ref _ => ?_)
  exact recorded_bind (resolveRef_recorded here) (fun target there => recorded_pure (placeAtHost_usable there))

/-! ### Fields -/

section
variable
  {deeper : {m : Type → Type} → [Monad m] → [MonadExceptOf PyError m] → Documents m → Scalar → Site → m (List Scalar)}
  (below : ∀ namePrefix site, AtHost lib base site →
    OnRecord lib base (fun _ => True) (fun docs => deeper docs namePrefix site))
include below

theorem propertyFields_onRecord (here : AtHost lib base site) (nested : Bool) (namePrefix : Scalar)
    (property : Scalar × Node) :
    OnRecord lib base (fun _ => True) (fun docs => propertyFields nested (deeper docs) namePrefix site property) := by
  simp only [OnRecord, propertyFields]
  refine recorded_ite (fun _ => ?_) (fun _ => recorded_pure trivial)
  exact recorded_bind (below _ _ here) (fun _ _ => recorded_pure trivial)

theorem schemaFields_onRecord (here : AtHost lib base site) (nested : Bool) (namePrefix : Scalar) :
    OnRecord lib base (fun _ => True) (fun docs => schemaFields nested (deeper docs) namePrefix site) := by
  simp only [OnRecord, schemaFields]
  refine recorded_bind (recorded_py _) (fun subs _ => ?_)
  cases subs with
  | some subs =>
    refine recorded_bind (recorded_py _) (fun l _ => ?_)
    exact recorded_extend trivial (fun _ _ _ _ => trivial) (fun sub => below namePrefix (site.at sub) here) l
  | none =>
    refine recorded_bind (recorded_py _) (fun object _ => recorded_ite (fun _ => ?_) (fun _ => ?_))
    · refine recorded_bind (recorded_py _) (fun properties _ => recorded_bind (recorded_py _) (fun entries _ => ?_))
      refine recorded_extend trivial (fun _ _ _ _ => trivial) (fun property => ?_) entries
      exact propertyFields_onRecord below here nested namePrefix property
    · refine recorded_bind (recorded_py _) (fun array _ => recorded_ite (fun _ => ?_) (fun _ => recorded_pure trivial))
      exact recorded_bind (recorded_py _) (fun schema _ => below _ _ here)

end

theorem extractFields_onRecord : ∀ (room : Nat) (namePrefix : Scalar) (site : Site), AtHost lib base site →
    OnRecord lib base (fun _ => True) (fun docs => extractFields docs room namePrefix site) := by
  intro room
  induction room with
  | zero => intro _ _ _; exact recorded_pure trivial
  | succ room ih =>
    intro namePrefix site here
    simp only [OnRecord, extractFields]
    refine recorded_bind (enter_onRecord here) (fun place there => ?_)
    cases place with
    | none => exact recorded_pure trivial
    | some target =>
      exact @schemaFields_onRecord lib base target (fun docs => extractFields docs room) ih (there target rfl) _ namePrefix

/-! ### Examples -/

theorem combinerSite_onRecord (here : AtHost lib base site) (sub : Node) :
    OnRecord lib base (PlaceAtHost lib base) (fun docs => combinerSite docs site sub) := by
  simp only [OnRecord, combinerSite]
  refine recorded_bind (recorded_py _) (fun hasRef _ => ?_)
  refine recorded_ite (fun _ => ?_) (fun _ => recorded_pure (placeAtHost_some here))
  refine recorded_bind (recorded_py _) (fun ref _ => ?_)
  exact recorded_bind (resolveRef_recorded here) (fun target there => recorded_pure (placeAtHost_usable there))

section
variable {deeper : {m : Type → Type} → [Monad m] → [MonadExceptOf PyError m] → Documents m → Site → m Node}
  (below : ∀ site, AtHost lib base site → OnRecord lib base (fun _ => True) (fun docs => deeper docs site))
  (here : AtHost lib base site)
include below here

theorem mergeSubs_onRecord : ∀ (subs : List Node) (merged : List (Scalar × Node)),
    OnRecord lib base (fun _ => True) (fun docs => mergeSubs docs (deeper docs) site subs merged) := by
  intro subs
  induction subs with
  | nil => intro merged; exact recorded_pure trivial
  | cons sub rest ih =>
    intro merged
    simp only [OnRecord, mergeSubs]
    refine recorded_bind (combinerSite_onRecord here sub) (fun place there => ?_)
    cases place with
    | none => exact ih merged
    | some target =>
      refine recorded_bind (below target (there target rfl)) (fun value _ => ?_)
      cases value with
      | map entries => exact ih _
      | scalar _ | list _ | set _ => exact recorded_ite (fun _ => recorded_pure trivial) (fun _ => ih merged)

theorem mergeProperties_onRecord : ∀ (properties merged : List (Scalar × Node)),
    OnRecord lib base (fun _ => True) (fun docs => mergeProperties (deeper docs) site properties merged) := by
  intro properties
  induction properties with
  | nil => intro merged; exact recorded_pure trivial
  | cons property rest ih =>
    intro merged
    simp only [OnRecord, mergeProperties]
    refine recorded_ite (fun _ => ih merged) (fun _ => ?_)
    exact recorded_bind (below _ here) (fun value _ => ih _)

theorem propertyExample_onRecord (property : Node) :
    OnRecord lib base (fun _ => True) (fun docs => propertyExample (deeper docs) site property) := by
  simp only [OnRecord, propertyExample]
  refine recorded_bind (below _ here) (fun value _ => recorded_ite (fun _ => recorded_pure trivial) (fun _ => ?_))
  exact recorded_weaken (fun _ _ => trivial) (recorded_py _)

theorem objectExample_onRecord : ∀ (properties obj : List (Scalar × Node)),
    OnRecord lib base (fun _ => True) (fun docs => objectExample (deeper docs) site properties obj) := by
  intro properties
  induction properties with
  | nil => intro obj; exact recorded_pure trivial
  | cons property rest ih =>
    intro obj
    simp only [OnRecord, objectExample]
    exact recorded_bind (propertyExample_onRecord below here _) (fun value _ => ih _)

theorem exampleOf_onRecord : OnRecord lib base (fun _ => True) (fun docs => exampleOf docs (deeper docs) site) := by
  simp only [OnRecord, exampleOf]
  refine recorded_bind (recorded_py _) (fun explicit _ => recorded_ite (fun _ => ?_) (fun _ => ?_))
  · exact recorded_bind (recorded_py _) (fun value _ => recorded_pure trivial)
  · refine recorded_bind (recorded_py _) (fun subs _ => ?_)
    cases subs with
    | some subs =>
      refine recorded_bind (recorded_py _) (fun l _ => ?_)
      refine recorded_bind (mergeSubs_onRecord below here l []) (fun result _ => ?_)
      cases result with
      | inl value => exact recorded_pure trivial
      | inr merged =>
        refine recorded_bind (recorded_py _) (fun properties _ => recorded_bind (recorded_py _) (fun entries _ => ?_))
        exact recorded_bind (mergeProperties_onRecord below here entries merged) (fun _ _ => recorded_pure trivial)
    | none =>
      refine recorded_bind (recorded_py _) (fun object _ => recorded_ite (fun _ => ?_) (fun _ => ?_))
      · refine recorded_bind (recorded_py _) (fun properties _ => recorded_bind (recorded_py _) (fun entries _ => ?_))
        exact recorded_bind (objectExample_onRecord below here entries []) (fun _ _ => recorded_pure trivial)
      · refine recorded_bind (recorded_py _) (fun array _ => recorded_ite (fun _ => ?_) (fun _ => ?_))
        · refine recorded_bind (recorded_py _) (fun schema _ => ?_)
          exact recorded_bind (below _ here) (fun _ _ => recorded_pure trivial)
        · exact recorded_bind (recorded_py _) (fun type _ => recorded_weaken (fun _ _ => trivial) (recorded_py _))

end

theorem schemaToExample_onRecord : ∀ (room : Nat) (site : Site), AtHost lib base site →
    OnRecord lib base (fun _ => True) (fun docs => schemaToExample docs room site) := by
  intro room
  induction room with
  | zero => intro _ _; exact recorded_pure trivial
  | succ room ih =>
    intro site here
    simp only [OnRecord, schemaToExample]
    refine recorded_bind (enter_onRecord here) (fun place there => ?_)
    cases place with
    | none => exact recorded_pure trivial
    | some target => exact @exampleOf_onRecord lib base target (fun docs => schemaToExample docs room) ih (there target rfl)

/-! ### Bodies of a method -/

theorem responseSite_onRecord (here : AtHost lib base site) (entry : Node) :
    OnRecord lib base (AtHost lib base) (fun docs => responseSite docs site entry) := by
  simp only [OnRecord, responseSite]
  refine recorded_bind (recorded_py _) (fun hasRef _ => recorded_ite (fun _ => ?_) (fun _ => recorded_pure here))
  exact recorded_bind (recorded_py _) (fun ref _ => resolveRef_recorded here)

/-- Responses in documents on the host. -/
def ResponsesAtHost (lib : Library) (base : String) (cs : List (String × Site)) : Prop := ∀ c ∈ cs, AtHost lib base c.2

theorem candidate_onRecord (here : AtHost lib base site) (text : Text) (e : String × Node) :
    OnRecord lib base (ResponsesAtHost lib base) (fun docs => candidate text docs site e) := by
  have none : ResponsesAtHost lib base [] := fun _ member => nomatch member
  simp only [OnRecord, candidate]
  refine recorded_ite (fun _ => recorded_pure none) (fun _ => ?_)
  refine recorded_bind (responseSite_onRecord here e.2) (fun target there => ?_)
  have one : ResponsesAtHost lib base [(e.1, target)] := by
    intro c member
    rw [List.mem_singleton.mp member]
    exact there
  refine recorded_ite (fun _ => recorded_pure none) (fun _ => ?_)
  refine recorded_bind (recorded_py _) (fun content _ => recorded_ite (fun _ => recorded_pure one) (fun _ => ?_))
  refine recorded_bind (recorded_py _) (fun schema _ => recorded_ite (fun _ => recorded_pure one) (fun _ => ?_))
  exact recorded_pure none

theorem choose_atHost {cs : List (String × Site)} (inside : ResponsesAtHost lib base cs) :
    PlaceAtHost lib base (choose cs) := by
  intro target chosen
  rw [choose] at chosen
  split at chosen
  · rename_i c found
    obtain rfl := Option.some.inj chosen
    exact inside c (List.mem_of_find?_eq_some found)
  · obtain ⟨c, first, rfl⟩ := Option.map_eq_some_iff.mp chosen
    exact inside c (List.mem_of_mem_head? first)

theorem selectResponse_onRecord (here : AtHost lib base site) (text : Text) (responses : Node) :
    OnRecord lib base (PlaceAtHost lib base) (fun docs => selectResponse text docs site responses) := by
  simp only [OnRecord, selectResponse, candidates]
  refine recorded_map (recorded_bind (recorded_py _) (fun entries _ => ?_)) (fun cs => choose_atHost)
  refine recorded_extend (fun _ member => nomatch member) (fun first others inside inside' c member => ?_)
    (fun e => candidate_onRecord here text e) _
  exact (List.mem_append.mp member).elim (inside c) (inside' c)

theorem bodyFields_onRecord (here : AtHost lib base site) (schema : Node) :
    OnRecord lib base (fun _ => True) (fun docs => bodyFields docs site schema) :=
  extractFields_onRecord 5 (.str "") { site with schema, seen := ∅ } here

theorem bodyExample_onRecord (here : AtHost lib base site) (schema : Node) :
    OnRecord lib base (fun _ => True) (fun docs => bodyExample docs site schema) :=
  schemaToExample_onRecord 13 { site with schema, seen := ∅ } here

section
variable (here : AtHost lib base site) (text : Text) (operation : Node)
include here

theorem extractResponse200Fields_onRecord :
    OnRecord lib base (fun _ => True) (fun docs => extractResponse200Fields text docs site operation) := by
  simp only [OnRecord, extractResponse200Fields]
  refine recorded_bind (recorded_py _) (fun responses _ => ?_)
  refine recorded_bind (selectResponse_onRecord here text responses) (fun place there => ?_)
  cases place with
  | none => exact recorded_pure trivial
  | some ok =>
    refine recorded_bind (recorded_py _) (fun content _ => recorded_ite (fun _ => ?_) (fun _ => ?_))
    · refine recorded_bind (recorded_py _) (fun data _ => recorded_ite (fun _ => recorded_pure trivial) (fun _ => ?_))
      exact recorded_bind (recorded_py _) (fun schema _ => bodyFields_onRecord (there ok rfl) schema)
    · refine recorded_bind (recorded_py _) (fun schema _ => ?_)
      exact recorded_ite (fun _ => bodyFields_onRecord (there ok rfl) schema) (fun _ => recorded_pure trivial)

theorem requestBodyFields_onRecord :
    OnRecord lib base (fun _ => True) (fun docs => requestBodyFields text docs site operation) := by
  simp only [OnRecord, requestBodyFields]
  refine recorded_bind (recorded_py _) (fun body _ => recorded_ite (fun _ => recorded_pure trivial) (fun _ => ?_))
  refine recorded_bind (recorded_py _) (fun content _ => recorded_bind (recorded_py _) (fun data _ => ?_))
  refine recorded_ite (fun _ => recorded_pure trivial) (fun _ => ?_)
  exact recorded_bind (recorded_py _) (fun schema _ => bodyFields_onRecord here schema)

theorem parameterFields_onRecord :
    OnRecord lib base (fun _ => True) (fun docs => parameterFields docs site operation) := by
  simp only [OnRecord, parameterFields]
  refine recorded_bind (recorded_py _) (fun parameters _ => recorded_bind (recorded_py _) (fun l _ => ?_))
  refine recorded_bind (recorded_py _) (fun found _ => ?_)
  cases found with
  | some schema => exact bodyFields_onRecord here schema
  | none => exact recorded_pure trivial

theorem extractFieldsForMethod_onRecord (httpVerb : String) :
    OnRecord lib base (fun _ => True) (fun docs => extractFieldsForMethod text docs site httpVerb operation) := by
  simp only [OnRecord, extractFieldsForMethod, extractRequestBodyFields]
  refine recorded_ite (fun _ => ?_) (fun _ => extractResponse200Fields_onRecord here text operation)
  refine recorded_bind (P := fun _ => True)
    (recorded_bind (requestBodyFields_onRecord here text operation) (fun fields _ => ?_)) (fun fields _ => ?_)
  · exact recorded_ite (fun _ => recorded_pure trivial) (fun _ => parameterFields_onRecord here operation)
  · exact recorded_ite (fun _ => recorded_pure trivial) (fun _ => extractResponse200Fields_onRecord here text operation)

theorem schemaExample_onRecord (schema : Node) :
    OnRecord lib base (fun _ => True) (fun docs => schemaExample docs site schema) := by
  simp only [OnRecord, schemaExample]
  exact recorded_bind (bodyExample_onRecord here schema) (fun _ _ => recorded_pure trivial)

theorem mediaExample_onRecord (data : Node) :
    OnRecord lib base (fun _ => True) (fun docs => mediaExample docs site data) := by
  simp only [OnRecord, mediaExample]
  refine recorded_bind (recorded_py _) (fun explicit _ => ?_)
  cases explicit with
  | some value => exact recorded_pure trivial
  | none => exact recorded_bind (recorded_py _) (fun schema _ => schemaExample_onRecord here schema)

theorem parameterExample_onRecord : ∀ parameters : List Node,
    OnRecord lib base (fun _ => True) (fun docs => parameterExample docs site parameters) := by
  intro parameters
  induction parameters with
  | nil => exact recorded_pure trivial
  | cons param rest ih =>
    simp only [OnRecord, parameterExample]
    refine recorded_bind (recorded_py _) (fun place _ => recorded_ite (fun _ => ?_) (fun _ => ih))
    refine recorded_bind (recorded_py _) (fun schema _ => ?_)
    refine recorded_bind (schemaExample_onRecord here schema) (fun found _ => ?_)
    cases found with
    | some value => exact recorded_pure trivial
    | none => exact ih

theorem requestBodyExample_onRecord :
    OnRecord lib base (fun _ => True) (fun docs => requestBodyExample text docs site operation) := by
  simp only [OnRecord, requestBodyExample]
  refine recorded_bind (recorded_py _) (fun body _ => recorded_ite (fun _ => recorded_pure trivial) (fun _ => ?_))
  refine recorded_bind (recorded_py _) (fun content _ => recorded_bind (recorded_py _) (fun data _ => ?_))
  exact recorded_ite (fun _ => recorded_pure trivial) (fun _ => mediaExample_onRecord here data)

theorem extractRequestExample_onRecord :
    OnRecord lib base (fun _ => True) (fun docs => extractRequestExample text docs site operation) := by
  simp only [OnRecord, extractRequestExample]
  refine recorded_bind (requestBodyExample_onRecord here text operation) (fun found _ => ?_)
  cases found with
  | some value => exact recorded_pure trivial
  | none =>
    refine recorded_bind (recorded_py _) (fun parameters _ => recorded_bind (recorded_py _) (fun l _ => ?_))
    exact recorded_bind (parameterExample_onRecord here l) (fun _ _ => recorded_pure trivial)

theorem swaggerExample_onRecord : OnRecord lib base (fun _ => True) (fun docs => swaggerExample docs site) := by
  simp only [OnRecord, swaggerExample]
  refine recorded_bind (recorded_py _) (fun examples _ => recorded_bind (recorded_py _) (fun entries _ => ?_))
  refine recorded_bind (recorded_py _) (fun found _ => ?_)
  cases found with
  | some value => exact recorded_pure trivial
  | none =>
    refine recorded_bind (recorded_py _) (fun schema _ => recorded_ite (fun _ => recorded_pure trivial) (fun _ => ?_))
    exact schemaExample_onRecord here schema

theorem extractResponseExample_onRecord :
    OnRecord lib base (fun _ => True) (fun docs => extractResponseExample text docs site operation) := by
  simp only [OnRecord, extractResponseExample]
  refine recorded_bind (recorded_py _) (fun responses _ => ?_)
  refine recorded_bind (selectResponse_onRecord here text responses) (fun place there => ?_)
  cases place with
  | none => exact recorded_pure trivial
  | some ok =>
    refine recorded_bind (recorded_py _) (fun content _ => recorded_ite (fun _ => ?_) (fun _ => ?_))
    · refine recorded_bind (recorded_py _) (fun data _ => recorded_ite (fun _ => recorded_pure trivial) (fun _ => ?_))
      exact recorded_bind (mediaExample_onRecord (there ok rfl) data) (fun _ _ => recorded_pure trivial)
    · exact recorded_bind (swaggerExample_onRecord (there ok rfl)) (fun _ _ => recorded_pure trivial)

theorem requestExampleOf_onRecord (httpVerb : String) :
    OnRecord lib base (fun _ => True) (fun docs => requestExampleOf text docs site httpVerb operation) := by
  simp only [OnRecord, requestExampleOf]
  exact recorded_ite (fun _ => extractRequestExample_onRecord here text operation) (fun _ => recorded_pure trivial)

end

/-! ### Methods -/

section
variable (portal : Portal) (here : AtHost lib base site)
include here

theorem operationMethods_onRecord (path : Scalar) (httpVerb upper : String) (operation : Node) :
    OnRecord lib base (fun _ => True) (fun docs => operationMethods portal docs site path httpVerb upper operation) := by
  simp only [OnRecord, operationMethods]
  refine recorded_bind (recorded_py _) (fun summary _ => recorded_bind (recorded_py _) (fun description _ => ?_))
  refine recorded_bind (recorded_py _) (fun opId _ => ?_)
  refine recorded_bind (extractFieldsForMethod_onRecord here portal.text operation httpVerb) (fun fields _ => ?_)
  refine recorded_bind (requestExampleOf_onRecord here portal.text operation httpVerb) (fun request _ => ?_)
  refine recorded_bind (extractResponseExample_onRecord here portal.text operation) (fun response _ => ?_)
  refine recorded_bind (recorded_py _) (fun tags _ => ?_)
  refine recorded_extend trivial (fun _ _ _ _ => trivial) (fun tag => ?_) tags
  refine recorded_bind (recorded_py _) (fun excluded _ => recorded_ite (fun _ => recorded_pure trivial) (fun _ => ?_))
  exact recorded_bind (recorded_py _) (fun url _ => recorded_bind (recorded_py _) (fun name _ => recorded_pure trivial))

theorem entryMethods_onRecord (path : Scalar) (e : Scalar × Node) :
    OnRecord lib base (fun _ => True) (fun docs => entryMethods portal docs site path e) := by
  simp only [OnRecord]
  unfold entryMethods
  split
  · split
    · exact operationMethods_onRecord portal here _ _ _ _
    · exact recorded_pure trivial
  · exact recorded_pure trivial

theorem pathMethods_onRecord (e : Scalar × Node) :
    OnRecord lib base (fun _ => True) (fun docs => pathMethods portal docs site e) := by
  simp only [OnRecord]
  unfold pathMethods
  split
  · exact recorded_extend trivial (fun _ _ _ _ => trivial) (fun o => entryMethods_onRecord portal here e.1 o) _
  · exact recorded_pure trivial

end

/-- A parse of a spec asks the host of the spec only, and returns what it returns
    over the files that it read. -/
theorem parseOpenapiSpec_onRecord (portal : Portal) (spec : Node) (specUrl : String) :
    OnRecord lib specUrl (fun _ => True) (fun docs => parseOpenapiSpec portal docs spec (some specUrl)) := by
  have here : AtHost lib specUrl { schema := .map [], spec, specUrl := some specUrl } :=
    fun url known => .inl (Option.some.inj known).symm
  simp only [OnRecord, parseOpenapiSpec, specMethods]
  refine recorded_map (recorded_bind (recorded_py _) (fun paths _ => recorded_bind (recorded_py _) (fun entries _ => ?_)))
    (fun _ => id)
  exact recorded_extend trivial (fun _ _ _ _ => trivial) (fun e => pathMethods_onRecord portal here e) _

/-! ### Runs -/

/-- Every request of a parse, over all its references and redirects, is on the
    host of the spec. -/
theorem parse_stays_on_host (portal : Portal) (spec : Node) (specUrl : String) (s : Net) :
    ∃ later, (exec (parseOpenapiSpec portal (documents lib) spec (some specUrl)) s).2.requests = s.requests ++ later ∧
      ∀ u ∈ later, SameHost lib specUrl u :=
  (parseOpenapiSpec_onRecord portal spec specUrl s).1.1

/-- A parse that returns gives the snapshot of the spec with the files it read. -/
theorem parse_snapshot {portal : Portal} {spec : Node} {specUrl : String} {s s' : Net}
    {services : Dict Scalar (List RawMethod)} {files : String → Except PyError Node}
    (parsed : exec (parseOpenapiSpec portal (documents lib) spec (some specUrl)) s = (.ok services, s'))
    (ready : ∀ url spec, s'.cache.get? url = some spec → files url = .ok spec) :
    snapshotOf portal (siblings lib files) spec (some specUrl) = declared services := by
  have returns := (@parseOpenapiSpec_onRecord lib portal spec specUrl s).2 services (congrArg Prod.fst parsed)
  rw [parsed] at returns
  have replayed : parseOpenapiSpec portal (siblings lib files) spec (some specUrl) = .ok services :=
    returns.2 files ready
  rw [snapshotOf, replayed]
  rfl

/-- The fields of a body and then its example, read over the network: where both
    read the schema alike, every key of the example is one of the fields. -/
theorem shows_fields_network {specUrl : String} (known : site.specUrl = some specUrl) {namePrefix : Scalar}
    (top : namePrefix.truthy = false) {room level : Nat} {s s' s'' : Net} {fields : List Scalar} {value : Node}
    {files : String → Except PyError Node}
    (listed : exec (extractFields (documents lib) room namePrefix site) s = (.ok fields, s'))
    (made : exec (schemaToExample (documents lib) level site) s' = (.ok value, s''))
    (ready : ∀ url spec, s''.cache.get? url = some spec → files url = .ok spec)
    (comparable : Comparable (siblings lib files) room site) : ∀ key, Shows key value → key ∈ fields := by
  have here : AtHost lib specUrl site := fun url other => .inl (Option.some.inj (other.symm.trans known))
  have listing := (extractFields_onRecord room namePrefix site here s).2 fields (congrArg Prod.fst listed)
  have making := schemaToExample_onRecord level site here s'
  rw [listed] at listing
  rw [made] at making
  have replayed : schemaToExample (siblings lib files) level site = .ok value := (making.2 value rfl).2 files ready
  -- The example forgets no file that the fields were read from.
  have replayed' : extractFields (siblings lib files) room namePrefix site = .ok fields :=
    listing.2 files (fun url spec read => ready url spec (making.1.2 url spec read))
  exact shows_fields comparable top replayed replayed'

end ScanApi.NetworkRuns
