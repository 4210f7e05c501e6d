import ScanApi.RefTransparency

/-!
The guard against references that revisit themselves. Both recursions carry the
texts of the references followed on their branch; the node that a text names
depends on the document it stands in (`named`). `Branch` is every branch of the
two recursions with the references really followed on it, and all that they
resolve is asked on one (`extractFields_asked`, `schemaToExample_asked`). A text
is refused where the branch has followed it, which is right unless it was
followed in another document to another node (`refusal_justified_iff`).
-/
namespace ScanApi.RefCycles
open ScanApi.Raising ScanApi.Yaml ScanApi.Python ScanApi.Refs ScanApi.Fields ScanApi.Examples
open ScanApi.RefTransparency (refTo)

variable {docs docs' : Documents (Except PyError)} {site target : Site}

/-! ### The node that a reference names -/

/-- A node by the URL of its document and the pointer to it. -/
structure Place where
  document : Option String
  pointer : String
deriving DecidableEq

/-- The node at a pointer; the empty one points to the whole document. -/
def nodeAt (pointer : String) (spec : Node) : Node :=
  if pointer = "" then spec else walk ((pointer.toList.drop 1).splitOn '/') spec

/-- The node that a reference into a sibling file names, if it names one. -/
def externalPlace (docs : Documents (Except PyError)) (ref : String) : Option String → Option Place
  | none | some "" => none
  | some specUrl =>
    let (filePart, fragment) := partitionHash ref
    if filePart = "" then none
    else (docs.urljoin specUrl filePart).toOption.map (fun url => ⟨some url, fragment⟩)

/-- The node that the text of a reference names where it stands. -/
def named (docs : Documents (Except PyError)) (ref : String) (site : Site) : Option Place :=
  if "#/".toList.isPrefixOf ref.toList then some ⟨site.specUrl, String.ofList (ref.toList.drop 1)⟩
  else externalPlace docs ref site.specUrl

/-- The pointer behind the hash of a reference into a sibling file. -/
theorem pointer_hash (fragment : String) (spec : Node) :
    nodeAt fragment spec = if fragment = "" then spec else resolvePointer ("#" ++ fragment) spec := by
  have hash : ("#" ++ fragment).toList = '#' :: fragment.toList := by simp
  rw [nodeAt, resolvePointer, hash, List.drop_succ_cons]

/-- A reference into a sibling file leads nowhere, or to the node that it names. -/
theorem resolveExternal_cases {ref : String} (resolved : resolveExternal docs ref site = .ok target) :
    target = site.unresolved ∨
    ∃ place, externalPlace docs ref site.specUrl = some place ∧ target.specUrl = place.document ∧
      target.schema = nodeAt place.pointer target.spec ∧ target.seen = site.seen := by
  simp only [resolveExternal, py_except] at resolved
  split at resolved
  · exact .inl (pure_ok.mp resolved).symm
  · rename_i filled
    split at resolved
    · exact .inl (pure_ok.mp resolved).symm
    · exact .inl (pure_ok.mp resolved).symm
    · rename_i specUrl nonempty known
      obtain ⟨url, joined, resolved⟩ := bind_ok.mp resolved
      obtain ⟨sibling, checked, resolved⟩ := bind_ok.mp resolved
      split at resolved
      · exact .inl (pure_ok.mp resolved).symm
      · obtain ⟨spec, fetched, resolved⟩ := bind_ok.mp resolved
        split at resolved
        · exact .inl (pure_ok.mp resolved).symm
        · obtain rfl := pure_ok.mp resolved
          refine .inr ⟨⟨some url, (partitionHash ref).2⟩, ?_, rfl, ?_, rfl⟩
          · rw [known, externalPlace]
            · simp only [if_neg filled, joined, Except.toOption, Option.map_some]
            · exact nonempty
          · exact (pointer_hash _ spec).symm

theorem resolveExternal_seen {ref : String} (resolved : resolveExternal docs ref site = .ok target) :
    target.seen = site.seen := by
  rcases resolveExternal_cases resolved with rfl | ⟨_, _, _, _, seen⟩
  · rfl
  · exact seen

theorem resolvePointer_eq {ref : String} (here : "#/".toList.isPrefixOf ref.toList = true) (spec : Node) :
    resolvePointer ref spec = nodeAt (String.ofList (ref.toList.drop 1)) spec := by
  obtain ⟨rest, split⟩ := List.isPrefixOf_iff_prefix.mp here
  have pointed : ref.toList.drop 1 = '/' :: rest := by rw [← split]; rfl
  have nonempty : String.ofList (ref.toList.drop 1) ≠ "" := by
    intro same
    have none : ref.toList.drop 1 = [] := by simpa using congrArg String.toList same
    rw [pointed] at none
    cases none
  rw [nodeAt, if_neg nonempty, resolvePointer, String.toList_ofList, List.drop_drop]

/-- A reference that is followed leads to the node it names, and the branch has it
    among its seen ones. -/
theorem resolveRef_usable {ref : Node} (resolved : resolveRef docs ref site = .ok target)
    (usable : target.schema.truthy = true) :
    ∃ text place, ref = .scalar (.str text) ∧ text ∉ site.seen ∧ named docs text site = some place ∧
      target.specUrl = place.document ∧ target.schema = nodeAt place.pointer target.spec ∧
      target.seen = insert text site.seen := by
  have lost : site.unresolved ≠ target := by rintro rfl; cases usable
  simp only [resolveRef, py_except] at resolved
  split at resolved
  · exact absurd (pure_ok.mp resolved) lost
  · obtain ⟨text, read, resolved⟩ := bind_ok.mp resolved
    have isText : ref = .scalar (.str text) := by
      cases ref with
      | scalar scalar =>
        cases scalar with
        | str value => cases read; rfl
        | null | bool _ | int _ | float _ | date _ _ | binary _ => cases read
      | list _ | map _ | set _ => cases read
    split at resolved
    · exact absurd (pure_ok.mp resolved) lost
    · rename_i unseen
      split at resolved
      · rename_i here
        obtain rfl := pure_ok.mp resolved
        exact ⟨text, ⟨site.specUrl, String.ofList (text.toList.drop 1)⟩, isText, unseen, if_pos here, rfl,
          resolvePointer_eq here site.spec, rfl⟩
      · rename_i elsewhere
        rcases resolveExternal_cases resolved with rfl | ⟨place, names, document, node, seen⟩
        · cases usable
        · exact ⟨text, place, isText, unseen, (if_neg elsewhere).trans names, document, node, seen⟩

/-! ### Branches -/

/-- One of the schemas that a schema combines. -/
def Combined (schema sub : Node) : Prop :=
  ∃ value subs, combined schema = .ok (some value) ∧ iter value = .ok subs ∧ sub ∈ subs

/-- A schema that is read as a part of another: a combined one, a property or the
    items. -/
inductive Child (schema : Node) : Node → Prop
  | combined {sub : Node} (part : Combined schema sub) : Child schema sub
  | property {properties : Node} {entries : List (Scalar × Node)} {e : Scalar × Node}
      (read : get "properties" (.map []) schema = .ok properties) (listed : items properties = .ok entries)
      (member : e ∈ entries) : Child schema e.2
  | items {sub : Node} (read : get "items" (.map []) schema = .ok sub) : Child schema sub

/-- A reference that was followed, and where it stood. -/
structure Use where
  ref : Node
  site : Site

/-- Where a recursion is with a schema: at its top, before its own reference, or
    past it, where its parts are read. -/
inductive Phase
  | called
  | read

/-- The branches of `_extract_fields` and `_schema_to_example`, without a limit on
    their depth: the references really followed so far, the last one first, and
    where the recursion is. -/
inductive Branch (docs : Documents (Except PyError)) : Phase → List Use → Site → Prop
  | start {site : Site} (fresh : site.seen = ∅) : Branch docs .called [] site
  | self {trail : List Use} {site : Site} (call : Branch docs .called trail site)
      (noRef : contains "$ref" site.schema = .ok false) : Branch docs .read trail site
  | follow {trail : List Use} {site target : Site} {ref : Node} (call : Branch docs .called trail site)
      (stands : item "$ref" site.schema = .ok ref) (resolved : resolveRef docs ref site = .ok target)
      (usable : target.schema.truthy = true) : Branch docs .read (⟨ref, site⟩ :: trail) target
  | child {trail : List Use} {site : Site} {sub : Node} (level : Branch docs .read trail site)
      (part : Child site.schema sub) : Branch docs .called trail (site.at sub)
  /-- An example follows the reference of a combined schema before it calls itself. -/
  | combine {trail : List Use} {site target : Site} {sub ref : Node} (level : Branch docs .read trail site)
      (part : Combined site.schema sub) (stands : item "$ref" sub = .ok ref)
      (resolved : resolveRef docs ref site = .ok target) (usable : target.schema.truthy = true) :
      Branch docs .called (⟨ref, site⟩ :: trail) target

/-- A reference that is resolved on a branch. -/
inductive Asked (docs : Documents (Except PyError)) (trail : List Use) (site : Site) (ref : Node) : Prop
  | top (call : Branch docs .called trail site) (stands : item "$ref" site.schema = .ok ref)
  | combined {sub : Node} (level : Branch docs .read trail site) (part : Combined site.schema sub)
      (stands : item "$ref" sub = .ok ref)

theorem Asked.branch {trail : List Use} {ref : Node} (asked : Asked docs trail site ref) :
    ∃ phase, Branch docs phase trail site := by
  cases asked with
  | top call _ => exact ⟨_, call⟩
  | combined level _ _ => exact ⟨_, level⟩

/-! ### All references are asked on a branch -/

/-- The documents answer alike on the branches. -/
def SameAnswers (docs docs' : Documents (Except PyError)) : Prop :=
  ∀ trail site ref, Asked docs trail site ref → resolveRef docs ref site = resolveRef docs' ref site

theorem enter_asked (same : SameAnswers docs docs') {trail : List Use} (call : Branch docs .called trail site) :
    enter docs site = enter docs' site := by
  simp only [enter, py_except]
  refine ite_congr rfl (fun _ => rfl) (fun _ => bind_congr (fun hasRef => ite_congr rfl (fun _ => ?_) (fun _ => rfl)))
  refine bind_congr_ok (fun ref stands => ?_)
  rw [same trail site ref (.top call stands)]

/-- Where a schema is entered its parts are read. -/
theorem branch_of_enter {trail : List Use} (call : Branch docs .called trail site)
    (entered : enter docs site = .ok (some target)) : ∃ trail', Branch docs .read trail' target := by
  simp only [enter, py_except] at entered
  split at entered
  · cases entered
  · obtain ⟨hasRef, contained, entered⟩ := bind_ok.mp entered
    split at entered
    · obtain ⟨ref, stands, entered⟩ := bind_ok.mp entered
      obtain ⟨next, resolved, entered⟩ := bind_ok.mp entered
      obtain ⟨usable, rfl⟩ := Option.ite_some_none_eq_some.mp (pure_ok.mp entered)
      exact ⟨_, .follow call stands resolved usable⟩
    · rename_i noRef
      obtain rfl := Option.some.inj (pure_ok.mp entered)
      rw [Bool.not_eq_true] at noRef
      exact ⟨_, .self call (noRef ▸ contained)⟩

/-- Only the parts of a schema are read deeper. -/
theorem schemaFields_congr {nested : Bool} {deeper deeper' : Scalar → Site → Except PyError (List Scalar)}
    {namePrefix : Scalar} (same : ∀ name sub, Child target.schema sub → deeper name (target.at sub) = deeper' name (target.at sub)) :
    schemaFields nested deeper namePrefix target = schemaFields nested deeper' namePrefix target := by
  simp only [schemaFields, py_except]
  refine bind_congr_ok (fun place found => ?_)
  cases place with
  | some value =>
    refine bind_congr_ok (fun subs listed => extend_congr (fun sub member => ?_))
    exact same namePrefix sub (.combined ⟨value, subs, found, listed, member⟩)
  | none =>
    refine bind_congr (fun object => ite_congr rfl (fun _ => ?_) (fun _ => bind_congr (fun array =>
      ite_congr rfl (fun _ => ?_) (fun _ => rfl))))
    · refine bind_congr_ok (fun properties read => bind_congr_ok (fun entries listed => extend_congr (fun e member => ?_)))
      simp only [propertyFields, same _ e.2 (.property read listed member)]
    · refine bind_congr_ok (fun sub read => ?_)
      exact same namePrefix sub (.items read)

/-- Fields are read with what is resolved on a branch, and with nothing else. -/
theorem extractFields_asked (same : SameAnswers docs docs') : ∀ (room : Nat) (namePrefix : Scalar) (trail : List Use)
    (site : Site), Branch docs .called trail site →
      extractFields docs room namePrefix site = extractFields docs' room namePrefix site := by
  intro room
  induction room with
  | zero => intro namePrefix trail site _; rfl
  | succ room ih =>
    intro namePrefix trail site call
    rw [extractFields, extractFields, ← enter_asked same call]
    refine bind_congr_ok (fun place entered => ?_)
    cases place with
    | none => rfl
    | some target =>
      obtain ⟨trail', level⟩ := branch_of_enter call entered
      exact schemaFields_congr (fun name sub part => ih name trail' (target.at sub) (.child level part))

theorem combinerSite_asked (same : SameAnswers docs docs') {trail : List Use} (level : Branch docs .read trail site)
    {sub : Node} (part : Combined site.schema sub) : combinerSite docs site sub = combinerSite docs' site sub := by
  simp only [combinerSite, py_except]
  refine bind_congr (fun hasRef => ite_congr rfl (fun _ => ?_) (fun _ => rfl))
  refine bind_congr_ok (fun ref stands => ?_)
  rw [same trail site ref (.combined level part stands)]

/-- Where a combined schema is to be read an example calls itself. -/
theorem branch_of_combinerSite {trail : List Use} (level : Branch docs .read trail site) {sub : Node}
    (part : Combined site.schema sub) (placed : combinerSite docs site sub = .ok (some target)) :
    ∃ trail', Branch docs .called trail' target := by
  simp only [combinerSite, py_except] at placed
  obtain ⟨hasRef, -, placed⟩ := bind_ok.mp placed
  split at placed
  · obtain ⟨ref, stands, placed⟩ := bind_ok.mp placed
    obtain ⟨next, resolved, placed⟩ := bind_ok.mp placed
    obtain ⟨usable, rfl⟩ := Option.ite_some_none_eq_some.mp (pure_ok.mp placed)
    exact ⟨_, .combine level part stands resolved usable⟩
  · obtain rfl := Option.some.inj (pure_ok.mp placed)
    exact ⟨_, .child level (.combined part)⟩

section
variable {deeper deeper' : Site → Except PyError Node}

theorem mergeSubs_congr : ∀ {subs : List Node} (merged : List (Scalar × Node)),
    (∀ sub ∈ subs, combinerSite docs site sub = combinerSite docs' site sub ∧
      ∀ next, combinerSite docs site sub = .ok (some next) → deeper next = deeper' next) →
    mergeSubs docs deeper site subs merged = mergeSubs docs' deeper' site subs merged := by
  intro subs
  induction subs with
  | nil => intro merged _; rfl
  | cons sub rest ih =>
    intro merged same
    obtain ⟨⟨placed, read⟩, others⟩ := List.forall_mem_cons.mp same
    rw [mergeSubs, mergeSubs, ← placed]
    refine bind_congr_ok (fun place found => ?_)
    cases place with
    | none => exact ih merged others
    | some next =>
      dsimp only
      rw [← read next found]
      refine bind_congr (fun result => ?_)
      cases result with
      | map entries => exact ih _ others
      | scalar _ | list _ | set _ => exact ite_congr rfl (fun _ => rfl) (fun _ => ih merged others)

theorem mergeProperties_congr : ∀ {properties : List (Scalar × Node)} (merged : List (Scalar × Node)),
    (∀ e ∈ properties, deeper (site.at e.2) = deeper' (site.at e.2)) →
    mergeProperties deeper site properties merged = mergeProperties deeper' site properties merged := by
  intro properties
  induction properties with
  | nil => intro merged _; rfl
  | cons e rest ih =>
    intro merged same
    obtain ⟨first, others⟩ := List.forall_mem_cons.mp same
    rw [mergeProperties, mergeProperties, first]
    exact ite_congr rfl (fun _ => ih merged others) (fun _ => bind_congr (fun value => ih _ others))

theorem objectExample_congr : ∀ {properties : List (Scalar × Node)} (obj : List (Scalar × Node)),
    (∀ e ∈ properties, deeper (site.at e.2) = deeper' (site.at e.2)) →
    objectExample deeper site properties obj = objectExample deeper' site properties obj := by
  intro properties
  induction properties with
  | nil => intro obj _; rfl
  | cons e rest ih =>
    intro obj same
    obtain ⟨first, others⟩ := List.forall_mem_cons.mp same
    rw [objectExample, objectExample, propertyExample, propertyExample, first]
    exact bind_congr (fun value => ih _ others)

/-- Only the parts of a schema are read deeper, and the nodes that its combined
    schemas refer to. -/
theorem exampleOf_congr
    (combine : ∀ sub, Combined site.schema sub → combinerSite docs site sub = combinerSite docs' site sub ∧
      ∀ next, combinerSite docs site sub = .ok (some next) → deeper next = deeper' next)
    (part : ∀ sub, Child site.schema sub → deeper (site.at sub) = deeper' (site.at sub)) :
    exampleOf docs deeper site = exampleOf docs' deeper' site := by
  simp only [exampleOf, py_except]
  refine bind_congr (fun explicit => ite_congr rfl (fun _ => rfl) (fun _ => bind_congr_ok (fun place found => ?_)))
  cases place with
  | some value =>
    refine bind_congr_ok (fun subs listed => ?_)
    rw [mergeSubs_congr [] (fun sub member => combine sub ⟨value, subs, found, listed, member⟩)]
    refine bind_congr (fun result => ?_)
    cases result with
    | inl result => rfl
    | inr merged =>
      refine bind_congr_ok (fun properties read => bind_congr_ok (fun entries listed => ?_))
      rw [mergeProperties_congr merged (fun e member => part e.2 (.property read listed member))]
  | none =>
    refine bind_congr (fun object => ite_congr rfl (fun _ => ?_) (fun _ => bind_congr (fun array =>
      ite_congr rfl (fun _ => ?_) (fun _ => rfl))))
    · refine bind_congr_ok (fun properties read => bind_congr_ok (fun entries listed => ?_))
      rw [objectExample_congr [] (fun e member => part e.2 (.property read listed member))]
    · refine bind_congr_ok (fun sub read => ?_)
      rw [part sub (.items read)]

end

/-- Examples are made with what is resolved on a branch, and with nothing else. -/
theorem schemaToExample_asked (same : SameAnswers docs docs') : ∀ (room : Nat) (trail : List Use) (site : Site),
    Branch docs .called trail site → schemaToExample docs room site = schemaToExample docs' room site := by
  intro room
  induction room with
  | zero => intro trail site _; rfl
  | succ room ih =>
    intro trail site call
    rw [schemaToExample, schemaToExample, ← enter_asked same call]
    refine bind_congr_ok (fun place entered => ?_)
    cases place with
    | none => rfl
    | some target =>
      obtain ⟨trail', level⟩ := branch_of_enter call entered
      refine exampleOf_congr (fun sub part => ⟨combinerSite_asked same level part, fun next placed => ?_⟩)
        (fun sub part => ih trail' (target.at sub) (.child level part))
      obtain ⟨trail'', further⟩ := branch_of_combinerSite level part placed
      exact ih trail'' next further

/-! ### What is on a trail -/

/-- A followed reference: its text, and the node it named there. -/
structure Followed (docs : Documents (Except PyError)) (use : Use) (text : String) (place : Place) : Prop where
  ref : use.ref = .scalar (.str text)
  names : named docs text use.site = some place

/-- The seen texts of a branch are those of its trail, which all named a node. -/
structure Logged (docs : Documents (Except PyError)) (trail : List Use) (site : Site) : Prop where
  seen : ∀ text, text ∈ site.seen ↔ ∃ use ∈ trail, use.ref = .scalar (.str text)
  followed : ∀ use ∈ trail, ∃ text place, Followed docs use text place

theorem logged_follow {trail : List Use} {ref : Node} (logged : Logged docs trail site)
    (resolved : resolveRef docs ref site = .ok target) (usable : target.schema.truthy = true) :
    Logged docs (⟨ref, site⟩ :: trail) target := by
  obtain ⟨text, place, rfl, -, names, -, -, seen⟩ := resolveRef_usable resolved usable
  constructor
  · intro other
    rw [seen, Finset.mem_insert, logged.seen, List.exists_mem_cons_iff]
    refine or_congr ?_ Iff.rfl
    simp [eq_comm]
  · exact List.forall_mem_cons.mpr ⟨⟨text, place, rfl, names⟩, logged.followed⟩

theorem Branch.logged {phase : Phase} {trail : List Use} (branch : Branch docs phase trail site) :
    Logged docs trail site := by
  induction branch with
  | start fresh => exact ⟨by simp [fresh], by simp⟩
  | self _ _ ih => exact ih
  | follow _ _ resolved usable ih => exact logged_follow ih resolved usable
  | child _ _ ih => exact ⟨ih.seen, ih.followed⟩
  | combine _ _ _ resolved usable ih => exact logged_follow ih resolved usable

/-! ### Refusals -/

/-- The reference is refused as already seen: nothing is resolved, and it does not
    become one of the seen ones. -/
def Refused (docs : Documents (Except PyError)) (ref : String) (site : Site) : Prop :=
  resolveRef docs (.scalar (.str ref)) site = .ok site.unresolved

/-- The node that the reference names was resolved on the branch. -/
def Resolved (docs : Documents (Except PyError)) (trail : List Use) (ref : String) (site : Site) : Prop :=
  ∃ use ∈ trail, ∃ text place, Followed docs use text place ∧ named docs ref site = some place

/-- A text is refused where the branch has seen it, and nowhere else. -/
theorem refused_iff {ref : String} (given : ref ≠ "") : Refused docs ref site ↔ ref ∈ site.seen := by
  have truthy : (Node.scalar (.str ref)).truthy = true := by simpa [Node.truthy, Scalar.truthy] using given
  have read : refText (.scalar (.str ref)) = .ok ref := rfl
  simp only [Refused, resolveRef, py_except, truthy, read, Bool.not_true, Bool.false_eq_true, if_false]
  by_cases known : ref ∈ site.seen
  · simp only [known, iff_true]
    exact if_pos known
  · simp only [known, iff_false]
    intro refused
    have resolved : (if "#/".toList.isPrefixOf ref.toList then
        .ok { site with schema := resolvePointer ref site.spec, seen := insert ref site.seen }
      else resolveExternal docs ref { site with seen := insert ref site.seen }) = Except.ok site.unresolved :=
        (if_neg known).symm.trans refused
    have seen : site.unresolved.seen = insert ref site.seen := by
      split at resolved
      · rw [← Except.ok.inj resolved]
      · rw [resolveExternal_seen resolved]
    exact known (seen ▸ Finset.mem_insert_self ref site.seen)

/-- A refusal is right exactly where no earlier reference of the branch with the
    same text named another node, unless the node was resolved as well. -/
theorem refusal_justified_iff {trail : List Use} {ref : String} (asked : Asked docs trail site (.scalar (.str ref)))
    (given : ref ≠ "") :
    (Refused docs ref site → Resolved docs trail ref site) ↔
      ∀ use ∈ trail, use.ref = .scalar (.str ref) → named docs ref use.site ≠ named docs ref site →
        Resolved docs trail ref site := by
  obtain ⟨phase, branch⟩ := asked.branch
  have logged := branch.logged
  rw [refused_iff given, logged.seen]
  constructor
  · intro right use member same _
    exact right ⟨use, member, same⟩
  · rintro unmixed ⟨use, member, same⟩
    by_cases node : named docs ref use.site = named docs ref site
    · obtain ⟨text, place, followed⟩ := logged.followed use member
      have text_eq : text = ref := by
        have both := followed.ref.symm.trans same
        cases both; rfl
      subst text_eq
      exact ⟨use, member, text, place, followed, node.symm.trans followed.names⟩
    · exact unmixed use member same node

def amountRef : String := "#/components/schemas/Amount"

def schemas (name : String) (schema : Node) : Node :=
  .map [(.str "components", .map [(.str "schemas", .map [(.str name, schema)])])]

def withProperty (name : String) (schema : Node) : Node :=
  .map [(.str "properties", .map [(.str name, schema)])]

/-- A tree whose children are trees. -/
def treeSite : Site where
  schema := refTo (.scalar (.str amountRef))
  spec := schemas "Amount" (withProperty "parts" (refTo (.scalar (.str amountRef))))

/-- A reference back to its own node is refused, and rightly so. -/
theorem refusal_justified_iff_tree : ∃ trail site, Asked (noFiles _) trail site (.scalar (.str amountRef)) ∧
    Refused (noFiles _) amountRef site ∧ Resolved (noFiles _) trail amountRef site := by
  have start : Branch (noFiles _) .called [] treeSite := .start rfl
  have stands : item "$ref" treeSite.schema = .ok (.scalar (.str amountRef)) := rfl
  have top : Branch (noFiles _) .read _ _ := .follow start stands rfl rfl
  have asked : Asked (noFiles _) _ _ (.scalar (.str amountRef)) :=
    .top (.child top (.property rfl rfl List.mem_cons_self)) rfl
  refine ⟨_, _, asked, rfl, (refusal_justified_iff asked (by decide)).mpr ?_ rfl⟩
  intro use member _ other
  obtain rfl := List.mem_singleton.mp member
  exact absurd rfl other

/-- The spec and a sibling file each have an amount of their own. -/
def amountSite : Site where
  schema := refTo (.scalar (.str amountRef))
  spec := schemas "Amount" (withProperty "value" (refTo (.scalar (.str "common.yml#/Money"))))
  specUrl := some "https://bank/spec.yml"

def amountFiles : Documents (Except PyError) where
  urljoin _ file := .ok ("https://bank/" ++ file)
  urlparse _ := .ok ⟨"https", "bank"⟩
  fetchExternalSpec _ := .ok (.map [(.str "Money", withProperty "amount" (refTo (.scalar (.str amountRef)))),
    (.str "components", .map [(.str "schemas", .map [(.str "Amount", objectOf "currency")])])])

/-- The amount of the sibling file is refused because of the amount of the spec. -/
theorem sibling_refused : (∃ trail site, Asked amountFiles trail site (.scalar (.str amountRef)) ∧
      Refused amountFiles amountRef site ∧ ¬ Resolved amountFiles trail amountRef site) ∧
    extractFields amountFiles 5 (.str "") amountSite = .ok [.str "value", .str "value.amount"] := by
  constructor
  · have start : Branch amountFiles .called [] amountSite := .start rfl
    have stands : item "$ref" amountSite.schema = .ok (.scalar (.str amountRef)) := rfl
    have spec : Branch amountFiles .read _ _ := .follow start stands rfl rfl
    have value : item "$ref" (refTo (.scalar (.str "common.yml#/Money"))) = .ok (.scalar (.str "common.yml#/Money")) := rfl
    have sibling : Branch amountFiles .read _ _ :=
      .follow (.child spec (.property rfl rfl List.mem_cons_self)) value rfl rfl
    refine ⟨_, _, .top (.child sibling (.property rfl rfl List.mem_cons_self)) rfl, rfl, ?_⟩
    rintro ⟨use, member, text, place, ⟨ref, names⟩, here⟩
    rcases List.mem_cons.mp member with rfl | member
    · cases ref
      exact absurd (names.trans here.symm) (by decide)
    · obtain rfl := List.mem_singleton.mp member
      cases ref
      exact absurd (names.trans here.symm) (by decide)
  · rfl

/-- In one document a text names one node. -/
theorem named_congr {ref : String} {site site' : Site} (same : site.specUrl = site'.specUrl) :
    named docs ref site = named docs ref site' := by
  rw [named, named, same]

/-- On a branch that stays in one document every refusal is right. -/
theorem refusal_justified_of_document {trail : List Use} {ref : String}
    (asked : Asked docs trail site (.scalar (.str ref))) (given : ref ≠ "")
    (document : ∀ use ∈ trail, use.site.specUrl = site.specUrl) (refused : Refused docs ref site) :
    Resolved docs trail ref site :=
  (refusal_justified_iff asked given).mpr
    (fun use member _ other => absurd (named_congr (document use member)) other) refused

end ScanApi.RefCycles
