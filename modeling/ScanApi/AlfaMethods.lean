import ScanApi.SnapshotImport

/-!
The methods of Alfa-Bank's articles (`alfabank_parser.py`). Every leaf article
declares endpoints; the first declaration of a method, in tree order, is kept
together with the visibility of its leaf. The result is the first declarations
by key, grouped by service (`methodsFromEndpoints_eq`), from which follows when
a method is visible exactly if a published leaf declares it
(`visible_iff_published`).
-/
namespace ScanApi.Alfa
open ScanApi.Yaml ScanApi.SnapshotImport

def portalBase : String := "https://developers.alfabank.ru"

def httpVerbs : List String := ["GET", "POST", "PUT", "PATCH", "DELETE"]

def hiddenReasonPrivate : String := "private"
def hiddenReasonSuperseded : String := "superseded"
def hiddenReasonGhost : String := "ghost"

/-- A leaf article of the tree. -/
structure Leaf where
  service : String
  title : String
  path : String
  /-- In the closed space of the portal. -/
  isPrivate : Bool
  /-- `visible` as it stands in the index. -/
  visible : Node := .scalar (.bool true)

/-- An endpoint of an article; other verbs are not taken from an article. -/
structure Endpoint where
  method : String
  path : String
  known : method ∈ httpVerbs
  fields : List String := []
  requestExample : Node := .map []
  responseExample : Node := .map []

def portalPath (leaf : Leaf) : String := "/products/alfa-api/documentation/" ++ leaf.path

/-- Why a leaf's methods are not shown on the public dashboard. -/
def hiddenStatus (leaf : Leaf) : Bool × Option String :=
  if leaf.isPrivate then (true, some hiddenReasonPrivate)
  else match leaf.visible with
    | .scalar (.bool false) => (true, some hiddenReasonSuperseded)
    | _ => (false, none)

/-- `re.sub(r"^/api(?=/)", "", path)`. -/
def normPath (path : String) : String := match path.toList with
  | '/' :: 'a' :: 'p' :: 'i' :: '/' :: rest => String.ofList ('/' :: rest)
  | _ => path

def methodKey (method path : String) : String := method ++ ":" ++ normPath path

/-! ### Collecting -/

/-- The methods collected so far by service, and their keys. -/
structure Collected where
  services : Dict String (List ApiMethod) := Dict.empty
  seen : Finset String := ∅

section
variable {α : Type} (key service : α → String) (method : α → ApiMethod)

/-- One round of a loop that keeps the first method of every key. -/
def collect (collected : Collected) (a : α) : Collected :=
  if key a ∈ collected.seen then collected
  else
    { services := collected.services.extend (service a) [method a]
      seen := insert (key a) collected.seen }

/-- The first elements by key, grouped by service. -/
def firsts (l : List α) : Collected where
  services := Dict.groupBy service method (Dict.firstBy key l).values
  seen := (Dict.firstBy key l).keys

theorem firsts_snoc (l : List α) (a : α) :
    firsts key service method (l ++ [a]) = collect key service method (firsts key service method l) a := by
  by_cases known : key a ∈ (Dict.firstBy key l).keys
  · rw [collect, if_pos (show key a ∈ (firsts key service method l).seen from known), firsts, Dict.firstBy_snoc,
      Dict.setdefault, dif_pos known]
    rfl
  · have values : ((Dict.firstBy key l).snoc (key a) a known).values = (Dict.firstBy key l).values ++ [a] := by
      simp [Dict.values, Dict.snoc]
    have keys : ((Dict.firstBy key l).snoc (key a) a known).keys = insert (key a) (Dict.firstBy key l).keys := by
      ext k
      simp [Dict.keys, Dict.snoc]
    rw [collect, if_neg (show key a ∉ (firsts key service method l).seen from known), firsts, Dict.firstBy_snoc,
      Dict.setdefault, dif_neg known, values, keys, Dict.groupBy_snoc]
    rfl

/-- The loop keeps the first elements. -/
theorem foldl_collect (l : List α) : l.foldl (collect key service method) {} = firsts key service method l := by
  induction l using List.reverseRecOn with
  | nil => rfl
  | append_singleton l a ih => rw [List.foldl_append, List.foldl_cons, List.foldl_nil, ih, firsts_snoc]

/-- The methods kept are those of the first elements. -/
theorem all_firsts (l : List α) : (firsts key service method l).services.all.Perm ((Dict.firstBy key l).values.map method) :=
  Dict.all_groupBy service method _

end

/-! ### Articles -/

def articleMethod (leaf : Leaf) (ep : Endpoint) : ApiMethod where
  httpMethod := ep.method
  path := some (normPath ep.path)
  summary := leaf.title
  response200Fields := some ep.fields
  urlOnPortal := portalBase ++ portalPath leaf
  requestExample := ep.requestExample
  responseExample := ep.responseExample
  hidden := (hiddenStatus leaf).1
  hiddenReason := (hiddenStatus leaf).2

/-- The key of a declared method. -/
def declaredKey (declared : Leaf × Endpoint) : String := methodKey declared.2.method declared.2.path

/-- The inner loop of `_methods_from_endpoints`. -/
def collectEndpoint (collected : Collected) (declared : Leaf × Endpoint) : Collected :=
  collect declaredKey (fun d => d.1.service) (fun d => articleMethod d.1 d.2) collected declared

def methodsFromEndpoints (leaves : List Leaf) (endpoints : List (List Endpoint)) : Dict String (List ApiMethod) :=
  ((leaves.zip endpoints).foldl (fun (collected : Collected) scanned =>
    scanned.2.foldl (fun collected ep => collectEndpoint collected (scanned.1, ep)) collected) {}).services

/-- The endpoints of the leaves in tree order, each with its leaf. -/
def declarations (leaves : List Leaf) (endpoints : List (List Endpoint)) : List (Leaf × Endpoint) :=
  (leaves.zip endpoints).flatMap (fun scanned => scanned.2.map (fun ep => (scanned.1, ep)))

theorem foldl_declarations (leaves : List Leaf) (endpoints : List (List Endpoint)) (collected : Collected) :
    (leaves.zip endpoints).foldl (fun collected scanned =>
      scanned.2.foldl (fun collected ep => collectEndpoint collected (scanned.1, ep)) collected) collected =
        (declarations leaves endpoints).foldl collectEndpoint collected := by
  rw [declarations]
  induction leaves.zip endpoints generalizing collected with
  | nil => rfl
  | cons scanned rest ih => rw [List.foldl_cons, ih, List.flatMap_cons, List.foldl_append, List.foldl_map]

/-- The methods of the articles are the first declarations by key, grouped by service. -/
theorem methodsFromEndpoints_eq (leaves : List Leaf) (endpoints : List (List Endpoint)) :
    methodsFromEndpoints leaves endpoints = (firsts declaredKey (fun d => d.1.service)
      (fun d => articleMethod d.1 d.2) (declarations leaves endpoints)).services := by
  rw [methodsFromEndpoints, foldl_declarations, ← foldl_collect]
  rfl

theorem mem_methodsFromEndpoints {leaves : List Leaf} {endpoints : List (List Endpoint)} {m : ApiMethod} :
    m ∈ (methodsFromEndpoints leaves endpoints).all ↔ ∃ d, (declarations leaves endpoints).find?
      (fun d' => declaredKey d' = declaredKey d) = some d ∧ articleMethod d.1 d.2 = m := by
  rw [methodsFromEndpoints_eq, (all_firsts _ _ _ _).mem_iff, List.mem_map]
  simp only [Dict.mem_values_firstBy]

/-! ### Keys -/

theorem toList_methodKey (method path : String) :
    (methodKey method path).toList = method.toList ++ ':' :: (normPath path).toList := by
  simp [methodKey]

/-- A verb has no colon, so it is what comes before the first one. -/
theorem takeWhile_methodKey {method : String} (known : method ∈ httpVerbs) (path : String) :
    (methodKey method path).toList.takeWhile (· ≠ ':') = method.toList := by
  have letters : ∀ verb ∈ httpVerbs, verb.toList.all (· ≠ ':') = true := by decide
  rw [toList_methodKey, List.takeWhile_append_of_pos (List.all_eq_true.mp (letters method known))]
  simp

/-- Keys tell methods apart. -/
theorem methodKey_inj {method method' path path' : String} (known : method ∈ httpVerbs) (known' : method' ∈ httpVerbs) :
    methodKey method path = methodKey method' path' ↔ method = method' ∧ normPath path = normPath path' := by
  constructor
  · intro same
    have verbs : method.toList = method'.toList := by
      rw [← takeWhile_methodKey known path, same, takeWhile_methodKey known' path']
    have texts := congrArg String.toList same
    rw [toList_methodKey, toList_methodKey, verbs] at texts
    have paths := (List.cons.inj (List.append_cancel_left texts)).2
    exact ⟨String.toList_inj.mp verbs, String.toList_inj.mp paths⟩
  · rintro ⟨rfl, paths⟩; rw [methodKey, methodKey, paths]

/-! ### Visibility -/

/-- A leaf declares a method under its verb and normalised path. -/
def Declares (declared : List (Leaf × Endpoint)) (leaf : Leaf) (m : ApiMethod) : Prop :=
  ∃ ep, (leaf, ep) ∈ declared ∧ ep.method = m.httpMethod ∧ some (normPath ep.path) = m.path

/-- Neither private nor superseded. -/
def Published (leaf : Leaf) : Prop := (hiddenStatus leaf).1 = false

/-- Every method is visible exactly if a published leaf declares it. -/
def FollowsArticles (leaves : List Leaf) (endpoints : List (List Endpoint)) : Prop :=
  ∀ m ∈ (methodsFromEndpoints leaves endpoints).all,
    m.hidden = false ↔ ∃ leaf, Declares (declarations leaves endpoints) leaf m ∧ Published leaf

/-- Of the leaves that declare a method, the first one in the tree is published if any is. -/
def FirstPublished (declared : List (Leaf × Endpoint)) : Prop :=
  ∀ d ∈ declared, Published d.1 → ∀ first, declared.find? (fun d' => declaredKey d' = declaredKey d) = some first →
    Published first.1

/-- The declarations of a method of the result are those with its key. -/
theorem declares_articleMethod {declared : List (Leaf × Endpoint)} {leaf : Leaf} {d : Leaf × Endpoint} :
    Declares declared leaf (articleMethod d.1 d.2) ↔ ∃ ep, (leaf, ep) ∈ declared ∧ declaredKey (leaf, ep) = declaredKey d := by
  simp only [Declares, articleMethod, Option.some.injEq, declaredKey]
  constructor
  · rintro ⟨ep, member, verb, path⟩; exact ⟨ep, member, (methodKey_inj ep.known d.2.known).mpr ⟨verb, path⟩⟩
  · rintro ⟨ep, member, key⟩
    obtain ⟨verb, path⟩ := (methodKey_inj ep.known d.2.known).mp key
    exact ⟨ep, member, verb, path⟩

/-- Visibility follows the published articles if and only if, for every method, the first
    leaf that declares it is published or none is. -/
theorem visible_iff_published (leaves : List Leaf) (endpoints : List (List Endpoint)) :
    FollowsArticles leaves endpoints ↔ FirstPublished (declarations leaves endpoints) := by
  constructor
  · intro follows d member published first found
    have here : declaredKey first = declaredKey d := by simpa using List.find?_some found
    have inside : articleMethod first.1 first.2 ∈ (methodsFromEndpoints leaves endpoints).all :=
      mem_methodsFromEndpoints.mpr ⟨first, by rwa [here], rfl⟩
    refine (follows _ inside).mpr ⟨d.1, declares_articleMethod.mpr ⟨d.2, member, here.symm⟩, published⟩
  · intro firsts m inside
    obtain ⟨d, found, rfl⟩ := mem_methodsFromEndpoints.mp inside
    constructor
    · intro visible
      exact ⟨d.1, declares_articleMethod.mpr ⟨d.2, List.mem_of_find?_eq_some found, rfl⟩, visible⟩
    · rintro ⟨leaf, declares, published⟩
      obtain ⟨ep, member, key⟩ := declares_articleMethod.mp declares
      exact firsts (leaf, ep) member published d (by rwa [key])

/-- A superseded article and the published one after it. -/
def webhooksV1 : Leaf where
  service := "Вебхуки"
  title := "Вебхуки v1"
  path := "webhooks/v1"
  isPrivate := false
  visible := .scalar (.bool false)

def webhooksV2 : Leaf where
  service := "Вебхуки"
  title := "Вебхуки v2"
  path := "webhooks/v2"
  isPrivate := false

def getWebhooks : Endpoint where
  method := "GET"
  path := "/api/v1/webhooks"
  known := by decide

/-- The declaration of the published article is lost behind that of the superseded one. -/
theorem superseded_first_hides : ¬ ∀ leaves endpoints, FollowsArticles leaves endpoints := by
  intro claim
  have inside : articleMethod webhooksV1 getWebhooks ∈
      (methodsFromEndpoints [webhooksV1, webhooksV2] [[getWebhooks], [getWebhooks]]).all :=
    mem_methodsFromEndpoints.mpr ⟨(webhooksV1, getWebhooks), List.find?_cons_of_pos (by simp), rfl⟩
  have visible := (claim _ _ _ inside).mpr
    ⟨webhooksV2, ⟨getWebhooks, by simp [declarations], rfl, rfl⟩, rfl⟩
  cases visible

end ScanApi.Alfa
