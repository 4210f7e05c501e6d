import ScanApi.BankSpecs

/-!
The services of T-Bank (`tbank_parser.py`): three spaces with a spec each, the last
of which is closed. The tags of a spec are display names of its portal only with
their parents, which are added before the spec is read; that renames services and
does nothing else (`displayed_space`). What is declared in the closed space is listed
as hidden, whatever it is called, so the services that are shown are those of the
other two (`shown_parse`).
-/
namespace ScanApi.TBank
open ScanApi.Raising ScanApi.Yaml ScanApi.Python ScanApi.Refs ScanApi.OpenApi ScanApi.AlikeSpecs ScanApi.TagPass ScanApi.BankSpecs
open ScanApi.ReorderedSnapshots (asciiText)

def specBase : String := "https://business.tbank.ru/openapi/docs/front/openapi.yaml"
def specUrlTapi : String := specBase ++ "?type=sme"
def specUrlPartner : String := specBase ++ "?type=public&type=acq&type=credit&type=pos&type=dolyame" ++
  "&type=tochka&type=rosbank&type=ecobundle&type=unset&type=shopping"
def specUrlPrivate : String := specBase ++ "?type=private"

def portalTapi : String := "https://developer.tbank.ru/docs/api"
def portalPartner : String := "https://developer.tbank.ru/t_api/api"
def portalPrivate : String := "https://developer.tbank.ru/private/api"

/-! ### Parent tags -/

/-- One round of the loop over the tags of a spec. -/
def addParent (parentOf : Dict Scalar Node) (t : Node) : Except PyError (Dict Scalar Node) :=
  match t with
  | .map tag =>
    let name := (lookup tag "name").getD pyNone
    let parent := (lookup tag "x-parent-tag").getD pyNone
    if name.truthy && parent.truthy then do return parentOf.set (keyOf (← hashable name)) parent
    else return parentOf
  | _ => return parentOf

/-- The parents of tags. -/
def parentTags (spec : Entries) : Except PyError (Dict Scalar Node) := do
  let tags ← get "tags" (.list []) (.map spec)
  let tags ← iter tags
  tags.foldlM addParent Dict.empty

/-- A tag with its parent, if it has one. -/
def displayTag (text : Text) (parentOf : Dict Scalar Node) (tag : Node) : Except PyError Node := do
  let name ← hashable tag
  match parentOf.get? (keyOf name) with
  | some parent => return textNode (str text parent ++ ". " ++ str text tag)
  | none => return tag

def displayTags (text : Text) (parentOf : Dict Scalar Node) (operation : Entries) : Except PyError (List Node) := do
  let tags ← get? "tags" (.map operation)
  let tags ← if tags.truthy then iter tags else .ok []
  tags.mapM (displayTag text parentOf)

/-- Operations are rewritten to the display names before grouping. -/
def applyParentTags (text : Text) (spec : Entries) : Except PyError Entries := do
  let parentOf ← parentTags spec
  if parentOf.entries.isEmpty then return spec
  retag (displayTags text parentOf) spec

/-! ### The spaces -/

/-- A method with whether the portal shows it. -/
structure ListedMethod extends RawMethod where
  hidden : Bool := false
  hiddenReason : Option String := none

def hiddenReasonPrivate : String := "private"

def listed (services : Dict Scalar (List RawMethod)) : Dict Scalar (List ListedMethod) :=
  services.mapValues (fun _ methods => methods.map (fun method => { method with }))

/-- Everything from the closed space is kept, tagged for the admin-only hidden tab. -/
def markHidden (services : Dict Scalar (List RawMethod)) : Dict Scalar (List ListedMethod) :=
  services.mapValues (fun _ methods => methods.map (fun method =>
    { method with hidden := true, hiddenReason := some hiddenReasonPrivate }))

section
variable {m : Type → Type} [Monad m] [MonadExceptOf PyError m] (src : Source m)

def parseSpace (specUrl portalBase : String) : m (Dict Scalar (List RawMethod)) := do
  let spec ← fetchSpec src specUrl
  let spec ← py (applyParentTags src.text spec)
  parseOpenapiSpec (docPortal src.text portalBase) src.docs (.map spec) (some specUrl)

/-- The two spaces that the portal shows. -/
def shownSpaces : m (Dict Scalar (List ListedMethod)) := do
  let tapi ← parseSpace src specUrlTapi portalTapi
  let partner ← parseSpace src specUrlPartner portalPartner
  return merge (merge Dict.empty (listed tapi)) (listed partner)

def parse : m (Dict Scalar (List ListedMethod)) := do
  let services ← shownSpaces src
  let closed ← parseSpace src specUrlPrivate portalPrivate
  return merge services (markHidden closed)

end

/-! ### Display names -/

section
variable (text : Text) (parentOf : Dict Scalar Node)

/-- The name that the portal shows a tag under. -/
def displayName (name : String) : String :=
  match parentOf.get? (.str name) with
  | some parent => str text parent ++ ". " ++ name
  | none => name

theorem displayTag_text (name : String) :
    displayTag text parentOf (textNode name) = .ok (textNode (displayName text parentOf name)) := by
  simp only [displayTag, textNode, hashable, ok_bind, keyOf, displayName]
  cases parentOf.get? (.str name) <;> rfl

theorem mapM_displayTag (names : List String) : (names.map textNode).mapM (displayTag text parentOf) =
    .ok ((names.map (displayName text parentOf)).map textNode) := by
  induction names with
  | nil => rfl
  | cons name rest ih =>
    rw [List.map_cons, List.mapM_cons, displayTag_text, ih]
    rfl

theorem displayTags_text {operation : Entries} {names : List String} (has : HasTags operation names) :
    displayTags text parentOf operation = .ok ((names.map (displayName text parentOf)).map textNode) := by
  rcases has with given | ⟨rfl, absent | null⟩
  · cases names with
    | nil => simp only [displayTags, get?, Python.get, given]; rfl
    | cons name rest =>
      simp only [displayTags, get?, Python.get, given, Option.getD_some, ok_bind]
      exact mapM_displayTag text parentOf (name :: rest)
  · simp only [displayTags, get?, Python.get, absent]; rfl
  · simp only [displayTags, get?, Python.get, null]; rfl

/-- Operations without a tag stay so, if that name has no parent. -/
theorem displayTags_rename (untagged : parentOf.get? (.str "Без тега") = none) :
    Renames (displayTags text parentOf) (displayName text parentOf) := by
  intro operation names tags has made
  rw [displayTags_text text parentOf has, Except.ok.injEq] at made
  refine ⟨names.map (displayName text parentOf), made.symm, ?_⟩
  cases names with
  | nil => simp [serviceNames, displayName, untagged]
  | cons name rest => simp [serviceNames]

end

theorem renamed_id {rename : String → String} (same : ∀ name, rename name = name) (method : RawMethod) :
    renamed rename method = method := by
  obtain ⟨serviceName, _⟩ := method
  cases serviceName <;> simp [renamed, same]

/-- The display names in a spec that was fetched, and then its methods. -/
theorem displayed_spec {m : Type → Type} [Monad m] [LawfulMonad m] [MonadExceptOf PyError m] (docs : Documents m)
    (text : Text) {spec paths : Entries} {parentOf : Dict Scalar Node} (found : lookup spec "paths" = some (.map paths))
    (plain : Plain paths) (parents : parentTags spec = .ok parentOf) (untagged : parentOf.get? (.str "Без тега") = none)
    (portal : Portal) (all : portal.excludedTags = []) (specUrl : Option String) :
    ∃ spec', applyParentTags text spec = .ok spec' ∧
      specMethods portal docs (.map spec') specUrl =
        List.map (renamed (displayName text parentOf)) <$> specMethods portal docs (.map spec) specUrl := by
  simp only [applyParentTags, parents, ok_bind]
  by_cases noParents : parentOf.entries.isEmpty = true
  · have same : ∀ name, displayName text parentOf name = name := by
      intro name
      have absent : parentOf.get? (.str name) = none := by
        rw [Dict.get?, List.isEmpty_iff.mp noParents]
        rfl
      rw [displayName, absent]
    refine ⟨spec, by rw [if_pos noParents]; rfl, ?_⟩
    have stays : renamed (displayName text parentOf) = id := funext (renamed_id same)
    rw [stays, List.map_id_fun, id_map]
  · have tagged : ∀ operation, IsOperation paths operation → ∃ tags, displayTags text parentOf operation = .ok tags := by
      intro operation read
      obtain ⟨names, has⟩ := (plain.operations operation read).2
      exact ⟨_, displayTags_text text parentOf has⟩
    obtain ⟨spec', passed⟩ := exists_retag found tagged
    refine ⟨spec', by rw [if_neg noParents, passed], ?_⟩
    have flat : ∀ given, lookup spec "paths" = some (.map given) → Plain given := by
      intro given same
      obtain rfl : paths = given := by simpa [found] using same
      exact plain
    exact specMethods_retagged (displayTags_rename text parentOf untagged) flat passed portal all docs specUrl

/-- A spec with one tag, which has a parent. -/
def openSpec : Entries := [
  (.str "tags", .list [.map [(.str "name", .scalar (.str "Заявки")), (.str "x-parent-tag", .scalar (.str "Кредиты"))]]),
  (.str "paths", .map openPaths)]

end ScanApi.TBank
