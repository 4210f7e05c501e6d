import ScanApi.AlfaMethods
import ScanApi.Raising
import ScanApi.Regex
import ScanApi.Unicode

/-!
Methods that Alfa-Bank announces in its release notes (`alfabank_parser.py`). The
feed is JSON about which nothing is known in advance, so reading it may raise. A
method whose key no article has is added, hidden as a ghost; keys normalise a
path once more than the stored path, so distinct keys leave no two methods with
one verb and path (`merged_snapshot`).
-/
namespace ScanApi.Alfa
open ScanApi.Yaml ScanApi.Python ScanApi.Raising ScanApi.Regex ScanApi.SnapshotImport ScanApi.Unicode

def releaseNotesUrl : String := portalBase ++ "/release-notes"

def ignoredArticles : List String :=
  ["как выбрать выписку", "как получить файл выписки", "получение файла выписки", "как это работает", "введение",
    "introduction", "overview", "обзор"]

/-! ### Announcements -/

/-- A letter of a verb under IGNORECASE: `ſ` folds to S. -/
def verbLetter (letter c : Char) : Bool := c.toUpper = letter || (letter = 'S' && c = 'ſ')

/-- `[A-Za-z0-9_/\-\{\}\.\*]` under IGNORECASE: four letters outside ASCII fold into it. -/
def pathChar (c : Char) : Bool :=
  c.isAlphanum || c ∈ ['_', '/', '-', '\x7b', '\x7d', '.', '*', 'İ', 'ı', 'ſ', '\u212a']

def dash (c : Char) : Bool := c = '-' || c = '–' || c = '—'

def verbPattern (verb : String) : Pattern :=
  verb.toList.foldr (fun letter rest => .seq (.char (verbLetter letter)) rest) .empty

section
variable (unicode : CharTables)

/-- `RN_METHOD_RE`: lines such as `* POST /path - Description`. -/
def rnMethod : Pattern :=
  .seq .lineStart <| .seq (.char (· = '*')) <| .seq (.plus unicode.isspace) <|
  .seq (.group 1 (.alt (verbPattern "GET") <| .alt (verbPattern "POST") <| .alt (verbPattern "PUT") <|
    .alt (verbPattern "PATCH") (verbPattern "DELETE"))) <|
  .seq (.plus unicode.isspace) <| .seq (.group 2 (.seq (.char (· = '/')) (.plus pathChar))) <|
  .opt <| .seq (.many unicode.isspace) <| .seq (.char dash) <| .seq (.many unicode.isspace) <|
  .group 3 (.plus (· ≠ '\n'))

end

/-- `\[([^\]]+)\]\((/products/[^)]+)\)`. -/
def portalLink : Pattern :=
  .seq (.char (· = '[')) <| .seq (.group 1 (.plus (· ≠ ']'))) <| .seq (.literal "](".toList) <|
  .seq (.group 2 (.seq (.literal "/products/".toList) (.plus (· ≠ ')')))) <| .char (· = ')')

def portalUrlFromContent (content : String) : String := match search portalLink content.toList with
  | some way => portalBase ++ String.ofList ((way.group 2).getD [])
  | none => releaseNotesUrl

/-- A method line, with the service and the content of its update. -/
structure Announced where
  service : String
  content : String
  line : Way

section
variable (unicode : CharTables) (lower upper : String → String)

def announcedVerb (announced : Announced) : String := upper (String.ofList ((announced.line.group 1).getD []))

def announcedPath (announced : Announced) : String := normPath (String.ofList ((announced.line.group 2).getD []))

def announcedKey (announced : Announced) : String := methodKey (announcedVerb upper announced) (announcedPath announced)

def announcedMethod (announced : Announced) : ApiMethod :=
  let verb := announcedVerb upper announced
  let path := announcedPath announced
  let desc := String.ofList (strip unicode ((announced.line.group 3).getD []))
  { httpMethod := verb
    path := some path
    summary := if desc ≠ "" then desc else verb ++ " " ++ path
    description := desc
    response200Fields := some []
    urlOnPortal := portalUrlFromContent announced.content
    hidden := true
    hiddenReason := some hiddenReasonGhost }

/-- The loop of `_collect_rn_update_methods` over the matches. -/
def collectLine (collected : Collected) (announced : Announced) : Collected :=
  collect (announcedKey upper) Announced.service (announcedMethod unicode upper) collected announced

/-- `", ".join(tags)`. -/
def joinTags (tags : Node) : Except PyError String := do
  let texts ← (← iter tags).mapM (fun
    | .scalar (.str text) => pure text
    | _ => throw .typeError)
  return String.intercalate ", " texts

/-- The lines of an update, unless its service is ignored. -/
def updateLines (update : Node) : Except PyError (List Announced) := do
  let tags ← get? "tags" update
  let content ← get "content" (.scalar (.str "")) update
  if !content.truthy then return []
  let service ← if tags.truthy then joinTags tags else pure "API"
  if ignoredArticles.any (fun ign => isPart ign (lower service)) then return []
  match content with
  | .scalar (.str content) => return (finditer (rnMethod unicode) content.toList).map (fun line => ⟨service, content, line⟩)
  | _ => throw .typeError

def collectRnUpdateMethods (collected : Collected) (update : Node) : Except PyError Collected := do
  return (← updateLines unicode lower update).foldl (collectLine unicode upper) collected

/-- The feed, if it was fetched and is not empty. -/
def requireFeed (feed : Option Node) : Except PyError Node := match feed.filter Node.truthy with
  | some data => .ok data
  | none => .error (.parserError "release notes (release-notes.json) are unavailable")

/-- `_strategy_release_notes_supplement`, given the feed if it was fetched. -/
def releaseNotesSupplement (feed : Option Node) : Except PyError (Dict String (List ApiMethod)) := do
  let data ← requireFeed feed
  let changes ← get "changes" (.list []) (← get "content" (.map []) (← get "pageProps" (.map []) data))
  let collected ← (← iter changes).foldlM (fun collected change => do
    (← iter (← get "updates" (.list []) change)).foldlM (collectRnUpdateMethods unicode lower upper) collected) {}
  return collected.services

end

/-! ### Merging -/

/-- The key of a method with its stored path. -/
def storedKey (m : ApiMethod) : String := methodKey m.httpMethod (m.path.getD "")

/-- Adds the release-notes methods that the article scan did not find. -/
def mergeReleaseNotes (services rnServices : Dict String (List ApiMethod)) : Dict String (List ApiMethod) :=
  let seen := (services.all.map storedKey).toFinset
  rnServices.entries.foldl (fun merged e =>
    let newMethods := e.2.filter (fun m => storedKey m ∉ seen)
    if newMethods.isEmpty then merged else merged.extend e.1 newMethods) services

/-! ### The feed as lines -/

section
variable {unicode : CharTables} {lower upper : String → String}

/-- The method lines of a change. -/
def changeLines (unicode : CharTables) (lower : String → String) (change : Node) : Except PyError (List Announced) := do
  extend (updateLines unicode lower) (← iter (← get "updates" (.list []) change))

/-- All method lines of the feed. -/
def feedLines (unicode : CharTables) (lower : String → String) (data : Node) : Except PyError (List Announced) := do
  let changes ← get "changes" (.list []) (← get "content" (.map []) (← get "pageProps" (.map []) data))
  extend (changeLines unicode lower) (← iter changes)

theorem collect_change (collected : Collected) (change : Node) :
    (do (← iter (← get "updates" (.list []) change)).foldlM (collectRnUpdateMethods unicode lower upper) collected) =
      (do return (← changeLines unicode lower change).foldl (collectLine unicode upper) collected : Except PyError _) := by
  rw [changeLines]
  cases get "updates" (.list []) change with
  | error e => rfl
  | ok updates =>
    cases looped : iter updates with
    | error e => simp only [looped, bind, Except.bind]
    | ok items =>
      have loop : items.foldlM (collectRnUpdateMethods unicode lower upper) collected =
          (do return (← extend (updateLines unicode lower) items).foldl (collectLine unicode upper) collected) :=
        foldlM_fold items collected
      simpa only [looped, bind, Except.bind] using loop

/-- The supplement has the first lines of the feed by key, grouped by service. -/
theorem supplement_ok {feed : Option Node} {rn : Dict String (List ApiMethod)}
    (returned : releaseNotesSupplement unicode lower upper feed = .ok rn) :
    ∃ data lines, feed = some data ∧ feedLines unicode lower data = .ok lines ∧
      rn = (firsts (announcedKey upper) Announced.service (announcedMethod unicode upper) lines).services := by
  obtain ⟨data, fetched, returned⟩ := bind_ok.mp returned
  have given : feed = some data := by
    rw [requireFeed] at fetched
    split at fetched
    · rename_i found
      cases fetched
      exact (Option.filter_eq_some_iff.mp found).1
    · cases fetched
  obtain ⟨pageProps, props, returned⟩ := bind_ok.mp returned
  obtain ⟨content, inside, returned⟩ := bind_ok.mp returned
  obtain ⟨changes, listed, returned⟩ := bind_ok.mp returned
  obtain ⟨items, looped, returned⟩ := bind_ok.mp returned
  obtain ⟨collected, ran, same⟩ := bind_ok.mp returned
  simp only [collect_change] at ran
  rw [foldlM_fold] at ran
  obtain ⟨lines, all, folded⟩ := bind_ok.mp ran
  refine ⟨data, lines, given, ?_, ?_⟩
  · rw [feedLines, props]
    simp only [bind, Except.bind, inside, listed, looped]
    exact all
  · rw [← pure_ok.mp same, ← pure_ok.mp folded, ← foldl_collect]
    rfl

/-! ### The merged snapshot -/

/-- Every method of the supplement has a key of its own and is a hidden ghost. -/
theorem supplement_keys {lines : List Announced} :
    ((firsts (announcedKey upper) Announced.service (announcedMethod unicode upper) lines).services.all.map
      storedKey).Nodup := by
  have kept := (all_firsts (announcedKey upper) Announced.service (announcedMethod unicode upper) lines).map storedKey
  rw [List.map_map] at kept
  exact kept.nodup_iff.mpr (Dict.values_firstBy_nodup (announcedKey upper) lines)

/-- One round of the merge. -/
def mergeService (seen : Finset String) (merged : Dict String (List ApiMethod)) (e : String × List ApiMethod) :
    Dict String (List ApiMethod) :=
  let newMethods := e.2.filter (fun m => storedKey m ∉ seen)
  if newMethods.isEmpty then merged else merged.extend e.1 newMethods

theorem mergeReleaseNotes_eq (services rn : Dict String (List ApiMethod)) :
    mergeReleaseNotes services rn = rn.entries.foldl (mergeService (services.all.map storedKey).toFinset) services := rfl

/-- The merged methods are those of the articles and those of the supplement with a new key. -/
theorem all_mergeReleaseNotes (services rn : Dict String (List ApiMethod)) : (mergeReleaseNotes services rn).all.Perm
    (services.all ++ rn.all.filter (fun m => storedKey m ∉ (services.all.map storedKey).toFinset)) := by
  have all : rn.all = (rn.entries.map Prod.snd).flatten := rfl
  rw [mergeReleaseNotes_eq, all]
  generalize (services.all.map storedKey).toFinset = seen
  generalize rn.entries = entries
  induction entries generalizing services with
  | nil => simp
  | cons e rest ih =>
    rw [List.foldl_cons, List.map_cons, List.flatten_cons, List.filter_append, ← List.append_assoc]
    refine (ih _).trans (List.Perm.append_right _ ?_)
    rw [mergeService]
    split
    · rename_i none
      rw [List.isEmpty_iff.mp none, List.append_nil]
    · exact Dict.all_extend _ _ _

/-- Every service keeps its methods and may get more behind them. -/
def Grows (services services' : Dict String (List ApiMethod)) : Prop :=
  ∀ svc methods, services.get? svc = some methods → ∃ more, services'.get? svc = some (methods ++ more)

theorem grows_refl (services : Dict String (List ApiMethod)) : Grows services services :=
  fun _ methods found => ⟨[], by rw [found, List.append_nil]⟩

theorem grows_trans {services services' services'' : Dict String (List ApiMethod)} (first : Grows services services')
    (second : Grows services' services'') : Grows services services'' := by
  intro svc methods found
  obtain ⟨more, found'⟩ := first svc methods found
  obtain ⟨more', found''⟩ := second svc _ found'
  exact ⟨more ++ more', by rw [found'', List.append_assoc]⟩

theorem grows_extend (services : Dict String (List ApiMethod)) (svc : String) (new : List ApiMethod) :
    Grows services (services.extend svc new) := by
  intro svc' methods found
  rw [Dict.get?_extend]
  by_cases same : svc' = svc
  · subst same
    exact ⟨new, by rw [if_pos rfl, found, Option.getD_some]⟩
  · exact ⟨[], by rw [if_neg same, found, List.append_nil]⟩

theorem grows_mergeService (seen : Finset String) (services : Dict String (List ApiMethod))
    (e : String × List ApiMethod) : Grows services (mergeService seen services e) := by
  rw [mergeService]
  split
  · exact grows_refl services
  · exact grows_extend services _ _

theorem grows_merge (seen : Finset String) (entries : List (String × List ApiMethod))
    (services : Dict String (List ApiMethod)) : Grows services (entries.foldl (mergeService seen) services) := by
  induction entries generalizing services with
  | nil => exact grows_refl services
  | cons e rest ih => exact grows_trans (grows_mergeService seen services e) (ih _)

/-- A method with a new key ends up under its service. -/
theorem mem_merge {seen : Finset String} {entries : List (String × List ApiMethod)} {e : String × List ApiMethod}
    {m : ApiMethod} (entry : e ∈ entries) (member : m ∈ e.2) (new : storedKey m ∉ seen)
    (services : Dict String (List ApiMethod)) :
    ∃ methods, (entries.foldl (mergeService seen) services).get? e.1 = some methods ∧ m ∈ methods := by
  induction entries generalizing services with
  | nil => cases entry
  | cons e' rest ih =>
    rw [List.foldl_cons]
    rcases List.mem_cons.mp entry with rfl | later
    · have kept : m ∈ e.2.filter (fun m => storedKey m ∉ seen) := List.mem_filter.mpr ⟨member, by simpa using new⟩
      have here : (mergeService seen services e).get? e.1 =
          some ((services.get? e.1).getD [] ++ e.2.filter (fun m => storedKey m ∉ seen)) := by
        rw [mergeService, if_neg (fun none => by rw [List.isEmpty_iff.mp none] at kept; cases kept), Dict.get?_extend,
          if_pos rfl]
      obtain ⟨more, found⟩ := grows_merge seen rest _ e.1 _ here
      exact ⟨_, found, List.mem_append_left _ (List.mem_append_right _ kept)⟩
    · exact ih later _

/-- What merging makes of the methods of the articles and those of the release notes. -/
structure Merged (articles rn merged : Dict String (List ApiMethod)) : Prop where
  unique : (merged.all.map (fun m => (m.httpMethod, m.path))).Nodup
  kept : Grows articles merged
  ghosts : ∀ m ∈ merged.all, m ∈ articles.all ∨ m ∈ rn.all ∧ m.hidden = true ∧ m.hiddenReason = some hiddenReasonGhost
  added : ∀ svc methods, rn.get? svc = some methods → ∀ m ∈ methods, storedKey m ∉ articles.all.map storedKey →
    ∃ methods', merged.get? svc = some methods' ∧ m ∈ methods'

/-- The articles' methods have distinct keys, with a path that is normalised once more in a stored key. -/
theorem articles_unique (leaves : List Leaf) (endpoints : List (List Endpoint)) :
    ((methodsFromEndpoints leaves endpoints).all.map (fun m => (m.httpMethod, m.path))).Nodup := by
  have kept := (all_firsts declaredKey (fun d => d.1.service) (fun d => articleMethod d.1 d.2)
    (declarations leaves endpoints)).map (fun m => m.httpMethod ++ ":" ++ m.path.getD "")
  rw [← methodsFromEndpoints_eq, List.map_map] at kept
  have keys := kept.nodup_iff.mpr (Dict.values_firstBy_nodup declaredKey _)
  have pairs : ((methodsFromEndpoints leaves endpoints).all.map (fun m => (m.httpMethod, m.path))).map
      (fun pair => pair.1 ++ ":" ++ pair.2.getD "") =
        (methodsFromEndpoints leaves endpoints).all.map (fun m => m.httpMethod ++ ":" ++ m.path.getD "") := by
    rw [List.map_map]
    rfl
  exact List.Nodup.of_map _ (pairs ▸ keys)

theorem mem_supplement {lines : List Announced} {m : ApiMethod}
    (member : m ∈ (firsts (announcedKey upper) Announced.service (announcedMethod unicode upper) lines).services.all) :
    ∃ line, m = announcedMethod unicode upper line := by
  obtain ⟨line, -, same⟩ := List.mem_map.mp ((all_firsts _ _ _ _).mem_iff.mp member)
  exact ⟨line, same.symm⟩

/-- The key of every line is that of a method of the supplement. -/
theorem announced_in_supplement {lines : List Announced} {line : Announced} (member : line ∈ lines) :
    ∃ m ∈ (firsts (announcedKey upper) Announced.service (announcedMethod unicode upper) lines).services.all,
      storedKey m = announcedKey upper line := by
  have known : announcedKey upper line ∈ (Dict.firstBy (announcedKey upper) lines).keys :=
    Dict.mem_keys_firstBy.mpr ⟨line, member, rfl⟩
  obtain ⟨first, found⟩ := Dict.mem_keys.mp known
  rw [Dict.get?_firstBy] at found
  have key : announcedKey upper first = announcedKey upper line := by simpa using List.find?_some found
  refine ⟨announcedMethod unicode upper first, (all_firsts _ _ _ _).mem_iff.mpr (List.mem_map_of_mem ?_), key⟩
  exact Dict.mem_values_firstBy.mpr (by rwa [key])

/-- Methods with distinct keys have distinct verbs or paths. -/
theorem pairs_of_keys {methods : List ApiMethod} (keys : (methods.map storedKey).Nodup) :
    (methods.map (fun m => (m.httpMethod, m.path))).Nodup := by
  have pairs : (methods.map (fun m => (m.httpMethod, m.path))).map (fun pair => methodKey pair.1 (pair.2.getD "")) =
      methods.map storedKey := by
    rw [List.map_map]
    rfl
  exact List.Nodup.of_map _ (pairs ▸ keys)

end

/-- A snapshot of Alfa-Bank has no two methods with one verb and path; article methods are
    kept, and announced methods whose key no article has are added as ghosts. -/
theorem merged_snapshot (unicode : CharTables) (lower upper : String → String) (leaves : List Leaf)
    (endpoints : List (List Endpoint)) (feed : Option Node) (rn : Dict String (List ApiMethod))
    (returned : releaseNotesSupplement unicode lower upper feed = .ok rn) :
    let articles := methodsFromEndpoints leaves endpoints
    let merged := mergeReleaseNotes articles rn
    Merged articles rn merged ∧ ∃ data lines, feed = some data ∧ feedLines unicode lower data = .ok lines ∧
      ∀ line ∈ lines, ∃ m ∈ merged.all, storedKey m = announcedKey upper line := by
  obtain ⟨data, lines, given, fed, rfl⟩ := supplement_ok returned
  have parts := all_mergeReleaseNotes (methodsFromEndpoints leaves endpoints)
    (firsts (announcedKey upper) Announced.service (announcedMethod unicode upper) lines).services
  have new : ∀ key, key ∉ ((methodsFromEndpoints leaves endpoints).all.map storedKey).toFinset ↔
      key ∉ (methodsFromEndpoints leaves endpoints).all.map storedKey := fun key => by rw [List.mem_toFinset]
  refine ⟨⟨?_, grows_merge _ _ _, fun m member => ?_, fun svc methods found m member absent => ?_⟩, data, lines, given, fed,
    fun line member => ?_⟩
  · refine (parts.map _).nodup_iff.mpr ?_
    rw [List.map_append]
    refine List.nodup_append.mpr ⟨articles_unique leaves endpoints,
      pairs_of_keys (supplement_keys.sublist (List.filter_sublist.map _)), ?_⟩
    -- An added method has a key that no article has, so not its verb and path either.
    intro pair old pair' added same
    obtain ⟨article, inside, rfl⟩ := List.mem_map.mp old
    obtain ⟨m, kept, rfl⟩ := List.mem_map.mp added
    obtain ⟨verb, path⟩ := Prod.mk.inj same
    refine (new _).mp (by simpa using (List.mem_filter.mp kept).2) (List.mem_map.mpr ⟨article, inside, ?_⟩)
    rw [storedKey, storedKey, verb, path]
  · refine (List.mem_append.mp (parts.mem_iff.mp member)).imp_right (fun added => ?_)
    have inside := (List.mem_filter.mp added).1
    obtain ⟨line, rfl⟩ := mem_supplement inside
    exact ⟨inside, rfl, rfl⟩
  · exact mem_merge (Dict.get?_eq_some.mp found) member ((new _).mpr absent) _
  · obtain ⟨m, inside, key⟩ := announced_in_supplement member
    by_cases old : storedKey m ∈ (methodsFromEndpoints leaves endpoints).all.map storedKey
    · obtain ⟨article, known, same⟩ := List.mem_map.mp old
      exact ⟨article, parts.mem_iff.mpr (List.mem_append_left _ known), same.trans key⟩
    · refine ⟨m, parts.mem_iff.mpr (List.mem_append_right _ (List.mem_filter.mpr ⟨inside, ?_⟩)), key⟩
      exact decide_eq_true ((new _).mpr old)

def postCards : Endpoint where
  method := "POST"
  path := "/api/v1/x"
  known := by decide

/-- The notes announce one method that an article has and one that it has not. -/
def cardsFeed : Node :=
  let update : Node := .map [(.str "tags", .list [.scalar (.str "Карты")]),
    (.str "content", .scalar (.str "* POST /v1/x\n* GET /v1/new"))]
  let changes : Node := .list [.map [(.str "updates", .list [update])]]
  .map [(.str "pageProps", .map [(.str "content", .map [(.str "changes", changes)])])]

theorem merged_snapshot_cards : ∃ rn, releaseNotesSupplement latin1 id id (some cardsFeed) = .ok rn ∧
    (mergeReleaseNotes (methodsFromEndpoints [webhooksV2] [[postCards]]) rn).all.map (fun m => (m.httpMethod, m.path)) =
      [("POST", some "/v1/x"), ("GET", some "/v1/new")] ∧
    Merged (methodsFromEndpoints [webhooksV2] [[postCards]]) rn
      (mergeReleaseNotes (methodsFromEndpoints [webhooksV2] [[postCards]]) rn) :=
  ⟨_, rfl, by decide +kernel, (merged_snapshot latin1 id id [webhooksV2] [[postCards]] (some cardsFeed) _ rfl).1⟩

end ScanApi.Alfa
