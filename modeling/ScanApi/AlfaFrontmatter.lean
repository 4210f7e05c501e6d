import ScanApi.AlfaEmbedded
import ScanApi.OpenApi
import ScanApi.Regex
import ScanApi.UrlSplit

/-!
The endpoints of an article (`_endpoints_from_page_props` of `alfabank_parser.py`).
An article has a frontmatter in YAML. Where reading that yields no endpoint, the
text is searched for methods and production URLs, which are paired by their places:
also where the YAML was understood and its entries are just not complete.
-/
namespace ScanApi.AlfaFrontmatter
open ScanApi.Alfa ScanApi.AlfaEmbedded ScanApi.OpenApi ScanApi.Partition ScanApi.Python ScanApi.Raising ScanApi.Refs
open ScanApi.Regex ScanApi.Unicode ScanApi.UrlSplit ScanApi.Yaml

/-- Code outside the repository. -/
structure Tools where
  text : Text
  tables : TextTables
  /-- `str.upper`. -/
  upper : String → String
  yamlSafeLoad : String → Except PyError Node

/-- What an article says about one endpoint. -/
structure RawEndpoint where
  method : String
  path : String
  fields : List Scalar := []
  requestExample : Node := .map []
  responseExample : Node := .map []

/-! ### URLs -/

/-- Schemes whose paths may end in parameters. -/
def usesParams : List (List Char) :=
  ["", "ftp", "hdl", "prospero", "http", "imap", "https", "shttp", "rtsp", "rtsps", "rtspu", "sip", "sips", "mms",
    "sftp", "tel"].map String.toList

/-- A path without the parameters of its last segment. -/
def withoutParams (path : List Char) : List Char :=
  match rpartition '/' path with
  | some (before, last) => before ++ '/' :: last.takeWhile (· ≠ ';')
  | none => path.takeWhile (· ≠ ';')

/-- `urlparse(url).path`. -/
def urlPath (tables : TextTables) (url : String) : Except PyError String := do
  let parts ← urlsplit tables url.toList
  return String.ofList (if parts.scheme ∈ usesParams then withoutParams parts.path else parts.path)

variable (tools : Tools)

/-! ### The frontmatter as YAML -/

/-- `FRONTMATTER_RE.match(text)`: the frontmatter begins after the last line break of the blank behind `---`
    after which another `---` begins a line. -/
def frontmatter (md : String) : Option String :=
  match splitOnce "---".toList md.toList with
  | some ([], rest) => (rest.takeWhile tools.tables.isspace).inits.reverse.findSome? (fun blank =>
      match rest.drop blank.length with
      | '\n' :: body => (splitOnce "\n---".toList body).map (fun parts => String.ofList parts.1)
      | _ => none)
  | _ => none

/-- The operation of an endpoint, where the article embeds a spec. -/
def embeddedOperation (spec : Node) (path method : String) : Except PyError Node :=
  if isDict spec then operationFromEmbeddedSpec tools.text spec path method else .ok (.map [])

/-- The request example of a verb with a body. -/
def requestExample (site : Site) (method : String) (operation : Node) : Except PyError Node :=
  if method = "POST" ∨ method = "PUT" ∨ method = "PATCH" then
    extractRequestExample tools.text (noFiles (Except PyError)) site operation
  else .ok (.map [])

/-- Fields and examples of an endpoint's operation. References to other files are not followed. -/
def readOperation (spec : Node) (path method : String) : Except PyError RawEndpoint := do
  let operation ← embeddedOperation tools spec path method
  if !operation.truthy then return { method, path }
  let site : Site := { schema := .map [], spec }
  let fields ← extractFieldsForMethod tools.text (noFiles (Except PyError)) site (tools.text.lower method) operation
  let requestExample ← requestExample tools site method operation
  let responseExample ← extractResponseExample tools.text (noFiles (Except PyError)) site operation
  return { method, path, fields, requestExample, responseExample }

/-- The verb of an entry: `str(ep.get("method", "")).upper()`. -/
def verbOf (entry : List (Scalar × Node)) : String :=
  tools.upper (str tools.text ((lookup entry "method").getD (.scalar (.str ""))))

/-- `urlparse(str(ep.get("production", ""))).path`. -/
def pathOf (entry : List (Scalar × Node)) : Except PyError String :=
  urlPath tools.tables (str tools.text ((lookup entry "production").getD (.scalar (.str ""))))

/-- One round of the loop over the entries. -/
def entryEndpoint (spec : Node) : Node → Except PyError (List RawEndpoint)
  | .map entry => do
    let path ← pathOf tools entry
    if verbOf tools entry ∉ httpVerbs ∨ path = "" then return []
    return [← readOperation tools spec path (verbOf tools entry)]
  | _ => return []

/-- `value or default`. -/
def orElse (value default : Node) : Node := if value.truthy then value else default

def endpointsFromFrontmatter (fm : List (Scalar × Node)) : Except PyError (List RawEndpoint) := do
  let spec := orElse ((lookup fm "openApi").getD pyNone) (.map [])
  let entries ← iter (orElse ((lookup fm "endpoint").getD pyNone) (.list []))
  extend (entryEndpoint tools spec) entries

/-! ### The frontmatter as text -/

/-- A letter under IGNORECASE: three letters outside ASCII fold into i and s. -/
def foldsTo (letter c : Char) : Bool :=
  c.toLower = letter || (letter = 'i' && (c = 'İ' || c = 'ı')) || (letter = 's' && c = 'ſ')

def ignoreCase (text : String) : Pattern := text.toList.foldr (fun letter rest => .seq (.char (foldsTo letter)) rest) .empty

/-- `[A-Z]` under IGNORECASE: four letters outside ASCII fold into it. -/
def latinLetter (c : Char) : Bool := c.isAlpha || c ∈ ['İ', 'ı', 'ſ', '\u212a']

def quote (c : Char) : Bool := c = '\'' || c = '"'

/-- `method:\s*([A-Z]+)`. -/
def methodRe : Pattern :=
  .seq (ignoreCase "method:") <| .seq (.many tools.tables.isspace) <| .group 1 (.plus latinLetter)

/-- `production:\s*['\"]?(https://[^\s'\"]+)['\"]?`. -/
def productionRe : Pattern :=
  .seq (ignoreCase "production:") <| .seq (.many tools.tables.isspace) <| .seq (.opt (.char quote)) <|
  .seq (.group 1 (.seq (ignoreCase "https://") (.plus (fun c => !tools.tables.isspace c && !quote c)))) <|
  .opt (.char quote)

/-- `re.findall` of a pattern with one group. -/
def findall (pattern : Pattern) (fmText : String) : List String :=
  (finditer pattern fmText.toList).map (fun way => String.ofList ((way.group 1).getD []))

/-- One pair of the fallback. -/
def textEndpoint (pair : String × String) : Except PyError (List RawEndpoint) := do
  if tools.upper pair.1 ∉ httpVerbs then return []
  let path ← urlPath tools.tables pair.2
  return if path = "" then [] else [{ method := tools.upper pair.1, path }]

/-- Regex fallback for frontmatter that is not valid YAML. -/
def endpointsFromFrontmatterText (fmText : String) : Except PyError (List RawEndpoint) :=
  extend (textEndpoint tools) ((findall (methodRe tools) fmText).zip (findall (productionRe tools) fmText))

/-! ### An article -/

/-- The YAML of a frontmatter, if it is valid. -/
def loadFrontmatter (fmText : String) : Except PyError (Option Node) :=
  match tools.yamlSafeLoad fmText with
  | .ok fm => .ok (some fm)
  | .error .yamlError => .ok none
  | .error e => .error e

def unparsable : String :=
  "frontmatter present but could not be parsed (neither YAML nor the regex fallback found any endpoints)"

/-- What the text of a frontmatter yields where its YAML yields nothing; `understood` if that was a mapping. -/
def fallback (understood : Bool) (fmText : String) : Except PyError (List RawEndpoint) := do
  let results ← endpointsFromFrontmatterText tools fmText
  if !results.isEmpty then return results
  if understood then return []
  throw (.parserError unparsable)

/-- The endpoints of a frontmatter. -/
def frontmatterEndpoints (fmText : String) : Except PyError (List RawEndpoint) := do
  match ← loadFrontmatter tools fmText with
  | some (.map fm) =>
    if !((lookup fm "endpoint").getD pyNone).truthy then return []
    let results ← endpointsFromFrontmatter tools fm
    if !results.isEmpty then return results
    fallback tools true fmText
  | _ => fallback tools false fmText

/-- The text of an article. -/
def mdString (pp : Node) : Except PyError String := do
  match orElse (← get "mdString" (.scalar (.str "")) pp) (.scalar (.str "")) with
  | .scalar (.str md) => return md
  | _ => throw .typeError

def endpointsFromPageProps (pp : Node) : Except PyError (List RawEndpoint) := do
  match frontmatter tools (← mdString pp) with
  | none => return []
  | some fmText => frontmatterEndpoints tools fmText

/-! ### Complete entries -/

def pair (endpoint : RawEndpoint) : String × String := (endpoint.method, endpoint.path)

/-- The verb and the path of an entry with a known verb and a production URL with a path. -/
def complete (entry : List (Scalar × Node)) : Option (String × String) :=
  match lookup entry "production", pathOf tools entry with
  | some (.scalar (.str _)), .ok path =>
    if verbOf tools entry ∉ httpVerbs ∨ path = "" then none else some (verbOf tools entry, path)
  | _, _ => none

def mappingOf : Node → Option (List (Scalar × Node))
  | .map entry => some entry
  | _ => none

/-- What stands under `endpoint`. -/
def endpointOf (fm : List (Scalar × Node)) : Node := (lookup fm "endpoint").getD pyNone

/-- The entries of a frontmatter that are mappings. -/
def mappings (fm : List (Scalar × Node)) : List (List (Scalar × Node)) :=
  match iter (orElse (endpointOf fm) (.list [])) with
  | .ok entries => entries.filterMap mappingOf
  | .error _ => []

/-- The endpoints of an article are those of its complete entries. -/
def FollowsEntries (pp : Node) (fm : List (Scalar × Node)) : Prop :=
  (List.map pair) <$> endpointsFromPageProps tools pp = .ok ((mappings fm).filterMap (complete tools))

/-! ### When the entries are followed -/

/-- An entry that the code takes: a known verb, and anything under `production` whose text has a path. -/
def Taken (entry : List (Scalar × Node)) : Prop :=
  verbOf tools entry ∈ httpVerbs ∧ ∃ path, pathOf tools entry = .ok path ∧ path ≠ ""

/-- An entry that can be read: its URL can be split, and an entry that is taken has an operation that can be read. -/
structure Readable (spec : Node) (entry : List (Scalar × Node)) : Prop where
  url : ∃ path, pathOf tools entry = .ok path
  operation : ∀ path, verbOf tools entry ∈ httpVerbs → pathOf tools entry = .ok path → path ≠ "" →
    ∃ endpoint, readOperation tools spec path (verbOf tools entry) = .ok endpoint

/-- No method that the text has stands at the place of a production URL with a path. -/
def Unpaired (fmText : String) : Prop :=
  ∀ (i : Nat) method production, (findall (methodRe tools) fmText)[i]? = some method →
    (findall (productionRe tools) fmText)[i]? = some production → tools.upper method ∈ httpVerbs →
    urlPath tools.tables production = .ok ""

/-- The embedded spec. -/
def embeddedSpec (fm : List (Scalar × Node)) : Node := orElse ((lookup fm "openApi").getD pyNone) (.map [])

/-- There is a text under `production`. -/
def HasUrl (entry : List (Scalar × Node)) : Prop := ∃ url, lookup entry "production" = some (.scalar (.str url))

/-- No entry is declared, or all can be read, those that are taken have a text as their URL, and some are taken or
    the text of the frontmatter pairs nothing. -/
def Clear (fm : List (Scalar × Node)) (fmText : String) : Prop :=
  (endpointOf fm).truthy = false ∨
    (∃ entries, iter (endpointOf fm) = .ok entries) ∧ (∀ entry ∈ mappings fm, Readable tools (embeddedSpec fm) entry) ∧
      (∀ entry ∈ mappings fm, Taken tools entry → HasUrl entry) ∧
      ((∃ entry ∈ mappings fm, Taken tools entry) ∨ Unpaired tools fmText)

variable {tools : Tools} {spec : Node} {entry : List (Scalar × Node)} {fm : List (Scalar × Node)} {fmText : String}

theorem readOperation_pair {path method : String} {endpoint : RawEndpoint}
    (read : readOperation tools spec path method = .ok endpoint) : pair endpoint = (method, path) := by
  unfold readOperation at read
  obtain ⟨operation, -, rest⟩ := bind_ok.mp read
  split at rest
  · rw [← pure_ok.mp rest]; rfl
  · obtain ⟨fields, -, rest⟩ := bind_ok.mp rest
    obtain ⟨requestExample, -, rest⟩ := bind_ok.mp rest
    obtain ⟨responseExample, -, rest⟩ := bind_ok.mp rest
    rw [← pure_ok.mp rest]; rfl

/-- The pair of an entry, as the code takes it. -/
def takenPair (tools : Tools) (entry : List (Scalar × Node)) : Option (String × String) :=
  match pathOf tools entry with
  | .ok path => if verbOf tools entry ∉ httpVerbs ∨ path = "" then none else some (verbOf tools entry, path)
  | .error _ => none

theorem takenPair_isSome : (takenPair tools entry).isSome ↔ Taken tools entry := by
  unfold takenPair Taken
  cases read : pathOf tools entry with
  | error e => simp
  | ok path =>
    by_cases known : verbOf tools entry ∈ httpVerbs <;> by_cases empty : path = "" <;> simp [known, empty]

/-- An entry returns exactly if it can be read, and then the pair that the code takes. -/
theorem entryEndpoint_ok {endpoints : List RawEndpoint} (returned : entryEndpoint tools spec (.map entry) = .ok endpoints) :
    Readable tools spec entry ∧ endpoints.map pair = (takenPair tools entry).toList := by
  obtain ⟨path, read, rest⟩ := bind_ok.mp returned
  unfold takenPair
  rw [read]
  dsimp only
  by_cases skipped : verbOf tools entry ∉ httpVerbs ∨ path = ""
  · rw [if_pos skipped] at rest ⊢
    rw [← pure_ok.mp rest]
    refine ⟨⟨⟨path, read⟩, fun path' known read' filled => ?_⟩, rfl⟩
    obtain rfl := Except.ok.inj (read.symm.trans read')
    exact absurd skipped (by simp [known, filled])
  · rw [if_neg skipped] at rest ⊢
    obtain ⟨endpoint, operation, rest⟩ := bind_ok.mp rest
    rw [← pure_ok.mp rest]
    refine ⟨⟨⟨path, read⟩, fun path' known read' filled => ?_⟩, ?_⟩
    · obtain rfl := Except.ok.inj (read.symm.trans read')
      exact ⟨endpoint, operation⟩
    · rw [List.map_singleton, readOperation_pair operation]; rfl

theorem entryEndpoint_of_readable (readable : Readable tools spec entry) :
    ∃ endpoints, entryEndpoint tools spec (.map entry) = .ok endpoints := by
  obtain ⟨path, read⟩ := readable.url
  by_cases skipped : verbOf tools entry ∉ httpVerbs ∨ path = ""
  · exact ⟨[], bind_ok.mpr ⟨path, read, by rw [if_pos skipped]; rfl⟩⟩
  · rw [not_or, not_not] at skipped
    obtain ⟨endpoint, operation⟩ := readable.operation path skipped.1 read skipped.2
    refine ⟨[endpoint], bind_ok.mpr ⟨path, read, ?_⟩⟩
    rw [if_neg (by simp [skipped]), operation]
    rfl

/-- The loop over the entries takes the pairs of all. -/
theorem extend_entries {entries : List Node} {results : List RawEndpoint}
    (returned : extend (entryEndpoint tools spec) entries = .ok results) :
    (∀ entry ∈ entries.filterMap mappingOf, Readable tools spec entry) ∧
      results.map pair = (entries.filterMap mappingOf).filterMap (takenPair tools) := by
  induction entries generalizing results with
  | nil =>
    obtain rfl := pure_ok.mp returned
    exact ⟨by simp, rfl⟩
  | cons node entries ih =>
    obtain ⟨first, others, ran, looped, rfl⟩ := extend_cons_ok.mp returned
    obtain ⟨readable, pairs⟩ := ih looped
    cases node with
    | map entry =>
      obtain ⟨reads, taken⟩ := entryEndpoint_ok ran
      have mapped : (Node.map entry :: entries).filterMap mappingOf = entry :: entries.filterMap mappingOf := rfl
      rw [mapped]
      refine ⟨List.forall_mem_cons.mpr ⟨reads, readable⟩, ?_⟩
      rw [List.map_append, pairs, taken]
      cases takes : takenPair tools entry <;> simp [takes]
    | scalar _ | list _ | set _ =>
      obtain rfl := pure_ok.mp ran
      exact ⟨readable, pairs⟩

theorem exists_extend_entries {entries : List Node}
    (readable : ∀ entry ∈ entries.filterMap mappingOf, Readable tools spec entry) :
    ∃ results, extend (entryEndpoint tools spec) entries = .ok results := by
  refine exists_extend_ok fun node member => ?_
  cases node with
  | map entry => exact entryEndpoint_of_readable (readable entry (List.mem_filterMap.mpr ⟨_, member, rfl⟩))
  | scalar _ | list _ | set _ => exact ⟨[], rfl⟩

/-! ### The fallback -/

theorem textEndpoint_nil {found : String × String} : textEndpoint tools found = .ok [] ↔
    (tools.upper found.1 ∈ httpVerbs → urlPath tools.tables found.2 = .ok "") := by
  unfold textEndpoint
  by_cases known : tools.upper found.1 ∈ httpVerbs
  · simp only [known, not_true_eq_false, if_false, forall_const]
    cases split : urlPath tools.tables found.2 with
    | error e => exact ⟨fun impossible => (nomatch impossible), fun impossible => (nomatch impossible)⟩
    | ok path => by_cases empty : path = "" <;> simp [bind, Except.bind, empty, pure, Except.pure]
  · simp [known]

/-- The fallback finds nothing exactly if no method stands at the place of a URL. -/
theorem text_unpaired : endpointsFromFrontmatterText tools fmText = .ok [] ↔ Unpaired tools fmText := by
  unfold endpointsFromFrontmatterText
  rw [extend_eq_nil]
  constructor
  · intro nothing i method production here there
    have together := nothing (method, production)
      (List.mem_iff_getElem?.mpr ⟨i, List.getElem?_zip_eq_some.mpr ⟨here, there⟩⟩)
    exact textEndpoint_nil.mp together
  · intro unpaired found member
    obtain ⟨i, at_place⟩ := List.mem_iff_getElem?.mp member
    obtain ⟨here, there⟩ := List.getElem?_zip_eq_some.mp at_place
    exact textEndpoint_nil.mpr (unpaired i found.1 found.2 here there)

/-- With an understood frontmatter the fallback has no endpoints only if the text yields none. -/
theorem fallback_nil : fallback tools true fmText = .ok [] ↔ Unpaired tools fmText := by
  rw [← text_unpaired]
  unfold fallback
  cases found : endpointsFromFrontmatterText tools fmText with
  | error e => exact ⟨fun impossible => (nomatch impossible), fun impossible => (nomatch impossible)⟩
  | ok results => cases results <;> simp [bind, Except.bind, pure, Except.pure]

/-! ### Articles -/

theorem complete_of_url (url : HasUrl entry) : complete tools entry = takenPair tools entry := by
  obtain ⟨url, text⟩ := url
  unfold complete takenPair
  rw [text]
  cases pathOf tools entry <;> rfl

theorem complete_without_url (without : ¬ HasUrl entry) : complete tools entry = none := by
  unfold complete
  split
  · rename_i url _ text _
    exact absurd ⟨url, text⟩ without
  · rfl

theorem complete_below (tools : Tools) (entry : List (Scalar × Node)) :
    complete tools entry = none ∨ complete tools entry = takenPair tools entry := by
  by_cases url : HasUrl entry
  · exact .inr (complete_of_url url)
  · exact .inl (complete_without_url url)

theorem takenPair_eq_complete : takenPair tools entry = complete tools entry ↔ (Taken tools entry → HasUrl entry) := by
  rw [← takenPair_isSome]
  by_cases url : HasUrl entry
  · simp [complete_of_url url, url]
  · rw [complete_without_url url]
    cases takenPair tools entry <;> simp [url]

theorem filterMap_le {α β : Type} {f g : α → Option β} (below : ∀ a, g a = none ∨ g a = f a) (l : List α) :
    (l.filterMap g).length ≤ (l.filterMap f).length := by
  induction l with
  | nil => exact Nat.le_refl 0
  | cons a rest ih =>
    rcases below a with missing | same
    · cases found : f a <;> simp [missing, found] <;> omega
    · cases found : f a <;> simp [same, found, ih]

/-- A narrower choice from a list is the same only if it drops nothing. -/
theorem filterMap_eq_iff {α β : Type} {f g : α → Option β} (below : ∀ a, g a = none ∨ g a = f a) {l : List α} :
    l.filterMap f = l.filterMap g ↔ ∀ a ∈ l, f a = g a := by
  constructor
  · intro same
    induction l with
    | nil => simp
    | cons a rest ih =>
      rcases below a with missing | equal
      · cases found : f a with
        | none =>
          rw [List.filterMap_cons_none found, List.filterMap_cons_none missing] at same
          exact List.forall_mem_cons.mpr ⟨found.trans missing.symm, ih same⟩
        | some b =>
          rw [List.filterMap_cons_some found, List.filterMap_cons_none missing] at same
          have shorter := filterMap_le below rest
          rw [← same, List.length_cons] at shorter
          omega
      · cases found : f a with
        | none =>
          rw [List.filterMap_cons_none found, List.filterMap_cons_none (equal.trans found)] at same
          exact List.forall_mem_cons.mpr ⟨found.trans (equal.trans found).symm, ih same⟩
        | some b =>
          rw [List.filterMap_cons_some found, List.filterMap_cons_some (equal.trans found)] at same
          exact List.forall_mem_cons.mpr ⟨found.trans (equal.trans found).symm, ih (List.cons.inj same).2⟩
  · intro same
    exact List.filterMap_congr same

/-- The pairs of the code are those of the complete entries exactly if all taken ones have a text as their URL. -/
theorem pairs_eq_iff : (mappings fm).filterMap (takenPair tools) = (mappings fm).filterMap (complete tools) ↔
    ∀ entry ∈ mappings fm, Taken tools entry → HasUrl entry := by
  rw [filterMap_eq_iff (complete_below tools)]
  exact forall₂_congr fun _ _ => takenPair_eq_complete

theorem none_taken : (mappings fm).filterMap (takenPair tools) = [] ↔ ¬ ∃ entry ∈ mappings fm, Taken tools entry := by
  rw [List.filterMap_eq_nil_iff]
  push Not
  refine forall₂_congr fun entry _ => ?_
  rw [← takenPair_isSome, Option.not_isSome_iff_eq_none]

section
variable {pp : Node} {md : String}

/-- What the code does with a frontmatter that is a mapping. -/
theorem endpoints_of_mapping (text : mdString pp = .ok md) (block : frontmatter tools md = some fmText)
    (understood : tools.yamlSafeLoad fmText = .ok (.map fm)) :
    endpointsFromPageProps tools pp =
      if (endpointOf fm).truthy then
        endpointsFromFrontmatter tools fm >>= fun results =>
          if results.isEmpty then fallback tools true fmText else .ok results
      else .ok [] := by
  have loaded : loadFrontmatter tools fmText = .ok (some (.map fm)) := by rw [loadFrontmatter, understood]
  unfold endpointsFromPageProps frontmatterEndpoints
  rw [text, ok_bind, block]
  dsimp only
  rw [loaded, ok_bind]
  dsimp only
  change (if !(endpointOf fm).truthy then _ else _) = _
  by_cases declared : (endpointOf fm).truthy = true
  · rw [declared]
    refine bind_congr_ok fun results _ => ?_
    cases results <;> rfl
  · rw [Bool.not_eq_true] at declared
    rw [declared]
    rfl

theorem endpointsFromFrontmatter_eq (declared : (endpointOf fm).truthy = true) :
    endpointsFromFrontmatter tools fm =
      iter (endpointOf fm) >>= fun entries => extend (entryEndpoint tools (embeddedSpec fm)) entries := by
  unfold endpointsFromFrontmatter
  change iter (orElse (endpointOf fm) _) >>= _ = _
  rw [orElse, if_pos declared]
  rfl

theorem mappings_of_iter {entries : List Node} (declared : (endpointOf fm).truthy = true)
    (listed : iter (endpointOf fm) = .ok entries) : mappings fm = entries.filterMap mappingOf := by
  rw [mappings, orElse, if_pos declared, listed]

theorem mappings_of_falsy (absent : (endpointOf fm).truthy = false) : mappings fm = [] := by
  rw [mappings, orElse, absent]
  rfl

/-- The endpoints of an article whose frontmatter is a mapping are those of its complete entries exactly if it is
    clear. -/
theorem follows_entries_iff (text : mdString pp = .ok md) (block : frontmatter tools md = some fmText)
    (understood : tools.yamlSafeLoad fmText = .ok (.map fm)) :
    FollowsEntries tools pp fm ↔ Clear tools fm fmText := by
  unfold FollowsEntries
  rw [endpoints_of_mapping text block understood]
  by_cases declared : (endpointOf fm).truthy = true
  · rw [if_pos declared, endpointsFromFrontmatter_eq declared, bind_assoc]
    constructor
    · intro follows
      obtain ⟨endpoints, ran, pairs⟩ := bind_ok.mp ((bind_pure_comp _ _).trans follows)
      obtain ⟨entries, listed, ran⟩ := bind_ok.mp ran
      obtain ⟨results, looped, ran⟩ := bind_ok.mp ran
      obtain ⟨readable, taken⟩ := extend_entries looped
      rw [← mappings_of_iter declared listed] at readable taken
      have pairs := pure_ok.mp pairs
      refine .inr ⟨⟨entries, listed⟩, readable, ?_⟩
      cases results with
      | cons first others =>
        obtain rfl := Except.ok.inj ran
        rw [taken] at pairs
        refine ⟨pairs_eq_iff.mp pairs, .inl ?_⟩
        by_contra none_is
        rw [none_taken.mpr none_is] at taken
        cases taken
      | nil =>
        have no_pairs := none_taken.mp taken.symm
        have every : ∀ entry ∈ mappings fm, Taken tools entry → HasUrl entry :=
          fun entry member takes => absurd ⟨entry, member, takes⟩ no_pairs
        rw [← pairs_eq_iff.mpr every, ← taken] at pairs
        obtain rfl : endpoints = [] := List.map_eq_nil_iff.mp pairs
        exact ⟨every, .inr (fallback_nil.mp ran)⟩
    · rintro (absent | ⟨⟨entries, listed⟩, readable, urls, found⟩)
      · rw [absent] at declared; cases declared
      · rw [mappings_of_iter declared listed] at readable
        obtain ⟨results, looped⟩ := exists_extend_entries readable
        have taken := (extend_entries looped).2
        rw [← mappings_of_iter declared listed] at taken
        rw [listed, ok_bind, looped, ok_bind, ← pairs_eq_iff.mpr urls, ← taken]
        cases results with
        | cons first others => rfl
        | nil =>
          rcases found with some_taken | unpaired
          · exact absurd some_taken (none_taken.mp taken.symm)
          · rw [List.isEmpty_nil, if_pos rfl, fallback_nil.mpr unpaired]
            rfl
  · rw [Bool.not_eq_true] at declared
    rw [declared, mappings_of_falsy declared]
    exact ⟨fun _ => .inl declared, fun _ => rfl⟩

end

/-! ### Mixed entries -/

/-- The YAML of two entries, of which one has a method and the other a URL. -/
def mixedYaml : String := "endpoint:\n  - method: GET\n  - production: https://h/a"

def mixedEntries : List (Scalar × Node) :=
  [(.str "endpoint", .list [.map [(.str "method", .scalar (.str "GET"))],
    .map [(.str "production", .scalar (.str "https://h/a"))]])]

/-- The YAML of an article with one complete entry. -/
def completeYaml : String := "endpoint:\n  - method: GET\n    production: https://h/a"

def completeEntries : List (Scalar × Node) :=
  [(.str "endpoint", .list [.map [(.str "method", .scalar (.str "GET")), (.str "production", .scalar (.str "https://h/a"))]])]

/-- YAML as far as these articles need it. -/
def exampleTools : Tools where
  text := plainText
  tables := asciiTables
  upper text := String.ofList (text.toList.map Char.toUpper)
  yamlSafeLoad fmText :=
    if fmText = mixedYaml then .ok (.map mixedEntries)
    else if fmText = completeYaml then .ok (.map completeEntries)
    else .error .yamlError

def articleOf (fmText : String) : Node := .map [(.str "mdString", .scalar (.str ("---\n" ++ fmText ++ "\n---\n")))]

theorem frontmatter_mixed : frontmatter exampleTools ("---\n" ++ mixedYaml ++ "\n---\n") = some mixedYaml := by
  decide +kernel

theorem frontmatter_complete : frontmatter exampleTools ("---\n" ++ completeYaml ++ "\n---\n") = some completeYaml := by
  decide +kernel

theorem follows_entries_complete : FollowsEntries exampleTools (articleOf completeYaml) completeEntries := by
  have one : mappings completeEntries =
      [[(.str "method", .scalar (.str "GET")), (.str "production", .scalar (.str "https://h/a"))]] := by rfl
  refine (follows_entries_iff rfl frontmatter_complete rfl).mpr (.inr ⟨⟨_, rfl⟩, ?_, ?_, .inl ?_⟩)
  · rw [one]
    rintro entry member
    obtain rfl := List.mem_singleton.mp member
    exact ⟨⟨"/a", rfl⟩, fun path _ _ _ => ⟨{ method := "GET", path }, rfl⟩⟩
  · rw [one]
    rintro entry member -
    obtain rfl := List.mem_singleton.mp member
    exact ⟨_, rfl⟩
  · rw [one]
    exact ⟨_, List.mem_singleton_self _, by decide, "/a", rfl, by decide⟩

/-- GET of the first entry is paired with the URL of the second. -/
theorem mixed_entries_paired : ¬ ∀ tools pp md fmText fm, mdString pp = .ok md → frontmatter tools md = some fmText →
    tools.yamlSafeLoad fmText = .ok (.map fm) → FollowsEntries tools pp fm := by
  intro every
  have follows := every exampleTools (articleOf mixedYaml) _ mixedYaml mixedEntries rfl frontmatter_mixed rfl
  have paired : List.map pair <$> endpointsFromPageProps exampleTools (articleOf mixedYaml) = .ok [("GET", "/a")] := by
    rfl
  have none_complete : (mappings mixedEntries).filterMap (complete exampleTools) = [] := by rfl
  rw [FollowsEntries, paired, none_complete] at follows
  cases follows

end ScanApi.AlfaFrontmatter
