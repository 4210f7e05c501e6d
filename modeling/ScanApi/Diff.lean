import Mathlib.Data.String.Basic
import ScanApi.Dict

/-!
Comparison of the stored state of a snapshot with a freshly parsed one
(`app/diff.py`). A method is known across snapshots by `methodKey`; duplicates of
a key inside one snapshot are represented by their first occurrence (`index`).
Everything that is hidden is compared too, and its changes are marked hidden.
-/
namespace ScanApi.Diff

structure MethodRecord where
  service : String
  httpMethod : String
  path : String
  name : String
  url : String
  fields : Finset String
  /-- Not visible on the dev portal; not part of the key. -/
  hidden : Bool := false
  hiddenReason : Option String := none
deriving DecidableEq

inductive ChangeType
  | service
  | method
  | field
deriving DecidableEq, Repr

inductive Action
  | added
  | removed
  | modified
deriving DecidableEq, Repr

structure Change where
  changeType : ChangeType
  action : Action
  entityName : String
  entityPath : String
  url : String := ""
  oldValue : String := ""
  newValue : String := ""
  /-- About something hidden: stored for the admin, never shown publicly. -/
  hidden : Bool := false
deriving DecidableEq, Repr

/-- Services by name with their links, and all methods, visible and hidden. -/
abbrev SnapshotState := Dict String String × List MethodRecord

/-- `s.startswith(p)`. -/
def startsWith (s p : String) : Bool := p.toList.isPrefixOf s.toList

def methodKey (m : MethodRecord) : String :=
  if m.path ≠ "" then m.httpMethod ++ " " ++ m.path
  else m.service ++ " / " ++ m.httpMethod ++ " " ++ m.name

/-- Hidden: at least one method, and every one of them hidden. -/
def serviceIsHidden (flags : List Bool) : Bool := !flags.isEmpty && flags.all id

/-- The first method of each key. -/
def index (methods : List MethodRecord) : Dict String MethodRecord := Dict.firstBy methodKey methods

def hiddenServiceNames (methods : List MethodRecord) : Finset String :=
  (((Dict.groupBy MethodRecord.service MethodRecord.hidden methods).entries.filter
    (fun e => serviceIsHidden e.2)).map Prod.fst).toFinset

def methodChange (action : Action) (m : MethodRecord) (hidden : Bool) : Change :=
  let key := methodKey m
  let path := if startsWith key (m.service ++ " / ") then key else m.service ++ " / " ++ key
  { changeType := .method, action, entityName := key, entityPath := path, url := m.url, hidden }

def serviceChanges (prev new : Dict String String) (hiddenOld hiddenNew : Finset String) : List Change :=
  (sorted (new.keys \ prev.keys)).filterMap (fun n => (new.get? n).map (fun url =>
    { changeType := .service, action := .added, entityName := n, entityPath := n, url, hidden := n ∈ hiddenNew })) ++
  (sorted (prev.keys \ new.keys)).filterMap (fun n => (prev.get? n).map (fun url =>
    { changeType := .service, action := .removed, entityName := n, entityPath := n, url, hidden := n ∈ hiddenOld }))

def fieldChange (old new : MethodRecord) : Option Change :=
  let added := sorted (new.fields \ old.fields)
  let removed := sorted (old.fields \ new.fields)
  if added = [] ∧ removed = [] then none
  else some { methodChange .modified new new.hidden with
    changeType := .field
    oldValue := String.intercalate ", " (removed.map ("-" ++ ·))
    newValue := String.intercalate ", " (added.map ("+" ++ ·)) }

/-- Keys only in `a`, with what the index of `a` holds for them. -/
def onlyIn (a b : Dict String MethodRecord) : List MethodRecord :=
  (sorted (a.keys \ b.keys)).filterMap a.get?

/-- Keys in both, with what the old and the new index hold for them. -/
def common (old new : Dict String MethodRecord) : List (MethodRecord × MethodRecord) :=
  (sorted (new.keys ∩ old.keys)).filterMap (fun k => (old.get? k).bind (fun o => (new.get? k).map (fun n => (o, n))))

/-- A key that changed between visible and hidden: always a visible change,
    because something appeared on the dashboard or left it. -/
def flipChange (old new : MethodRecord) : Option Change :=
  if old.hidden = new.hidden then none
  else if new.hidden then some (methodChange .removed old false)
  else some (methodChange .added new false)

/-- The field change of a key that kept its visibility. -/
def keptFieldChange (old new : MethodRecord) : Option Change :=
  if old.hidden = new.hidden then fieldChange old new else none

/-- The method changes for keys on one side only. -/
def methodChanges (old new : Dict String MethodRecord) : List Change :=
  (onlyIn new old).map (fun m => methodChange .added m m.hidden) ++
  (onlyIn old new).map (fun m => methodChange .removed m m.hidden)

def flipChanges (old new : Dict String MethodRecord) : List Change :=
  (common old new).filterMap (fun p => flipChange p.1 p.2)

def fieldChanges (old new : Dict String MethodRecord) : List Change :=
  (common old new).filterMap (fun p => keptFieldChange p.1 p.2)

/-- The changes from the previous state; the first snapshot is a baseline
    without changes. -/
def computeChanges (prev : Option SnapshotState) (newServices : Dict String String)
    (newMethods : List MethodRecord) : List Change :=
  match prev with
  | none => []
  | some (prevServices, prevMethods) =>
    let old := index prevMethods
    let new := index newMethods
    serviceChanges prevServices newServices (hiddenServiceNames prevMethods) (hiddenServiceNames newMethods) ++
      methodChanges old new ++ flipChanges old new ++ fieldChanges old new

end ScanApi.Diff
