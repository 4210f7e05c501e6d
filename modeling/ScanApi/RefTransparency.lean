import ScanApi.Examples

/-!
A reference and the node it leads to. Both recursions follow one reference at
the top of a schema and then read the node without looking for another, so a
reference stands for every node that is not a reference itself, and for an alias
only where nothing is lost with it (`ref_transparent`). The program may fetch
sibling files, and the node is read in the state that resolving its reference
left.
-/
namespace ScanApi.RefTransparency
open ScanApi.Raising ScanApi.Yaml ScanApi.Python ScanApi.Refs ScanApi.Fields ScanApi.Examples ScanApi.Prog

variable {σ : Type} {docs : Documents (Prog σ PyError)} {s s' s'' : σ} {site target next : Site}

/-- `{"$ref": ref}`. -/
def refTo (ref : Node) : Node := .map [(.str "$ref", ref)]

/-- A reference resolved where it stands leads to a node and a state. -/
def LeadsTo (docs : Documents (Prog σ PyError)) (ref : Node) (site : Site) (s : σ) (target : Site) (s' : σ) : Prop :=
  exec (resolveRef docs ref site) s = (.ok target, s')

/-- A schema without an example and without a combinator. -/
structure Bare (target : Site) : Prop where
  noExample : contains "example" target.schema = .ok false
  alone : combined target.schema = .ok none

/-- A schema that is neither an object nor an array nor of a type with a default. -/
structure Blank (target : Site) : Prop where
  noObject : isObjectSchema target.schema = .ok false
  noArray : isArraySchema target.schema = .ok false
  noDefault : ∃ type, get "type" (.scalar (.str "")) target.schema = .ok type ∧ typeDefault type = .ok pyNone

/-- A reference that says nothing about a body itself. -/
structure Alias (target : Site) : Prop extends Bare target, Blank target where
  hasRef : contains "$ref" target.schema = .ok true

theorem alias_refTo (ref : Node) : Alias (target.at (refTo ref)) where
  noExample := rfl
  alone := rfl
  noObject := rfl
  noArray := rfl
  noDefault := ⟨_, rfl, rfl⟩
  hasRef := rfl

/-! ### Entering a reference and entering its node -/

theorem enter_refTo {ref : Node} (leads : LeadsTo docs ref site s target s') :
    exec (enter docs (site.at (refTo ref))) s = (.ok (if target.schema.truthy then some target else none), s') := by
  have read : enter docs (site.at (refTo ref)) = _ := enter_ref rfl rfl rfl
  rw [read, resolveRef_at, exec_map, show exec (resolveRef docs ref site) s = _ from leads]

theorem enter_node (noRef : contains "$ref" target.schema = .ok false) :
    exec (enter docs target) s' = (.ok (if target.schema.truthy then some target else none), s') := by
  cases nonempty : target.schema.truthy with
  | false => rw [enter_empty nonempty]; rfl
  | true => rw [enter_self nonempty noRef]; rfl

/-! ### What a bare schema gives -/

theorem Alias.truthy (isAlias : Alias target) : target.schema.truthy = true := by
  have hasRef := isAlias.hasRef
  obtain ⟨type, read, _⟩ := isAlias.noDefault
  cases schema : target.schema with
  | map entries =>
    cases entries with
    | nil => rw [schema] at hasRef; cases hasRef
    | cons e rest => rfl
  | scalar _ | list _ | set _ => rw [schema] at read; cases read

theorem schemaFields_blank {nested : Bool} {deeper : Scalar → Site → Prog σ PyError (List Scalar)}
    {namePrefix : Scalar} (bare : Bare target) (blank : Blank target) :
    schemaFields nested deeper namePrefix target = pure [] := by
  simp [schemaFields, bare.alone, blank.noObject, blank.noArray]

/-- Objects and arrays give containers, and a scalar its default. -/
theorem exampleOf_bare {deeper : Site → Prog σ PyError Node} (bare : Bare target) :
    (exec (exampleOf docs deeper target) s).1 = .ok pyNone ↔ Blank target := by
  constructor
  · intro nothing
    have returned : exec (exampleOf docs deeper target) s = (.ok pyNone, _) := Prod.ext nothing rfl
    simp only [exampleOf, bare.noExample, bare.alone, py_ok, pure_bind, Bool.false_eq_true, ↓reduceIte] at returned
    obtain ⟨object, s₁, isObject, returned⟩ := exec_bind_ok.mp returned
    rw [exec_py] at isObject
    cases object with
    | true =>
      obtain ⟨properties, s₂, _, returned⟩ := exec_bind_ok.mp returned
      obtain ⟨entries, s₃, _, returned⟩ := exec_bind_ok.mp returned
      obtain ⟨obj, s₄, _, returned⟩ := exec_bind_ok.mp returned
      cases returned
    | false =>
      obtain ⟨array, s₂, isArray, returned⟩ := exec_bind_ok.mp returned
      rw [exec_py] at isArray
      cases array with
      | true =>
        obtain ⟨schema, s₃, _, returned⟩ := exec_bind_ok.mp returned
        obtain ⟨value, s₄, _, returned⟩ := exec_bind_ok.mp returned
        have list : (if isNone value then .list [] else .list [value]) = pyNone :=
          Except.ok.inj (congrArg Prod.fst returned)
        split at list <;> cases list
      | false =>
        obtain ⟨type, s₃, read, returned⟩ := exec_bind_ok.mp returned
        rw [exec_py] at read returned
        exact ⟨congrArg Prod.fst isObject, congrArg Prod.fst isArray, type, congrArg Prod.fst read,
          congrArg Prod.fst returned⟩
  · intro blank
    obtain ⟨type, read, noDefault⟩ := blank.noDefault
    simp [exampleOf, bare.noExample, bare.alone, blank.noObject, blank.noArray, read, noDefault]

/-! ### One reference -/

/-- At this depth the recursions return for the reference what they return for
    the node. -/
def SameFields (docs : Documents (Prog σ PyError)) (room : Nat) (namePrefix : Scalar) (reference : Site) (s : σ)
    (target : Site) (s' : σ) : Prop :=
  (exec (extractFields docs (room + 1) namePrefix reference) s).1 =
    (exec (extractFields docs (room + 1) namePrefix target) s').1

def SameExample (docs : Documents (Prog σ PyError)) (room : Nat) (reference : Site) (s : σ) (target : Site) (s' : σ) :
    Prop :=
  (exec (schemaToExample docs (room + 1) reference) s).1 = (exec (schemaToExample docs (room + 1) target) s').1

/-- An alias is read as it stands, and so gives nothing; its node is read where
    the alias leads, if it leads anywhere. -/
theorem same_alias {ref : Node} (leads : LeadsTo docs ref site s target s') (isAlias : Alias target)
    {place : Option Site} (followed : exec (enter docs target) s' = (.ok place, s''))
    (bare : ∀ next ∈ place, Bare next) (room : Nat) (namePrefix : Scalar) :
    SameFields docs room namePrefix (site.at (refTo ref)) s target s' ∧
      SameExample docs room (site.at (refTo ref)) s target s' ↔ ∀ next ∈ place, Blank next := by
  have entered := enter_refTo leads
  rw [isAlias.truthy] at entered
  have nothing : (exec (exampleOf docs (schemaToExample docs room) target) s').1 = .ok pyNone :=
    (exampleOf_bare isAlias.toBare).mpr isAlias.toBlank
  simp only [SameFields, SameExample, extractFields, schemaToExample, exec_bind, entered, followed, ↓reduceIte, nothing,
    schemaFields_blank isAlias.toBare isAlias.toBlank, exec_pure]
  cases place with
  | none => simp
  | some next =>
    have found := bare next rfl
    simp only [Option.mem_some_iff, forall_eq']
    constructor
    · rintro ⟨_, same⟩
      exact (exampleOf_bare found).mp same.symm
    · intro blank
      refine ⟨?_, ((exampleOf_bare found).mpr blank).symm⟩
      rw [schemaFields_blank found blank, exec_pure]

/-- A reference stands for a node without a reference at every depth; for an
    alias it does, at any depth, exactly where the alias leads to nothing or to a
    schema that gives nothing. -/
theorem ref_transparent {ref : Node} (leads : LeadsTo docs ref site s target s') :
    (contains "$ref" target.schema = .ok false → ∀ room namePrefix,
      SameFields docs room namePrefix (site.at (refTo ref)) s target s' ∧
        SameExample docs room (site.at (refTo ref)) s target s') ∧
    (Alias target → ∀ place s'', exec (enter docs target) s' = (.ok place, s'') → (∀ next ∈ place, Bare next) →
      ∀ room namePrefix, (SameFields docs room namePrefix (site.at (refTo ref)) s target s' ∧
        SameExample docs room (site.at (refTo ref)) s target s' ↔ ∀ next ∈ place, Blank next)) := by
  constructor
  · intro noRef room namePrefix
    have entered := enter_refTo leads
    have itself := @enter_node _ docs s' target noRef
    constructor
    · simp only [SameFields, extractFields, exec_bind, entered, itself]
    · simp only [SameExample, schemaToExample, exec_bind, entered, itself]
  · intro isAlias place s'' followed bare room namePrefix
    exact same_alias leads isAlias followed bare room namePrefix

/-! ### A sibling file, and an alias -/

/-- One sibling file. -/
def commonFile : Documents (Prog Unit PyError) where
  urljoin _ _ := .ok "https://bank/common.yml"
  urlparse _ := .ok ⟨"https", "bank"⟩
  fetchExternalSpec _ := pure (.map [(.str "Company", objectOf "inn")])

def specSite : Site where
  schema := .map []
  spec := .map [(.str "Alias", refTo (.scalar (.str "#/Company"))), (.str "Company", objectOf "inn")]
  specUrl := some "https://bank/spec.yml"

def commonSite : Site where
  schema := objectOf "inn"
  spec := .map [(.str "Company", objectOf "inn")]
  specUrl := some "https://bank/common.yml"
  seen := {"common.yml#/Company"}

theorem ref_transparent_commonFile :
    SameFields commonFile 4 (.str "") (specSite.at (refTo (.scalar (.str "common.yml#/Company")))) () commonSite () ∧
      SameExample commonFile 12 (specSite.at (refTo (.scalar (.str "common.yml#/Company")))) () commonSite () := by
  have leads : LeadsTo commonFile (.scalar (.str "common.yml#/Company")) specSite () commonSite () := rfl
  exact ⟨((ref_transparent leads).1 rfl 4 (.str "")).1, ((ref_transparent leads).1 rfl 12 (.str "")).2⟩

/-- Read through the alias the object has no fields and no example. -/
theorem not_transparent_alias : ∃ target, LeadsTo commonFile (.scalar (.str "#/Alias")) specSite () target () ∧
    ¬ SameFields commonFile 4 (.str "") (specSite.at (refTo (.scalar (.str "#/Alias")))) () target () ∧
    ¬ SameExample commonFile 12 (specSite.at (refTo (.scalar (.str "#/Alias")))) () target () := by
  refine ⟨_, rfl, fun same => ?_, fun same => ?_⟩
  · have listed : (exec (extractFields commonFile 5 (.str "") _) ()).1 = _ := same
    revert listed
    decide +kernel
  · have found := congrArg (fun result => result.map isNone) same
    revert found
    decide +kernel

end ScanApi.RefTransparency
