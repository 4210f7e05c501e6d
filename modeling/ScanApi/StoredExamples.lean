import ScanApi.OpenApi
import ScanApi.Stored

/-!
The examples of a method on their way from the spec to the database and back. An
example can be stored unless something in it has no JSON: `_json_safe` turns the
dates among the values into texts and leaves sets, bytes, keys that are dates and
infinities as they are. A stored example comes back as the same JSON value
unless it is false, zero or the empty text, which `create_method` replaces.
-/
namespace ScanApi.StoredExamples
open ScanApi.Yaml ScanApi.JsonColumn ScanApi.Database ScanApi.Repository ScanApi.Stored ScanApi.Examples ScanApi.OpenApi

/-! ### What can be stored -/

/-- A part of a value, at any depth. -/
inductive Within : Node → Node → Prop
  | self (part : Node) : Within part part
  | item {part item : Node} {items : List Node} (member : item ∈ items) (inside : Within part item) :
      Within part (.list items)
  | value {part : Node} {e : Scalar × Node} {entries : List (Scalar × Node)} (member : e ∈ entries)
      (inside : Within part e.2) : Within part (.map entries)

/-- A value that has JSON once its dates are texts. -/
def ValueFits : Scalar → Prop
  | .null | .bool _ => True
  | .int value => hasText value
  | .float repr => repr ≠ "nan" ∧ repr ≠ "inf" ∧ repr ≠ "-inf"
  | .str text => NulFree text
  | .date _ iso => NulFree iso
  | .binary _ => False

/-- A key that JSON has a text for. -/
def KeyFits : Scalar → Prop
  | .null | .bool _ | .float _ => True
  | .int value => hasText value
  | .str text => NulFree text
  | .date _ _ | .binary _ => False

/-- Nothing in the value is without JSON. -/
structure Serialisable (value : Node) : Prop where
  values : ∀ scalar, Within (.scalar scalar) value → ValueFits scalar
  keys : ∀ entries, Within (.map entries) value → ∀ e ∈ entries, KeyFits e.1
  sets : ∀ items, ¬ Within (.set items) value

theorem Serialisable.part {value part : Node} (fits : Serialisable value)
    (deeper : ∀ inner, Within inner part → Within inner value) : Serialisable part where
  values scalar inside := fits.values scalar (deeper _ inside)
  keys entries inside := fits.keys entries (deeper _ inside)
  sets items inside := fits.sets items (deeper _ inside)

theorem serialisable_scalar {scalar : Scalar} : Serialisable (.scalar scalar) ↔ ValueFits scalar := by
  constructor
  · intro fits
    exact fits.values scalar (.self _)
  · intro fits
    constructor
    · intro part inside; cases inside; exact fits
    · intro entries inside; cases inside
    · intro items inside; cases inside

theorem serialisable_list {items : List Node} : Serialisable (.list items) ↔ ∀ item ∈ items, Serialisable item := by
  constructor
  · intro fits item member
    exact fits.part (fun _ inside => .item member inside)
  · intro fits
    constructor
    · intro scalar inside
      cases inside with
      | item member inside => exact (fits _ member).values scalar inside
    · intro entries inside
      cases inside with
      | item member inside => exact (fits _ member).keys entries inside
    · intro set inside
      cases inside with
      | item member inside => exact (fits _ member).sets set inside

theorem serialisable_map {entries : List (Scalar × Node)} :
    Serialisable (.map entries) ↔ ∀ e ∈ entries, KeyFits e.1 ∧ Serialisable e.2 := by
  constructor
  · intro fits e member
    exact ⟨fits.keys entries (.self _) e member, fits.part (fun _ inside => .value member inside)⟩
  · intro fits
    constructor
    · intro scalar inside
      cases inside with
      | value member inside => exact (fits _ member).2.values scalar inside
    · intro part inside e listed
      cases inside with
      | self => exact (fits e listed).1
      | value member inside => exact (fits _ member).2.keys part inside e listed
    · intro set inside
      cases inside with
      | value member inside => exact (fits _ member).2.sets set inside

theorem not_serialisable_set (items : List Scalar) : ¬ Serialisable (.set items) :=
  fun fits => fits.sets items (.self _)

theorem jsonText_isSome {text : String} : (jsonText text).isSome ↔ NulFree text := by
  rw [Option.isSome_iff_exists]
  simp only [jsonText_some, exists_eq_left']

/-- A scalar is written exactly where it fits, dates as texts. -/
theorem jsonb_scalar_isSome (scalar : Scalar) : (jsonb (jsonSafe (.scalar scalar))).isSome ↔ ValueFits scalar := by
  cases scalar with
  | null | bool _ | binary _ => simp [jsonSafe, jsonb, jsonScalar, ValueFits]
  | int value => cases fits : hasText value <;> simp [jsonSafe, jsonb, jsonScalar, ValueFits, fits]
  | float repr =>
    simp only [jsonSafe, jsonb, jsonScalar, ValueFits, Option.isSome_map]
    by_cases infinite : repr = "nan" ∨ repr = "inf" ∨ repr = "-inf"
    · rw [if_pos infinite]
      simp only [Option.isSome_none, Bool.false_eq_true, false_iff]
      tauto
    · rw [if_neg infinite]
      simpa [not_or] using infinite
  | str text => simp [jsonSafe, jsonb, jsonScalar, ValueFits, jsonText_isSome]
  | date text iso => simp [jsonSafe, jsonb, jsonScalar, ValueFits, jsonText_isSome]

theorem jsonKey_isSome (key : Scalar) : (jsonKey key).isSome ↔ KeyFits key := by
  cases key with
  | null | date _ _ | binary _ => simp [jsonKey, KeyFits]
  | bool value => cases value <;> simp [jsonKey, KeyFits]
  | int value => cases fits : hasText value <;> simp [jsonKey, KeyFits, fits]
  | float repr => unfold jsonKey; split <;> simp_all [KeyFits]
  | str text => simp [jsonKey, KeyFits, jsonText_isSome]

mutual
/-- A column takes a value exactly where nothing in it is without JSON. -/
theorem jsonb_isSome : ∀ value : Node, (jsonb (jsonSafe value)).isSome ↔ Serialisable value
  | .scalar scalar => (jsonb_scalar_isSome scalar).trans serialisable_scalar.symm
  | .list items => by
    rw [jsonSafe, jsonb, Option.isSome_map, jsonbItems_isSome items, serialisable_list]
  | .map entries => by
    rw [jsonSafe, jsonb, Option.isSome_map, jsonbEntries_isSome entries, serialisable_map]
  | .set items => by
    simp only [jsonSafe, jsonb, Option.isSome_none, not_serialisable_set, Bool.false_eq_true]
theorem jsonbItems_isSome : ∀ items : List Node,
    (jsonbItems (jsonSafeItems items)).isSome ↔ ∀ item ∈ items, Serialisable item
  | [] => by simp [jsonSafeItems, jsonbItems]
  | item :: rest => by
    have first := jsonb_isSome item
    have others := jsonbItems_isSome rest
    rw [List.forall_mem_cons, ← first, ← others, jsonSafeItems, jsonbItems]
    cases jsonb (jsonSafe item) <;> simp
theorem jsonbEntries_isSome : ∀ entries : List (Scalar × Node),
    (jsonbEntries (jsonSafeEntries entries)).isSome ↔ ∀ e ∈ entries, KeyFits e.1 ∧ Serialisable e.2
  | [] => by simp [jsonSafeEntries, jsonbEntries]
  | (key, value) :: rest => by
    have written := jsonKey_isSome key
    have first := jsonb_isSome value
    have others := jsonbEntries_isSome rest
    rw [List.forall_mem_cons, ← written, ← first, ← others, jsonSafeEntries, jsonbEntries]
    cases jsonKey key <;> cases jsonb (jsonSafe value) <;> simp
end

/-! ### Creating a method -/

/-- What has no JSON is empty only if it was so before. -/
theorem truthy_jsonSafe {value : Node} (unfit : ¬ Serialisable value) : (jsonSafe value).truthy = value.truthy := by
  cases value with
  | scalar scalar =>
    cases scalar with
    | date text iso =>
      have nul : ¬ NulFree iso := fun free => unfit (serialisable_scalar.mpr free)
      have written : iso ≠ "" := fun empty => nul (by rw [empty]; simp [NulFree])
      simp [jsonSafe, Node.truthy, Scalar.truthy, written]
    | null | bool _ | int _ | float _ | str _ | binary _ => rfl
  | list items => cases items <;> rfl
  | map entries =>
    cases entries with
    | nil => rfl
    | cons e rest => rfl
  | set items => rfl

/-- An example is refused where it has no JSON, unless it is empty. -/
theorem orEmpty_refused {value : Node} :
    jsonb (orEmpty (jsonSafe value)) = none ↔ value.truthy = true ∧ ¬ Serialisable value := by
  have fits := jsonb_isSome value
  rw [orEmpty]
  constructor
  · intro refused
    by_cases kept : (jsonSafe value).truthy = true
    · rw [if_pos kept] at refused
      have unfit : ¬ Serialisable value := by rw [← fits, refused]; simp
      exact ⟨truthy_jsonSafe unfit ▸ kept, unfit⟩
    · rw [if_neg kept] at refused
      cases refused
  · rintro ⟨kept, unfit⟩
    rw [if_pos ((truthy_jsonSafe unfit).trans kept)]
    exact Option.not_isSome_iff_eq_none.mp (fun taken => unfit (fits.mp taken))

section
variable {serviceId : Nat} {name httpMethod url description : String} {path : Option String} {request response : Node}
  {hidden : Bool} {hiddenReason : Option String} {s s' : Session} {id : Nat}

/-- Without JSON for one of the examples nothing is sent. -/
theorem createMethod_refused :
    (Prog.exec (createMethod serviceId name httpMethod url description path request response hidden hiddenReason) s).1 =
        .error .example ↔
      jsonb (orEmpty request) = none ∨ jsonb (orEmpty response) = none := by
  unfold createMethod
  cases first : jsonb (orEmpty request) with
  | none => simp
  | some storedRequest =>
    cases second : jsonb (orEmpty response) with
    | none => simp
    | some storedResponse =>
      simp only [reduceCtorEq, or_self, iff_false]
      intro raised
      obtain ⟨-, -, lost | refused⟩ := statement_error (Prod.ext raised rfl)
      · cases lost
      · split_ifs at refused <;> cases refused

/-- A method whose examples come from a spec is refused for them exactly where
    one of them is not empty and has something without JSON in it. -/
theorem examples_storable_iff (request response : Node) :
    ((jsonb (jsonSafe request)).isSome ↔ Serialisable request) ∧
      ∀ (serviceId : Nat) (name httpMethod url description : String) (path : Option String) (hidden : Bool)
        (hiddenReason : Option String) (s : Session),
        (Prog.exec (createMethod serviceId name httpMethod url description path (jsonSafe request) (jsonSafe response)
          hidden hiddenReason) s).1 = .error .example ↔
          (request.truthy = true ∧ ¬ Serialisable request) ∨ (response.truthy = true ∧ ¬ Serialisable response) := by
  refine ⟨jsonb_isSome request, fun serviceId name httpMethod url description path hidden hiddenReason s => ?_⟩
  rw [createMethod_refused, orEmpty_refused, orEmpty_refused]

/-- A set of roles, a rate that is not a number and a limit by day. -/
theorem yaml_examples_refused :
    jsonb (jsonSafe (.map [(.str "roles", .set [.str "admin", .str "user"])])) = none ∧
      jsonb (jsonSafe (.map [(.str "rate", .scalar (.float "nan"))])) = none ∧
      jsonb (jsonSafe (.map [(.date "2024-01-01" "2024-01-01", .scalar (.int 100))])) = none ∧
      (Prog.exec (createMethod 1 "Роли" "POST" "" "" (some "/roles")
        (jsonSafe (.map [(.str "roles", .set [.str "admin", .str "user"])])) (.map []) false none) ⟨{}, 0, none⟩).1 =
        .error .example :=
  ⟨rfl, rfl, rfl, rfl⟩

/-! ### Reading it back -/

/-- What is inserted when a method is created. -/
theorem createMethod_ok (returned : Prog.exec (createMethod serviceId name httpMethod url description path request
      response hidden hiddenReason) s = (.ok id, s')) :
    ∃ row : MethodRow, s'.db = Db.insertMethod s.db row ∧ row.id = id ∧ id = s.db.sequences.methods ∧
      row.serviceId = serviceId ∧ row.hidden = hidden ∧ jsonb (orEmpty request) = some row.requestExample ∧
      jsonb (orEmpty response) = some row.responseExample := by
  unfold createMethod at returned
  split at returned
  · rename_i storedRequest storedResponse first second
    obtain ⟨-, db, accepted, rfl⟩ := statement_ok.mp returned
    split_ifs at accepted
    obtain ⟨rfl, rfl⟩ := Prod.mk.inj (Except.ok.inj accepted)
    exact ⟨_, rfl, rfl, rfl, rfl, rfl, first, second⟩
  · cases returned

/-- A new row comes back once, as its view. -/
theorem read_new {β : Type} [LinearOrder β] {key : MethodRow → β} {order : RowOrder MethodRow} {p : MethodRow → Bool}
    {rows : List MethodRow} {row : MethodRow} (fresh : ∀ r ∈ rows, r.id ≠ row.id) (shown : p row = true) :
    ((orderBy key (order.order ((rows ++ [row]).filter p))).map MethodRow.view).filter (fun view => view.id = row.id) =
      [MethodRow.view row] := by
  have others : (rows.filter p).filter (fun r => r.id = row.id) = [] := by
    rw [List.filter_eq_nil_iff]
    intro r member
    simpa using fresh r (List.mem_filter.mp member).1
  have alone : ((rows ++ [row]).filter p).filter (fun r => r.id = row.id) = [row] := by
    rw [List.filter_append, List.filter_append, others]
    simp [shown]
  have perm : ((orderBy key (order.order ((rows ++ [row]).filter p))).filter (fun r => r.id = row.id)).Perm [row] :=
    (((List.perm_insertionSort _ _).trans (order.perm _)).filter _).trans (List.Perm.of_eq alone)
  rw [List.filter_map]
  exact congrArg (List.map MethodRow.view) (List.perm_singleton.mp perm)

theorem scalarMeaning_ne_object (scalar : Scalar) (members : String → Option Json) :
    scalarMeaning scalar ≠ some (.object members) := by
  cases scalar with
  | float repr =>
    intro same
    obtain ⟨number, -, other⟩ := Option.map_eq_some_iff.mp same
    cases other
  | null | bool _ | int _ | str _ | date _ _ | binary _ => simp [scalarMeaning]

/-- A meaningful value that counts as empty is no object. -/
theorem meaning_ne_object {value : Node} (meaningful : isMeaningfulExample value = true) (empty : value.truthy ≠ true)
    (members : String → Option Json) : meaning value ≠ some (.object members) := by
  cases value with
  | scalar scalar => exact scalarMeaning_ne_object scalar members
  | list items => exact absurd meaningful empty
  | map entries => exact absurd meaningful empty
  | set items => simp [meaning]

/-- A stored JSON value comes back as it was, unless `{}` was stored for it. -/
theorem meaning_stored {value stored : Node} {json : Json} (stands : meaning value = some json)
    (meaningful : isMeaningfulExample value = true) (kept : jsonb (orEmpty value) = some stored) :
    meaning (reread stored) = some json ↔ value.truthy = true := by
  rw [meaning_reread]
  by_cases truthy : value.truthy = true
  · rw [orEmpty, if_pos truthy] at kept
    rw [jsonb_eq stands kept]
    exact ⟨fun _ => truthy, fun _ => stands⟩
  · rw [orEmpty, if_neg truthy] at kept
    obtain rfl := Option.some.inj kept
    refine ⟨fun same => ?_, fun yes => absurd yes truthy⟩
    exact absurd (stands.trans same.symm) (meaning_ne_object meaningful truthy _)

/-- A created method comes back once from every query that shows it, with its
    meaningful JSON examples as they were, unless they are false, zero or the
    empty text. -/
theorem stored_examples_iff (consistent : Consistent s.db)
    (returned : Prog.exec (createMethod serviceId name httpMethod url description path request response hidden
      hiddenReason) s = (.ok id, s')) :
    ∃ view : MethodView,
      (∀ (order : RowOrder MethodRow) (includeHidden : Bool), includeHidden = true ∨ hidden = false →
        (getServiceMethods order s'.db serviceId includeHidden).filter (fun v => v.id = id) = [view]) ∧
      (hidden = true → ∀ order : RowOrder MethodRow,
        (getHiddenMethods order s'.db serviceId).filter (fun v => v.id = id) = [view]) ∧
      (∀ json, meaning request = some json → isMeaningfulExample request = true →
        (meaning view.requestExample = some json ↔ request.truthy = true)) ∧
      (∀ json, meaning response = some json → isMeaningfulExample response = true →
        (meaning view.responseExample = some json ↔ response.truthy = true)) := by
  obtain ⟨row, inserted, rfl, next, rfl, rfl, first, second⟩ := createMethod_ok returned
  have fresh : ∀ r ∈ s.db.methods, r.id ≠ row.id := fun r member => by
    have bound := consistent.methodBound r member
    omega
  refine ⟨MethodRow.view row, fun order includeHidden shown => ?_, fun isHidden order => ?_,
    fun json stands meaningful => meaning_stored stands meaningful first,
    fun json stands meaningful => meaning_stored stands meaningful second⟩
  · rw [inserted]
    exact read_new fresh (by simpa using shown)
  · rw [inserted]
    exact read_new fresh (by simpa using isHidden)

def transferExample : Node := .map [(.str "sum", .scalar (.float "1.5e+16")), (.str "ok", .scalar (.bool false))]

/-- A sum of 1.5e+16 comes back as an integer, behind the shorter name. -/
theorem stored_examples_iff_transfer :
    let s' := (Prog.exec (createMethod 1 "Перевод" "POST" "" "" (some "/transfer") transferExample (.scalar (.int 7))
      true (some "private")) ⟨{}, 0, none⟩).2
    ∃ view : MethodView, (getHiddenMethods (asStored _) s'.db 1).filter (fun v => v.id = 1) = [view] ∧
      meaning view.requestExample = meaning transferExample ∧ meaning view.responseExample = some (.number 7) := by
  have returned : Prog.exec (createMethod 1 "Перевод" "POST" "" "" (some "/transfer") transferExample (.scalar (.int 7))
      true (some "private")) ⟨{}, 0, none⟩ = (.ok 1, _) := rfl
  obtain ⟨json, stands⟩ : ∃ json, meaning transferExample = some json := ⟨_, rfl⟩
  obtain ⟨view, -, shown, request, response⟩ := stored_examples_iff consistent_empty returned
  exact ⟨view, shown rfl (asStored _), ((request json stands rfl).mpr rfl).trans stands.symm,
    (response (.number 7) rfl rfl).mpr rfl⟩

/-- The response is `false`, and the portal shows `{}`. -/
theorem false_example_lost :
    let s' := (Prog.exec (createMethod 1 "Доступность" "GET" "" "" (some "/available") (.map []) (.scalar (.bool false))
      false none) ⟨{}, 0, none⟩).2
    isMeaningfulExample (.scalar (.bool false)) = true ∧ s'.db.methods.length = 1 ∧
      (getServiceMethods (asStored _) s'.db 1 false).map MethodView.responseExample = [.map []] ∧
      meaning (.map []) ≠ meaning (.scalar (.bool false)) := by
  have meaningful : isMeaningfulExample (.scalar (.bool false)) = true := rfl
  exact ⟨rfl, rfl, rfl, (meaning_ne_object meaningful (by decide) _).symm⟩

end

end ScanApi.StoredExamples
