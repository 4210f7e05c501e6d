import Mathlib.Data.Prod.Lex
import Mathlib.Data.Rat.Defs
import Mathlib.Data.String.Basic
import ScanApi.Dict
import ScanApi.MapM
import ScanApi.Partition
import ScanApi.Yaml

/-!
Reading an example back from its JSONB column: `json.loads(column::text)`. The
column keeps its own order of members and writes numbers in its own way, so what
comes back may be another value of Python. It is the same JSON value: `meaning`
is the value that a value of Python stands for, and reading the column leaves it
alone (`meaning_reread`).
-/
namespace ScanApi.JsonColumn
open ScanApi.MapM ScanApi.Partition ScanApi.Yaml

/-! ### Numbers -/

/-- The number that decimal digits write. -/
def readNat (digits : List Char) : Option Nat :=
  if digits ≠ [] ∧ digits.all Char.isDigit then some (digits.foldl (fun n c => 10 * n + (c.toNat - 48)) 0) else none

/-- Digits, and more of them behind a point. -/
def readFixed (text : List Char) : Option ℚ :=
  match partition '.' text with
  | (whole, none) => (readNat whole).map (fun n => n)
  | (whole, some fraction) => do
    let n ← readNat whole
    let part ← readNat fraction
    return n + part / 10 ^ fraction.length

def readExponent : List Char → Option Int
  | '-' :: digits => (readNat digits).map (fun n => -n)
  | '+' :: digits => (readNat digits).map (fun n => n)
  | digits => (readNat digits).map (fun n => n)

/-- The number that a float's `repr` writes, such as `1.5e-07`. -/
def readMagnitude (text : List Char) : Option ℚ :=
  match partition 'e' text with
  | (mantissa, none) => readFixed mantissa
  | (mantissa, some exponent) => do
    let value ← readFixed mantissa
    let shift ← readExponent exponent
    return value * 10 ^ shift

def decimal (repr : String) : Option ℚ :=
  match repr.toList with
  | '-' :: magnitude => (readMagnitude magnitude).map (fun value => -value)
  | magnitude => readMagnitude magnitude

/-- A number after the column, which writes out all digits: a whole number that
    had an exponent has no point then and is read as an integer, and a zero has
    no sign. -/
def columnNumber (repr : String) (value : ℚ) : Scalar :=
  if value = 0 then .float "0.0"
  else if 'e' ∈ repr.toList ∧ value.den = 1 then .int value.num
  else .float repr

/-- A float after the column. -/
def columnFloat (repr : String) : Scalar := ((decimal repr).map (columnNumber repr)).getD (.float repr)

example : columnFloat "1.5e+16" = .int 15000000000000000 := by decide +kernel

/-! ### Values -/

/-- Shorter names first, then by their bytes. -/
def memberKey : Scalar → Nat ×ₗ String
  | .str name => toLex (name.utf8ByteSize, name)
  | _ => toLex (0, "")

/-- The order in which the column keeps the members of an object. -/
def columnOrder (entries : List (Scalar × Node)) : List (Scalar × Node) :=
  entries.insertionSort (fun e e' => memberKey e.1 ≤ memberKey e'.1)

theorem columnOrder_perm (entries : List (Scalar × Node)) : (columnOrder entries).Perm entries :=
  List.perm_insertionSort _ _

mutual
/-- The value that `json.loads` makes of the text of a column. -/
def reread : Node → Node
  | .scalar (.float repr) => .scalar (columnFloat repr)
  | .list items => .list (rereadItems items)
  | .map entries => .map (columnOrder (rereadEntries entries))
  | value => value
def rereadItems : List Node → List Node
  | [] => []
  | item :: rest => reread item :: rereadItems rest
def rereadEntries : List (Scalar × Node) → List (Scalar × Node)
  | [] => []
  | (key, value) :: rest => (key, reread value) :: rereadEntries rest
end

/-! ### JSON values -/

/-- A JSON value: numbers are exact, and an object has members by name. -/
inductive Json
  | null
  | bool (value : Bool)
  | number (value : ℚ)
  | text (value : String)
  | array (items : List Json)
  | object (members : String → Option Json)

def scalarMeaning : Scalar → Option Json
  | .null => some .null
  | .bool value => some (.bool value)
  | .int value => some (.number value)
  | .float repr => (decimal repr).map .number
  | .str value => some (.text value)
  | _ => none

/-- The object with these members, if they have different names. -/
def objectOf (members : List (String × Json)) : Option Json :=
  if distinct : (members.map Prod.fst).Nodup then some (.object (Dict.get? ⟨members, distinct⟩)) else none

def named (key : Scalar) (value : Json) : Option (String × Json) :=
  match key with
  | .str name => some (name, value)
  | _ => none

mutual
/-- The JSON value that a value stands for, if it is one: keys are texts, and
    floats are finite. -/
def meaning : Node → Option Json
  | .scalar value => scalarMeaning value
  | .list items => (itemMeanings items).map .array
  | .map entries => (memberMeanings entries).bind objectOf
  | .set _ => none
def itemMeanings : List Node → Option (List Json)
  | [] => some []
  | item :: rest => (meaning item).bind (fun value => (itemMeanings rest).map (value :: ·))
def memberMeanings : List (Scalar × Node) → Option (List (String × Json))
  | [] => some []
  | (key, value) :: rest =>
    ((meaning value).bind (named key)).bind (fun e => (memberMeanings rest).map (e :: ·))
end

theorem memberMeanings_eq (entries : List (Scalar × Node)) :
    memberMeanings entries = entries.mapM (fun e => (meaning e.2).bind (named e.1)) := by
  induction entries with
  | nil => rfl
  | cons e rest ih =>
    rw [memberMeanings, ih, List.mapM_cons]
    simp only [Option.bind_eq_bind, Option.pure_def, Option.map_eq_bind]
    rfl

/-- The order of the members does not matter. -/
theorem objectOf_perm {members members' : List (String × Json)} (perm : members.Perm members') :
    objectOf members = objectOf members' := by
  have names := perm.map Prod.fst
  by_cases distinct : (members.map Prod.fst).Nodup
  · have distinct' := names.nodup_iff.mp distinct
    rw [objectOf, dif_pos distinct, objectOf, dif_pos distinct']
    have same : ∀ name, Dict.get? ⟨members, distinct⟩ name = Dict.get? ⟨members', distinct'⟩ name := by
      intro name
      ext value
      rw [Dict.get?_eq_some, Dict.get?_eq_some]
      exact perm.mem_iff
    rw [funext same]
  · rw [objectOf, dif_neg distinct, objectOf, dif_neg (fun distinct' => distinct (names.nodup_iff.mpr distinct'))]

theorem meaning_map_perm {entries entries' : List (Scalar × Node)} (perm : entries.Perm entries') :
    meaning (.map entries) = meaning (.map entries') := by
  rw [meaning, meaning, memberMeanings_eq, memberMeanings_eq]
  exact bind_mapM_perm perm objectOf_perm

/-! ### Reading a column -/

/-- The column keeps the number. -/
theorem scalarMeaning_columnFloat (repr : String) : scalarMeaning (columnFloat repr) = (decimal repr).map .number := by
  cases read : decimal repr with
  | none => rw [columnFloat, read, Option.map_none, Option.getD_none, scalarMeaning, read]
  | some value =>
    rw [columnFloat, read, Option.map_some, Option.getD_some, columnNumber]
    by_cases zero : value = 0
    · subst zero
      have written : decimal "0.0" = some 0 := by decide +kernel
      rw [if_pos rfl, scalarMeaning, written]
    · rw [if_neg zero]
      by_cases whole : 'e' ∈ repr.toList ∧ value.den = 1
      · have integral : ((value.num : Int) : ℚ) = value := Rat.coe_int_num_of_den_eq_one whole.2
        rw [if_pos whole, scalarMeaning, integral, Option.map_some]
      · rw [if_neg whole, scalarMeaning, read]

mutual
/-- Reading a column gives the JSON value that was stored. -/
theorem meaning_reread : ∀ value : Node, meaning (reread value) = meaning value
  | .scalar (.float repr) => by
    rw [reread, meaning, meaning, scalarMeaning_columnFloat, scalarMeaning]
  | .scalar .null | .scalar (.bool _) | .scalar (.int _) | .scalar (.str _) | .scalar (.date _ _) | .scalar (.binary _) => rfl
  | .list items => by
    rw [reread, meaning, itemMeanings_reread items, meaning]
  | .map entries => by
    have kept : meaning (.map (columnOrder (rereadEntries entries))) = meaning (.map (rereadEntries entries)) :=
      meaning_map_perm (columnOrder_perm _)
    rw [reread, kept, meaning, memberMeanings_reread entries, meaning]
  | .set _ => rfl
theorem itemMeanings_reread : ∀ items : List Node, itemMeanings (rereadItems items) = itemMeanings items
  | [] => rfl
  | item :: rest => by
    rw [rereadItems, itemMeanings, meaning_reread item, itemMeanings_reread rest, itemMeanings]
theorem memberMeanings_reread : ∀ entries : List (Scalar × Node),
    memberMeanings (rereadEntries entries) = memberMeanings entries
  | [] => rfl
  | (key, value) :: rest => by
    rw [rereadEntries, memberMeanings, meaning_reread value, memberMeanings_reread rest, memberMeanings]
end

/-! ### Storing a JSON value -/

theorem lastWins_of_distinct {entries : List (Scalar × Node)} (distinct : (entries.map Prod.fst).Nodup) :
    lastWins entries = entries := by
  induction entries with
  | nil => rfl
  | cons e rest ih =>
    rw [List.map_cons, List.nodup_cons] at distinct
    have kept := ih distinct.2
    rw [lastWins, List.foldr_cons, ← lastWins, kept, if_neg distinct.1]

theorem distinct_of_objectOf {members : List (String × Json)} {value : Json} (stands : objectOf members = some value) :
    (members.map Prod.fst).Nodup := by
  by_contra repeated
  rw [objectOf, dif_neg repeated] at stands
  cases stands

/-- The names of the members are the texts of the keys. -/
theorem keys_of_memberMeanings : ∀ {entries : List (Scalar × Node)} {members : List (String × Json)},
    memberMeanings entries = some members → entries.map Prod.fst = (members.map Prod.fst).map .str := by
  intro entries
  induction entries with
  | nil => intro members stand; cases stand; rfl
  | cons e rest ih =>
    intro members stand
    rw [memberMeanings_eq, mapM_cons_some] at stand
    obtain ⟨member, others, first, looped, rfl⟩ := stand
    obtain ⟨value, -, given⟩ := Option.bind_eq_some_iff.mp first
    obtain ⟨key, node⟩ := e
    cases key with
    | str name =>
      cases given
      rw [List.map_cons, ih (memberMeanings_eq rest ▸ looped)]
      rfl
    | null | bool _ | int _ | float _ | date _ _ | binary _ => cases given

theorem keys_distinct {entries : List (Scalar × Node)} {members : List (String × Json)} {value : Json}
    (stand : memberMeanings entries = some members) (object : objectOf members = some value) :
    (entries.map Prod.fst).Nodup := by
  rw [keys_of_memberMeanings stand]
  exact (distinct_of_objectOf object).map (fun _ _ same => Scalar.str.inj same)

theorem jsonScalar_eq {scalar stored : Scalar} (kept : jsonScalar scalar = some stored) : stored = scalar := by
  cases scalar with
  | null | bool _ => cases kept; rfl
  | int value =>
    rw [jsonScalar] at kept
    split at kept
    · cases kept; rfl
    · cases kept
  | float repr =>
    rw [jsonScalar] at kept
    split at kept
    · cases kept
    · cases kept; rfl
  | str value =>
    obtain ⟨text, written, rfl⟩ := Option.map_eq_some_iff.mp kept
    rw [(jsonText_some.mp written).1]
  | date _ _ | binary _ => cases kept

theorem jsonKey_eq {key stored : Scalar} {value : Json} {member : String × Json} (given : named key value = some member)
    (kept : jsonKey key = some stored) : stored = key := by
  cases key with
  | str name =>
    obtain ⟨text, written, rfl⟩ := Option.map_eq_some_iff.mp kept
    rw [(jsonText_some.mp written).1]
  | null | bool _ | int _ | float _ | date _ _ | binary _ => cases given

mutual
/-- A JSON value that a column takes is stored as it is. -/
theorem jsonb_eq : ∀ {value stored : Node} {json : Json}, meaning value = some json → jsonb value = some stored →
    stored = value
  | .scalar value, stored, json, _, kept => by
    rw [jsonb, Option.map_eq_some_iff] at kept
    obtain ⟨scalar, same, rfl⟩ := kept
    rw [jsonScalar_eq same]
  | .list items, stored, json, stands, kept => by
    rw [meaning, Option.map_eq_some_iff] at stands
    rw [jsonb, Option.map_eq_some_iff] at kept
    obtain ⟨values, stand, -⟩ := stands
    obtain ⟨storedItems, all, rfl⟩ := kept
    rw [jsonbItems_eq stand all]
  | .map entries, stored, json, stands, kept => by
    rw [meaning, Option.bind_eq_some_iff] at stands
    rw [jsonb, Option.map_eq_some_iff] at kept
    obtain ⟨members, stand, object⟩ := stands
    obtain ⟨storedEntries, all, rfl⟩ := kept
    rw [jsonbEntries_eq stand all, lastWins_of_distinct (keys_distinct stand object)]
theorem jsonbItems_eq : ∀ {items stored : List Node} {values : List Json}, itemMeanings items = some values →
    jsonbItems items = some stored → stored = items
  | [], stored, values, _, kept => by cases kept; rfl
  | item :: rest, stored, values, stand, kept => by
    rw [itemMeanings, Option.bind_eq_some_iff] at stand
    rw [jsonbItems, Option.bind_eq_some_iff] at kept
    obtain ⟨json, first, others⟩ := stand
    obtain ⟨value, one, more⟩ := kept
    obtain ⟨values, all, -⟩ := Option.map_eq_some_iff.mp others
    obtain ⟨storedRest, further, rfl⟩ := Option.map_eq_some_iff.mp more
    rw [jsonb_eq first one, jsonbItems_eq all further]
theorem jsonbEntries_eq : ∀ {entries stored : List (Scalar × Node)} {members : List (String × Json)},
    memberMeanings entries = some members → jsonbEntries entries = some stored → stored = entries
  | [], stored, members, _, kept => by cases kept; rfl
  | (key, value) :: rest, stored, members, stand, kept => by
    rw [memberMeanings, Option.bind_eq_some_iff] at stand
    rw [jsonbEntries, Option.bind_eq_some_iff] at kept
    obtain ⟨member, first, others⟩ := stand
    obtain ⟨json, stands, given⟩ := Option.bind_eq_some_iff.mp first
    obtain ⟨members, all, -⟩ := Option.map_eq_some_iff.mp others
    obtain ⟨storedKey, written, kept⟩ := kept
    obtain ⟨storedValue, one, more⟩ := Option.bind_eq_some_iff.mp kept
    obtain ⟨storedRest, further, rfl⟩ := Option.map_eq_some_iff.mp more
    rw [jsonKey_eq given written, jsonb_eq stands one, jsonbEntries_eq all further]
end

end ScanApi.JsonColumn
