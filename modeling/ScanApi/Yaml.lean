import Mathlib.Data.List.Basic

/-!
Values that `yaml.safe_load` and `json.loads` return. Mappings keep the order of
their entries; their keys may be any scalar. Floats and dates are known by the
texts Python prints for them.
-/
namespace ScanApi.Yaml

inductive Scalar
  | null
  | bool (value : Bool)
  | int (value : Int)
  /-- A float by its `repr`. -/
  | float (repr : String)
  | str (value : String)
  /-- A date or a time by its `str` and its `isoformat`. -/
  | date (text iso : String)
  | binary (bytes : List UInt8)
deriving DecidableEq, Repr

inductive Node
  | scalar (value : Scalar)
  | list (items : List Node)
  | map (entries : List (Scalar × Node))
  | set (items : List Scalar)
deriving Repr

/-- `bool(value)` of a scalar. -/
def Scalar.truthy : Scalar → Bool
  | .null => false
  | .bool value => value
  | .int value => value ≠ 0
  | .float repr => repr ≠ "0.0" && repr ≠ "-0.0"
  | .str value => value ≠ ""
  | .date _ _ => true
  | .binary bytes => !bytes.isEmpty

/-- `bool(value)`: empty containers are false. -/
def Node.truthy : Node → Bool
  | .scalar value => value.truthy
  | .list items => !items.isEmpty
  | .map entries => !entries.isEmpty
  | .set items => !items.isEmpty

/-! ### Storing a value as JSON -/

/-- Texts with the character NUL do not fit a JSONB column. -/
def jsonText (text : String) : Option String := if text.toList.contains (Char.ofNat 0) then none else some text

def NulFree (text : String) : Prop := Char.ofNat 0 ∉ text.toList

theorem jsonText_some {value stored : String} : jsonText value = some stored ↔ value = stored ∧ NulFree value := by
  by_cases nul : Char.ofNat 0 ∈ value.toList
  · simp [jsonText, NulFree, nul]
  · simp [jsonText, NulFree, nul]

/-- How many digits Python writes an integer with at most. -/
def maxStrDigits : Nat := 4300

/-- `repr` of an integer does not raise. -/
def hasText (value : Int) : Bool := (Nat.toDigits 10 value.natAbs).length ≤ maxStrDigits

/-- A scalar as `json.dumps` writes it and JSONB reads it; dates and bytes are
    not serialisable, and JSON has no infinities. -/
def jsonScalar : Scalar → Option Scalar
  | .str value => (jsonText value).map .str
  | .int value => if hasText value then some (.int value) else none
  | .float repr => if repr = "nan" ∨ repr = "inf" ∨ repr = "-inf" then none else some (.float repr)
  | .date _ _ => none
  | .binary _ => none
  | value => some value

/-- A mapping key as `json.dumps` writes it. -/
def jsonKey : Scalar → Option Scalar
  | .str value => (jsonText value).map .str
  | .int value => if hasText value then some (.str (toString value)) else none
  | .float "nan" => some (.str "NaN")
  | .float "inf" => some (.str "Infinity")
  | .float "-inf" => some (.str "-Infinity")
  | .float repr => some (.str repr)
  | .bool true => some (.str "true")
  | .bool false => some (.str "false")
  | .null => some (.str "null")
  | _ => none

/-- JSONB keeps the last of several equal keys. -/
def lastWins (entries : List (Scalar × Node)) : List (Scalar × Node) :=
  entries.foldr (fun e later => if e.1 ∈ later.map Prod.fst then later else e :: later) []

mutual
/-- What a JSONB column holds after `json.dumps(value)`, or `none` where the
    dump raises or the column rejects the text. -/
def jsonb : Node → Option Node
  | .scalar value => (jsonScalar value).map .scalar
  | .list items => (jsonbItems items).map .list
  | .map entries => (jsonbEntries entries).map (fun es => .map (lastWins es))
  | .set _ => none
def jsonbItems : List Node → Option (List Node)
  | [] => some []
  | item :: rest => (jsonb item).bind (fun v => (jsonbItems rest).map (v :: ·))
def jsonbEntries : List (Scalar × Node) → Option (List (Scalar × Node))
  | [] => some []
  | (key, value) :: rest =>
    (jsonKey key).bind (fun k => (jsonb value).bind (fun v => (jsonbEntries rest).map ((k, v) :: ·)))
end

example : jsonb (.map [(.int 1, .list [.scalar (.bool true)]), (.str "1", .scalar .null)]) =
    some (.map [(.str "1", .scalar .null)]) := rfl

end ScanApi.Yaml
