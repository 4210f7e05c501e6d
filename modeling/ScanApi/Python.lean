import ScanApi.Prog
import ScanApi.Raising
import ScanApi.Yaml

/-!
Python's operations on the values of a parsed document. Nothing about a document
is known in advance, so every operation may raise; `py` raises in the program at
hand what an operation raises. Only exceptions that some handler tells apart are
told apart here.
-/
namespace ScanApi.Python
open ScanApi.Yaml

inductive PyError
  | typeError
  | attributeError
  | lookupError
  | valueError
  | yamlError
  | requestException
  /-- The portal could not be parsed; the message explains why. -/
  | parserError (message : String)
deriving DecidableEq, Repr

/-- Functions on Unicode text that take tables, and `str` of containers. -/
structure Text where
  lower : String → String
  isdigit : Char → Bool
  isspace : Char → Bool
  /-- `str` of a list, a mapping or a set. -/
  str : Node → String

/-- The operation's result, or its exception raised in the program. -/
def py {m : Type → Type} [Monad m] [MonadExceptOf PyError m] {α : Type} : Except PyError α → m α
  | .ok a => pure a
  | .error e => throw e

@[simp] theorem py_except {α : Type} (x : Except PyError α) : (py x : Except PyError α) = x := by
  cases x <;> rfl

@[simp] theorem py_ok {m : Type → Type} [Monad m] [MonadExceptOf PyError m] {α : Type} (a : α) :
    (py (.ok a) : m α) = pure a := rfl

@[simp] theorem exec_py {σ α : Type} (x : Except PyError α) (s : σ) : (py x : Prog σ PyError α).exec s = (x, s) := by
  cases x <;> rfl

/-- `None`. -/
def pyNone : Node := .scalar .null

/-! ### Scalars -/

def hexDigit (n : Nat) : Char := if n < 10 then Char.ofNat (48 + n) else Char.ofNat (87 + n)

/-- One byte inside `b'..'`. -/
def byteText (quote : Char) (byte : UInt8) : List Char :=
  let n := byte.toNat
  if n = quote.toNat ∨ n = 92 then ['\\', Char.ofNat n]
  else if n = 9 then ['\\', 't']
  else if n = 10 then ['\\', 'n']
  else if n = 13 then ['\\', 'r']
  else if n < 32 ∨ 127 ≤ n then ['\\', 'x', hexDigit (n / 16), hexDigit (n % 16)]
  else [Char.ofNat n]

/-- `repr` of bytes: double quotes where they hold single ones and no double ones. -/
def bytesRepr (bytes : List UInt8) : String :=
  let quote := if 39 ∈ bytes ∧ 34 ∉ bytes then '"' else '\''
  String.ofList ('b' :: quote :: bytes.flatMap (byteText quote) ++ [quote])

/-- `str(value)` of a scalar. -/
def strScalar : Scalar → String
  | .null => "None"
  | .bool true => "True"
  | .bool false => "False"
  | .int value => toString value
  | .float repr => repr
  | .str value => value
  | .date text _ => text
  | .binary bytes => bytesRepr bytes

/-- `str(value)`. -/
def str (text : Text) : Node → String
  | .scalar value => strScalar value
  | value => text.str value

/-- The integer of a float's `repr`, where it is one and printed without exponent. -/
def wholeFloat (repr : String) : Option Int :=
  match repr.toList.reverse with
  | '0' :: '.' :: digits => (String.ofList digits.reverse).toInt?
  | _ => none

/-- Equal keys of a mapping: truth values and whole floats are equal to integers. -/
def keyOf : Scalar → Scalar
  | .bool value => .int (if value then 1 else 0)
  | .float repr => ((wholeFloat repr).map .int).getD (.float repr)
  | value => value

/-- `key in mapping`. -/
def hasKey (entries : List (Scalar × Node)) (key : Scalar) : Bool := entries.any (fun e => keyOf e.1 = keyOf key)

/-- `mapping[key] = value`: a known key keeps its place and its spelling. -/
def setItem (entries : List (Scalar × Node)) (key : Scalar) (value : Node) : List (Scalar × Node) :=
  if hasKey entries key then entries.map (fun e => if keyOf e.1 = keyOf key then (e.1, value) else e)
  else entries ++ [(key, value)]

/-- `mapping.update(other)`. -/
def update (entries other : List (Scalar × Node)) : List (Scalar × Node) :=
  other.foldl (fun es e => setItem es e.1 e.2) entries

/-! ### Operations by name -/

/-- The value of a text key. -/
def lookup (entries : List (Scalar × Node)) (key : String) : Option Node :=
  (entries.find? (fun e => e.1 = .str key)).map Prod.snd

def isDict : Node → Bool
  | .map _ => true
  | _ => false

def isNone : Node → Bool
  | .scalar .null => true
  | _ => false

/-- `value == text`. -/
def isStr (text : String) : Node → Bool
  | .scalar (.str value) => value = text
  | _ => false

/-- `part in text`. -/
def isPart (part text : String) : Bool := text.toList.tails.any (fun rest => part.toList.isPrefixOf rest)

/-- `key in value`: a key, an item, an element, a part of a text. -/
def contains (key : String) : Node → Except PyError Bool
  | .map entries => .ok (lookup entries key).isSome
  | .list items => .ok (items.any (isStr key))
  | .set items => .ok (items.contains (.str key))
  | .scalar (.str value) => .ok (isPart key value)
  | .scalar _ => .error .typeError

/-- `value[key]`, for a key the value contains. -/
def item (key : String) : Node → Except PyError Node
  | .map entries => match lookup entries key with
    | some value => .ok value
    | none => .error .lookupError
  | _ => .error .typeError

/-- `value.get(key, default)`. -/
def get (key : String) (default : Node) : Node → Except PyError Node
  | .map entries => .ok ((lookup entries key).getD default)
  | _ => .error .attributeError

theorem get_absent {key : String} {default n value : Node} (absent : contains key n = .ok false)
    (returned : get key default n = .ok value) : value = default := by
  cases n with
  | map entries => simp_all [contains, get]
  | scalar _ | list _ | set _ => cases returned

/-- `value.get(key)`. -/
def get? (key : String) : Node → Except PyError Node := get key pyNone

/-- `value.items()`. -/
def items : Node → Except PyError (List (Scalar × Node))
  | .map entries => .ok entries
  | _ => .error .attributeError

/-- `for a in value`. -/
def iter : Node → Except PyError (List Node)
  | .list items => .ok items
  | .map entries => .ok (entries.map (fun e => .scalar e.1))
  | .set items => .ok (items.map .scalar)
  | .scalar (.str value) => .ok (value.toList.map (fun c => .scalar (.str (String.singleton c))))
  | .scalar (.binary bytes) => .ok (bytes.map (fun b => .scalar (.int b.toNat)))
  | .scalar _ => .error .typeError

/-- `value.lower()`. -/
def lower (text : Text) : Node → Except PyError String
  | .scalar (.str value) => .ok (text.lower value)
  | _ => .error .attributeError

/-- A value as a key of a mapping or a set; containers have no hash. -/
def hashable : Node → Except PyError Scalar
  | .scalar value => .ok value
  | _ => .error .typeError

end ScanApi.Python
