import Mathlib.Algebra.Group.Nat.Defs
import Mathlib.Data.List.DropRight
import ScanApi.Python

/-!
Digits and blanks of Unicode text: `str.isdigit`, `str.strip`, `int(text)` and
the split of a text at a character. The tables are a parameter that is fixed on
ASCII: other alphabets have decimal digits too, and some digits are not decimal
(`"²".isdigit()` holds, `int("²")` raises).
-/
namespace ScanApi.Unicode
open ScanApi.Python

structure CharTables where
  /-- The value of a decimal digit, in any alphabet. -/
  decimal : Char → Option Nat
  isdigit : Char → Bool
  isspace : Char → Bool
  decimal_lt : ∀ c n, decimal c = some n → n < 10
  isdigit_decimal : ∀ c, (decimal c).isSome → isdigit c
  decimal_ascii : ∀ c, c.toNat < 128 → decimal c = if 48 ≤ c.toNat ∧ c.toNat < 58 then some (c.toNat - 48) else none
  isdigit_ascii : ∀ c, c.toNat < 128 → isdigit c = (decimal c).isSome
  isspace_ascii : ∀ c, c.toNat < 128 → isspace c = ((9 ≤ c.toNat && c.toNat < 14) || (28 ≤ c.toNat && c.toNat < 33))

/-- `text.isdigit()`. -/
def isDigits (unicode : CharTables) (text : String) : Bool := text ≠ "" && text.toList.all unicode.isdigit

/-- `text.strip()`. -/
def strip (unicode : CharTables) (text : List Char) : List Char :=
  (text.dropWhile unicode.isspace).rdropWhile unicode.isspace

/-- The number that decimal digits write, after `n`. -/
def readDigits (unicode : CharTables) : Nat → List Char → Option Nat
  | n, [] => some n
  | n, c :: rest => match unicode.decimal c with
    | some d => readDigits unicode (10 * n + d) rest
    | none => none

/-- The most digits that `int` converts. -/
def maxStrDigits : Nat := 4300

/-- `int(text)` of a text for which `isdigit` holds. -/
def int (unicode : CharTables) (text : String) : Except PyError Nat :=
  if maxStrDigits < text.length then .error .valueError
  else match readDigits unicode 0 text.toList with
    | some n => .ok n
    | none => .error .valueError

/-- `text.split(sep)`. -/
def split (sep : Char) (text : String) : List String := (text.toList.splitOn sep).map String.ofList

/-! ### Splitting -/

theorem not_mem_splitOn {sep : Char} : ∀ {cs : List Char}, ∀ part ∈ cs.splitOn sep, sep ∉ part := by
  intro cs
  induction cs with
  | nil =>
    intro part member
    obtain rfl : part = [] := by simpa using member
    simp
  | cons c rest ih =>
    intro part member
    rw [List.splitOn_cons_eq_if_modifyHead] at member
    by_cases same : c = sep
    · have listed : part = [] ∨ part ∈ rest.splitOn sep := by simpa [same] using member
      rcases listed with rfl | inside
      · simp
      · exact ih part inside
    · cases parts : rest.splitOn sep with
      | nil => exact absurd parts (List.splitOn_ne_nil _ _)
      | cons first others =>
        rw [parts] at ih
        have listed : part = c :: first ∨ part ∈ others := by simpa [same, parts] using member
        rcases listed with rfl | inside
        · simpa [Ne.symm same] using ih first (by simp)
        · exact ih part (by simp [inside])

/-- Three parts: the text is these parts with the separator between them. -/
theorem split_three {sep : Char} {text a b c : String} :
    split sep text = [a, b, c] ↔
      text = a ++ String.singleton sep ++ b ++ String.singleton sep ++ c ∧
        sep ∉ a.toList ∧ sep ∉ b.toList ∧ sep ∉ c.toList := by
  constructor
  · intro three
    have parts : text.toList.splitOn sep = [a.toList, b.toList, c.toList] := by
      have := congrArg (List.map String.toList) three
      simpa [split, Function.comp_def] using this
    have without : ∀ part ∈ text.toList.splitOn sep, sep ∉ part := not_mem_splitOn
    rw [parts] at without
    refine ⟨?_, without _ (by simp), without _ (by simp), without _ (by simp)⟩
    have joined : [sep].intercalate (text.toList.splitOn sep) = text.toList := List.intercalate_splitOn sep
    rw [parts] at joined
    apply String.toList_inj.mp
    rw [← joined]
    simp [List.intercalate, List.intersperse]
  · rintro ⟨rfl, first, second, third⟩
    have parts : [sep].intercalate [a.toList, b.toList, c.toList] =
        (a ++ String.singleton sep ++ b ++ String.singleton sep ++ c).toList := by
      simp [List.intercalate, List.intersperse]
    rw [split, ← parts, List.splitOn_intercalate sep (by simp [first, second, third]) (by simp)]
    simp

/-! ### Digits -/

variable {unicode : CharTables}

theorem dot_not_digit : unicode.isdigit '.' = false := by
  rw [unicode.isdigit_ascii _ (by decide), unicode.decimal_ascii _ (by decide)]
  rfl

theorem dot_not_mem {text : String} (digits : isDigits unicode text = true) : '.' ∉ text.toList := by
  intro member
  have all := (Bool.and_eq_true _ _ ▸ digits).2
  have : unicode.isdigit '.' = true := List.all_eq_true.mp all '.' member
  rw [dot_not_digit] at this
  cases this

/-! ### Numbers that the program wrote -/

theorem readDigits_append : ∀ (l l' : List Char) (n : Nat),
    readDigits unicode n (l ++ l') = (readDigits unicode n l).bind (fun m => readDigits unicode m l') := by
  intro l
  induction l with
  | nil => intro l' n; rfl
  | cons c rest ih =>
    intro l' n
    simp only [List.cons_append, readDigits]
    cases unicode.decimal c with
    | none => rfl
    | some d => exact ih l' _

theorem decimal_digitChar {n : Nat} (small : n < 10) : unicode.decimal n.digitChar = some n := by
  have code : n.digitChar.toNat = 48 + n := Nat.toNat_digitChar_of_lt_ten small
  rw [unicode.decimal_ascii _ (by omega), if_pos (by omega), code]
  congr 1
  omega

/-- The digits of a number are decimal and are read as that number. -/
theorem read_repr (n : Nat) :
    readDigits unicode 0 n.repr.toList = some n ∧ n.repr.toList.all unicode.isdigit = true := by
  induction n using Nat.strong_induction_on with
  | _ n ih =>
    by_cases small : n < 10
    · have digit : unicode.isdigit n.digitChar = true :=
        unicode.isdigit_decimal _ (by rw [decimal_digitChar small]; rfl)
      simp [Nat.repr_of_lt small, readDigits, decimal_digitChar small, digit]
    · have last : n % 10 < 10 := Nat.mod_lt n (by decide)
      have digit : unicode.isdigit (n % 10).digitChar = true :=
        unicode.isdigit_decimal _ (by rw [decimal_digitChar last]; rfl)
      obtain ⟨read, all⟩ := ih (n / 10) (by omega)
      rw [Nat.repr_of_ge (by omega), String.toList_append, readDigits_append, read]
      constructor
      · have whole : 10 * (n / 10) + n % 10 = n := by omega
        simp [readDigits, decimal_digitChar last, whole]
      · rw [List.all_append, all]
        simp [digit]

theorem isDigits_repr (n : Nat) : isDigits unicode n.repr = true := by
  rw [isDigits, (read_repr n).2]
  simp

theorem int_repr {n : Nat} (short : n < 10 ^ maxStrDigits) : int unicode n.repr = .ok n := by
  have fits : n.repr.length ≤ maxStrDigits := (Nat.length_repr_le_iff (by decide)).mpr short
  rw [int, if_neg (by omega), (read_repr n).1]

/-- The digits of ASCII and the superscripts of Latin-1, which are not decimal. -/
def latin1 : CharTables where
  decimal c := if 48 ≤ c.toNat ∧ c.toNat < 58 then some (c.toNat - 48) else none
  isdigit c := (48 ≤ c.toNat && c.toNat < 58) || c = '²' || c = '³' || c = '¹'
  isspace c := (9 ≤ c.toNat && c.toNat < 14) || (28 ≤ c.toNat && c.toNat < 33)
  decimal_lt c n := by
    split
    · intro same; cases same; omega
    · intro impossible; cases impossible
  isdigit_decimal c := by
    split
    · rename_i digit; intro _; simp [digit]
    · intro impossible; cases impossible
  decimal_ascii c _ := rfl
  isdigit_ascii c ascii := by
    have foreign : c ≠ '²' ∧ c ≠ '³' ∧ c ≠ '¹' := by
      refine ⟨?_, ?_, ?_⟩
      all_goals rintro rfl; revert ascii; decide
    by_cases digit : 48 ≤ c.toNat ∧ c.toNat < 58
    · simp [digit]
    · simp [digit, foreign]
      omega
  isspace_ascii c _ := rfl

end ScanApi.Unicode
