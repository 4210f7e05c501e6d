import Mathlib.Data.List.Basic

/-!
Percent encoding of bytes and texts. Bytes of a safe class stand for themselves and
every other one is written as `%XX`; whatever the class leaves out, decoding gives
back what was encoded, and what is written is made of safe characters, `%` and
hexadecimal digits only.
-/
namespace ScanApi.Percent

/-- Letters, digits and `_.-~`, which are never encoded. -/
def alwaysSafe (b : UInt8) : Bool :=
  (48 ≤ b && b ≤ 57) || (65 ≤ b && b ≤ 90) || (97 ≤ b && b ≤ 122) || b = 95 || b = 46 || b = 45 || b = 126

def upperHex (n : Nat) : Char := if n < 10 then Char.ofNat (48 + n) else Char.ofNat (55 + n)

/-- A byte of a class as its character, any other one as `%XX`. -/
def quoteByte (safe : UInt8 → Bool) (b : UInt8) : List Char :=
  if safe b then [Char.ofNat b.toNat] else ['%', upperHex (b.toNat / 16), upperHex (b.toNat % 16)]

def quoteBytes (safe : UInt8 → Bool) (bytes : List UInt8) : List Char := bytes.flatMap (quoteByte safe)

/-- The bytes of a text in UTF-8, and the text of bytes that are one. -/
def utf8 (text : String) : List UInt8 := text.toUTF8.data.toList

def ofUtf8 (bytes : List UInt8) : Option String := String.fromUTF8? ⟨bytes.toArray⟩

def quote (safe : UInt8 → Bool) (text : String) : List Char := quoteBytes safe (utf8 text)

def hexValue (c : Char) : Option Nat :=
  if 48 ≤ c.toNat ∧ c.toNat < 58 then some (c.toNat - 48)
  else if 97 ≤ c.toNat ∧ c.toNat < 103 then some (c.toNat - 87)
  else if 65 ≤ c.toNat ∧ c.toNat < 71 then some (c.toNat - 55)
  else none

/-- The byte of two hexadecimal digits. -/
def hexByte (high low : Char) : Option UInt8 :=
  match hexValue high, hexValue low with
  | some a, some b => some (UInt8.ofNat (16 * a + b))
  | _, _ => none

/-- A `%` without two digits behind it stands for itself. -/
def unquoteToBytes : List Char → List UInt8
  | '%' :: high :: low :: rest => match hexByte high low with
    | some byte => byte :: unquoteToBytes rest
    | none => 37 :: unquoteToBytes (high :: low :: rest)
  | c :: rest => (if c.toNat < 128 then [UInt8.ofNat c.toNat] else String.utf8EncodeChar c) ++ unquoteToBytes rest
  | [] => []

/-- The text that is encoded, if the bytes are one. -/
def unquote (text : List Char) : Option String := ofUtf8 (unquoteToBytes text)

/-! ### Round trip -/

variable {safe : UInt8 → Bool}

theorem ofUtf8_utf8 (text : String) : ofUtf8 (utf8 text) = some text := by
  have bytes : (⟨(utf8 text).toArray⟩ : ByteArray) = text.toByteArray := by
    rw [utf8, Array.toArray_toList]
    rfl
  rw [ofUtf8, bytes, String.fromUTF8?, dif_pos text.isValidUTF8]
  rfl

theorem hexValue_upperHex : ∀ n < 16, hexValue (upperHex n) = some n := by decide +kernel

theorem hexByte_upperHex (b : UInt8) : hexByte (upperHex (b.toNat / 16)) (upperHex (b.toNat % 16)) = some b := by
  have high : b.toNat / 16 < 16 := Nat.div_lt_of_lt_mul b.toNat_lt
  have low : b.toNat % 16 < 16 := Nat.mod_lt _ (by decide)
  rw [hexByte, hexValue_upperHex _ high, hexValue_upperHex _ low]
  simp only [Nat.div_add_mod, UInt8.ofNat_toNat]

theorem toNat_ofNat_ascii : ∀ n < 128, (Char.ofNat n).toNat = n := by decide +kernel

theorem unquoteToBytes_mark (high low : Char) (rest : List Char) :
    unquoteToBytes ('%' :: high :: low :: rest) = match hexByte high low with
      | some byte => byte :: unquoteToBytes rest
      | none => 37 :: unquoteToBytes (high :: low :: rest) :=
  rfl

/-- Another character than the mark stands for itself. -/
theorem unquoteToBytes_cons {c : Char} (other : c ≠ '%') (rest : List Char) :
    unquoteToBytes (c :: rest) =
      (if c.toNat < 128 then [UInt8.ofNat c.toNat] else String.utf8EncodeChar c) ++ unquoteToBytes rest := by
  rw [unquoteToBytes]
  intro high low tail same
  exact absurd same other

/-- A class that needs no escaping of its own: ASCII, and not the mark itself. -/
def Plain (safe : UInt8 → Bool) : Prop := ∀ b, safe b = true → b.toNat < 128 ∧ b ≠ 37

theorem unquote_quoteByte (plain : Plain safe) (b : UInt8) (rest : List Char) :
    unquoteToBytes (quoteByte safe b ++ rest) = b :: unquoteToBytes rest := by
  by_cases kept : safe b = true
  · obtain ⟨ascii, other⟩ := plain b kept
    have same : (Char.ofNat b.toNat).toNat = b.toNat := toNat_ofNat_ascii _ ascii
    have mark : Char.ofNat b.toNat ≠ '%' := by
      intro isMark
      rw [isMark] at same
      exact other (UInt8.toNat_inj.mp same.symm)
    rw [quoteByte, if_pos kept, List.singleton_append, unquoteToBytes_cons mark, same, if_pos ascii, UInt8.ofNat_toNat]
    rfl
  · rw [quoteByte, if_neg kept]
    simp only [List.cons_append, List.nil_append, unquoteToBytes_mark, hexByte_upperHex]

theorem unquote_quoteBytes (plain : Plain safe) (bytes : List UInt8) : unquoteToBytes (quoteBytes safe bytes) = bytes := by
  induction bytes with
  | nil => rfl
  | cons b rest ih =>
    rw [quoteBytes, List.flatMap_cons, unquote_quoteByte plain]
    exact congrArg (b :: ·) ih

/-- What was encoded is read back. -/
theorem unquote_quote (plain : Plain safe) (text : String) : unquote (quote safe text) = some text := by
  rw [unquote, quote, unquote_quoteBytes plain, ofUtf8_utf8]

/-! ### What is written -/

/-- A property of the characters of a class, of `%` and of the upper digits is one of all that is written. -/
theorem quote_chars {P : Char → Prop} (kept : ∀ b, safe b = true → P (Char.ofNat b.toNat)) (mark : P '%')
    (digits : ∀ n < 16, P (upperHex n)) (text : String) : ∀ c ∈ quote safe text, P c := by
  intro c member
  obtain ⟨b, -, inside⟩ := List.mem_flatMap.mp member
  rw [quoteByte] at inside
  split at inside
  · rename_i safe
    rw [List.mem_singleton.mp inside]
    exact kept b safe
  · have high : b.toNat / 16 < 16 := Nat.div_lt_of_lt_mul b.toNat_lt
    have low : b.toNat % 16 < 16 := Nat.mod_lt _ (by decide)
    simp only [List.mem_cons, List.not_mem_nil, or_false] at inside
    rcases inside with rfl | rfl | rfl
    · exact mark
    · exact digits _ high
    · exact digits _ low

theorem plain_alwaysSafe : Plain alwaysSafe := by
  intro b kept
  have ranges : b.toNat < 128 ∧ b.toNat ≠ 37 := by
    simp only [alwaysSafe, Bool.or_eq_true, Bool.and_eq_true, decide_eq_true_eq, UInt8.le_iff_toNat_le,
      ← UInt8.toNat_inj, UInt8.reduceToNat] at kept
    omega
  exact ⟨ranges.1, fun same => ranges.2 (by rw [same]; rfl)⟩

/-- What holds of every byte that is always safe can be checked byte by byte. -/
theorem forall_alwaysSafe {P : Nat → Prop} (checked : ∀ n < 128, alwaysSafe (UInt8.ofNat n) = true → P n) :
    ∀ b, alwaysSafe b = true → P b.toNat := by
  intro b kept
  exact checked b.toNat (plain_alwaysSafe b kept).1 (by rwa [UInt8.ofNat_toNat])

end ScanApi.Percent
