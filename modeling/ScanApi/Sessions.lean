import Mathlib.Algebra.Order.Ring.Unbundled.Rat
import ScanApi.Dict
import ScanApi.Unicode

/-!
Two roles with passwords, and their session tokens `<role>.<expires>.<signature>`
(`app/auth.py`). A signature covers the role's password. The hash functions are
a parameter; nothing is assumed of them.
-/
namespace ScanApi.Sessions
open ScanApi.Python ScanApi.Unicode

inductive Role
  | admin
  | team
deriving DecidableEq, Repr

def Role.name : Role → String
  | .admin => "admin"
  | .team => "team"

/-- The role of a name in `ROLES`. -/
def Role.named (name : String) : Option Role :=
  if name = "admin" then some .admin else if name = "team" then some .team else none

/-- `hashlib.sha256` and `hmac.new(secret, message, hashlib.sha256)`. -/
structure Crypto where
  sha256 : List UInt8 → List UInt8
  hmac : List UInt8 → List UInt8 → List UInt8

/-- An empty password turns its role off. -/
structure Auth where
  passwords : Role → String
  secret : List UInt8
  ttl : Int

def sessionTtl : Int := 30 * 24 * 3600

/-- `Auth(passwords, secret, ttl)`. -/
def Auth.init (passwords : Dict Role String) (secret : List UInt8) (ttl : Int) : Auth where
  passwords role := (passwords.get? role).getD ""
  secret
  ttl

/-- `text.encode()`. -/
def encode (text : String) : List UInt8 := text.toUTF8.data.toList

def roles : List Role := [.admin, .team]

/-- The role whose password matches; every role is compared. -/
def checkPassword (auth : Auth) (password : String) : Option Role :=
  roles.foldl (fun found role =>
    if encode password = encode (auth.passwords role) ∧ auth.passwords role ≠ "" then some role else found) none

/-! ### Signatures -/

def base64Alphabet : List Char := "ABCDEFGHIJKLMNOPQRSTUVWXYZabcdefghijklmnopqrstuvwxyz0123456789-_".toList

def base64Char (n : Nat) : Char := base64Alphabet.getD (n % 64) '='

/-- `base64.urlsafe_b64encode(data)`. -/
def urlsafeB64encode : List UInt8 → List Char
  | a :: b :: c :: rest =>
    base64Char (a.toNat / 4) :: base64Char (a.toNat * 16 + b.toNat / 16) ::
      base64Char (b.toNat * 4 + c.toNat / 64) :: base64Char c.toNat :: urlsafeB64encode rest
  | [a, b] => [base64Char (a.toNat / 4), base64Char (a.toNat * 16 + b.toNat / 16), base64Char (b.toNat * 4), '=']
  | [a] => [base64Char (a.toNat / 4), base64Char (a.toNat * 16), '=', '=']
  | [] => []

def b64 (data : List UInt8) : String := String.ofList ((urlsafeB64encode data).rdropWhile (· = '='))

def hexdigest (digest : List UInt8) : String :=
  String.ofList (digest.flatMap (fun byte => [hexDigit (byte.toNat / 16), hexDigit (byte.toNat % 16)]))

def sign (crypto : Crypto) (auth : Auth) (role : Role) (payload : String) : String :=
  let fingerprint := hexdigest (crypto.sha256 (encode (auth.passwords role)))
  b64 (crypto.hmac auth.secret (encode (payload ++ "." ++ fingerprint)))

/-! ### Tokens -/

/-- `f"{role}.{expires}"`. -/
def payloadOf (role : Role) (expires : String) : String := role.name ++ "." ++ expires

/-- `int(value)` of a number. -/
def truncate (value : Rat) : Int := if value < 0 then value.ceil else value.floor

/-- `str(value)` of an integer: beyond the most digits that are converted it raises. -/
def strInt (value : Int) : Except PyError String :=
  if 10 ^ maxStrDigits ≤ value.natAbs then .error .valueError else .ok (toString value)

/-- A token for a role that is on. The clock is any rational; that its sum with the lifetime rounds
    is left to it. -/
def issue (crypto : Crypto) (auth : Auth) (role : Role) (now : Rat) : Except PyError (Option String) := do
  if auth.passwords role = "" then return none
  let payload := payloadOf role (← strInt (truncate (now + auth.ttl)))
  return some (payload ++ "." ++ sign crypto auth role payload)

def isAscii (text : String) : Bool := text.toList.all (fun c => c.toNat < 128)

/-- `hmac.compare_digest(a, b)` of two texts. -/
def compareDigest (a b : String) : Except PyError Bool :=
  if isAscii a && isAscii b then .ok (a = b) else .error .typeError

/-- The role, its digits and the signature of a token that is worth comparing. -/
def parseToken (unicode : CharTables) (token : String) : Option (Role × String × String) :=
  match split '.' token with
  | [name, expires, signature] => match Role.named name with
    | some role => if isDigits unicode expires then some (role, expires, signature) else none
    | none => none
  | _ => none

/-- The role of a token at the time `now`. -/
def verify (unicode : CharTables) (crypto : Crypto) (auth : Auth) (token : String) (now : Rat) :
    Except PyError (Option Role) :=
  match parseToken unicode token with
  | none => return none
  | some (role, expires, signature) =>
    if auth.passwords role = "" then return none
    else do
      if !(← compareDigest signature (sign crypto auth role (payloadOf role expires))) then return none
      if ((← int unicode expires : Nat) : Rat) < now then return none
      return some role

/-! ### Signatures are plain text -/

variable {unicode : CharTables} {crypto : Crypto} {auth : Auth}

/-- A character that a signature may have: ASCII, and no separator. -/
def Plain (c : Char) : Prop := c.toNat < 128 ∧ c ≠ '.'

instance (c : Char) : Decidable (Plain c) := inferInstanceAs (Decidable (_ ∧ _))

theorem base64Alphabet_eq : base64Alphabet =
    ['A', 'B', 'C', 'D', 'E', 'F', 'G', 'H', 'I', 'J', 'K', 'L', 'M', 'N', 'O', 'P', 'Q', 'R', 'S', 'T', 'U', 'V', 'W',
      'X', 'Y', 'Z', 'a', 'b', 'c', 'd', 'e', 'f', 'g', 'h', 'i', 'j', 'k', 'l', 'm', 'n', 'o', 'p', 'q', 'r', 's', 't',
      'u', 'v', 'w', 'x', 'y', 'z', '0', '1', '2', '3', '4', '5', '6', '7', '8', '9', '-', '_'] :=
  String.toList_ofList

theorem base64Char_eq (n : Nat) : ∃ small : n % 64 < base64Alphabet.length, base64Char n = base64Alphabet[n % 64] := by
  have small : n % 64 < base64Alphabet.length := by
    rw [base64Alphabet_eq]
    exact Nat.mod_lt n (by decide)
  exact ⟨small, by rw [base64Char, List.getD_eq_getElem?_getD, List.getElem?_eq_getElem small, Option.getD_some]⟩

theorem base64Char_mem (n : Nat) : base64Char n ∈ base64Alphabet := by
  obtain ⟨small, same⟩ := base64Char_eq n
  exact same ▸ List.getElem_mem small

theorem base64Char_plain (n : Nat) : Plain (base64Char n) := by
  have all : base64Alphabet.all (fun c => decide (Plain c)) = true := by
    rw [base64Alphabet_eq]
    decide
  exact of_decide_eq_true (List.all_eq_true.mp all _ (base64Char_mem n))

theorem urlsafeB64encode_plain : ∀ (data : List UInt8), ∀ c ∈ urlsafeB64encode data, Plain c := by
  intro data
  have pad : Plain '=' := by decide
  induction data using urlsafeB64encode.induct with
  | case1 a b c rest ih =>
    simp only [urlsafeB64encode, List.forall_mem_cons]
    exact ⟨base64Char_plain _, base64Char_plain _, base64Char_plain _, base64Char_plain _, ih⟩
  | case2 a b => simp [urlsafeB64encode, base64Char_plain, pad]
  | case3 a => simp [urlsafeB64encode, base64Char_plain, pad]
  | case4 => simp [urlsafeB64encode]

theorem sign_plain (role : Role) (payload : String) : ∀ c ∈ (sign crypto auth role payload).toList, Plain c := by
  intro c member
  have inside : c ∈ urlsafeB64encode _ := (List.rdropWhile_prefix _ _).subset (by simpa [sign, b64] using member)
  exact urlsafeB64encode_plain _ c inside

theorem isAscii_sign (role : Role) (payload : String) : isAscii (sign crypto auth role payload) = true := by
  rw [isAscii, List.all_eq_true]
  intro c member
  exact decide_eq_true (sign_plain role payload c member).1

theorem dot_not_mem_sign (role : Role) (payload : String) : '.' ∉ (sign crypto auth role payload).toList :=
  fun member => (sign_plain role payload _ member).2 rfl

/-! ### What a token says -/

/-- `<role>.<expires>.<signature>`. -/
def tokenOf (role : Role) (expires signature : String) : String := payloadOf role expires ++ "." ++ signature

theorem named_eq_some {name : String} {role : Role} : Role.named name = some role ↔ name = role.name := by
  by_cases admin : name = "admin"
  · subst admin; cases role <;> simp [Role.named, Role.name]
  · by_cases team : name = "team"
    · subst team; cases role <;> simp [Role.named, Role.name]
    · cases role <;> simp [Role.named, Role.name, admin, team]

theorem parseToken_eq_some {token expires signature : String} {role : Role} :
    parseToken unicode token = some (role, expires, signature) ↔
      token = tokenOf role expires signature ∧ isDigits unicode expires = true ∧ '.' ∉ signature.toList := by
  have named : '.' ∉ role.name.toList := by cases role <;> decide
  constructor
  · intro parsed
    unfold parseToken at parsed
    split at parsed
    · rename_i name digits rest parts
      split at parsed
      · rename_i role' found
        split at parsed
        · rename_i isDigit
          cases parsed
          obtain ⟨joined, -, -, last⟩ := split_three.mp parts
          obtain rfl := named_eq_some.mp found
          exact ⟨joined, isDigit, last⟩
        · cases parsed
      · cases parsed
    · cases parsed
  · rintro ⟨rfl, digits, last⟩
    have parts : split '.' (tokenOf role expires signature) = [role.name, expires, signature] :=
      split_three.mpr ⟨rfl, named, dot_not_mem digits, last⟩
    have known : Role.named role.name = some role := named_eq_some.mpr rfl
    simp [parseToken, parts, known, digits]

/-- A token accepted as issued: its role is on, its signature is the role's own for
    this expiry, and the expiry is not before `now`. -/
def Issued (unicode : CharTables) (crypto : Crypto) (auth : Auth) (role : Role) (token : String) (now : Rat) : Prop :=
  ∃ expires, isDigits unicode expires = true ∧ auth.passwords role ≠ "" ∧
    token = tokenOf role expires (sign crypto auth role (payloadOf role expires)) ∧
    ∃ n : Nat, int unicode expires = .ok n ∧ now ≤ n

/-- `verify` answers, and names a role exactly for the tokens issued for it. -/
def AcceptedAsIssued (unicode : CharTables) (crypto : Crypto) (auth : Auth) (token : String) (now : Rat) : Prop :=
  ∃ answer, verify unicode crypto auth token now = .ok answer ∧
    ∀ role, answer = some role ↔ Issued unicode crypto auth role token now

/-- A token whose signature `compare_digest` refuses. -/
def Incomparable (unicode : CharTables) (auth : Auth) (token : String) : Prop :=
  ∃ role expires signature, token = tokenOf role expires signature ∧ isDigits unicode expires = true ∧
    '.' ∉ signature.toList ∧ auth.passwords role ≠ "" ∧ isAscii signature = false

/-- A rightly signed token whose digits `int` refuses. -/
def Unreadable (unicode : CharTables) (crypto : Crypto) (auth : Auth) (token : String) : Prop :=
  ∃ role expires, token = tokenOf role expires (sign crypto auth role (payloadOf role expires)) ∧
    isDigits unicode expires = true ∧ auth.passwords role ≠ "" ∧ ∀ n, int unicode expires ≠ .ok n

section
variable {token : String} {now : Rat}

theorem parseToken_issued {role : Role} (issued : Issued unicode crypto auth role token now) :
    ∃ expires, parseToken unicode token = some (role, expires, sign crypto auth role (payloadOf role expires)) ∧
      auth.passwords role ≠ "" ∧ ∃ n : Nat, int unicode expires = .ok n ∧ now ≤ n := by
  obtain ⟨expires, digits, on, rfl, read⟩ := issued
  exact ⟨expires, parseToken_eq_some.mpr ⟨rfl, digits, dot_not_mem_sign role _⟩, on, read⟩

theorem parseToken_incomparable (refused : Incomparable unicode auth token) :
    ∃ role expires signature, parseToken unicode token = some (role, expires, signature) ∧
      auth.passwords role ≠ "" ∧ isAscii signature = false := by
  obtain ⟨role, expires, signature, rfl, digits, last, on, foreign⟩ := refused
  exact ⟨role, expires, signature, parseToken_eq_some.mpr ⟨rfl, digits, last⟩, on, foreign⟩

theorem parseToken_unreadable (refused : Unreadable unicode crypto auth token) :
    ∃ role expires, parseToken unicode token = some (role, expires, sign crypto auth role (payloadOf role expires)) ∧
      auth.passwords role ≠ "" ∧ ∀ n, int unicode expires ≠ .ok n := by
  obtain ⟨role, expires, rfl, digits, on, unread⟩ := refused
  exact ⟨role, expires, parseToken_eq_some.mpr ⟨rfl, digits, dot_not_mem_sign role _⟩, on, unread⟩

/-- What a token that names no role, or a role that is off, comes to. -/
theorem verify_unparsed (unparsed : parseToken unicode token = none) :
    verify unicode crypto auth token now = .ok none := by
  rw [verify, unparsed]
  rfl

/-- What a token that names a role comes to. -/
theorem verify_parsed {role : Role} {expires signature : String}
    (parsed : parseToken unicode token = some (role, expires, signature)) :
    verify unicode crypto auth token now =
      if auth.passwords role = "" then .ok none
      else (compareDigest signature (sign crypto auth role (payloadOf role expires))).bind (fun equal =>
        if equal then (int unicode expires).map (fun n => if (n : Rat) < now then none else some role) else .ok none) := by
  rw [verify, parsed]
  refine ite_congr rfl (fun _ => rfl) (fun _ => congrArg _ (funext (fun equal => ?_)))
  cases equal with
  | false => rfl
  | true =>
    cases int unicode expires with
    | error e => rfl
    | ok n => exact apply_ite Except.ok _ _ _ |>.symm

theorem verify_off {role : Role} {expires signature : String} (off : auth.passwords role = "")
    (parsed : parseToken unicode token = some (role, expires, signature)) :
    verify unicode crypto auth token now = .ok none := by
  rw [verify_parsed parsed, if_pos off]

theorem verify_foreign {role : Role} {expires signature : String} (on : auth.passwords role ≠ "")
    (parsed : parseToken unicode token = some (role, expires, signature)) (foreign : isAscii signature = false) :
    verify unicode crypto auth token now = .error .typeError := by
  rw [verify_parsed parsed, if_neg on]
  simp [compareDigest, foreign, Except.bind]

/-- From the comparison on. -/
theorem verify_compared {role : Role} {expires signature : String} (on : auth.passwords role ≠ "")
    (parsed : parseToken unicode token = some (role, expires, signature)) (plain : isAscii signature = true) :
    verify unicode crypto auth token now =
      if signature = sign crypto auth role (payloadOf role expires) then
        (int unicode expires).map (fun n => if (n : Rat) < now then none else some role)
      else .ok none := by
  rw [verify_parsed parsed, if_neg on, compareDigest, plain, isAscii_sign]
  by_cases same : signature = sign crypto auth role (payloadOf role expires) <;> simp [same, Except.bind]

theorem accepted_none (answered : verify unicode crypto auth token now = .ok none)
    (none_issued : ∀ role, ¬ Issued unicode crypto auth role token now) :
    AcceptedAsIssued unicode crypto auth token now := by
  refine ⟨none, answered, fun role => ?_⟩
  simp [none_issued role]

/-- A token that can be compared and read is accepted as issued. -/
theorem accepted_of_parsed {role : Role} {expires signature : String}
    (parsed : parseToken unicode token = some (role, expires, signature)) (on : auth.passwords role ≠ "")
    (plain : isAscii signature = true)
    (read : signature = sign crypto auth role (payloadOf role expires) → ∃ n, int unicode expires = .ok n) :
    AcceptedAsIssued unicode crypto auth token now := by
  by_cases same : signature = sign crypto auth role (payloadOf role expires)
  · obtain ⟨n, returned⟩ := read same
    obtain ⟨split, digits, -⟩ := parseToken_eq_some.mp parsed
    refine ⟨if (n : Rat) < now then none else some role, ?_, fun role' => ⟨fun answered => ?_, fun issued => ?_⟩⟩
    · rw [verify_compared on parsed plain, if_pos same, returned]
      rfl
    · by_cases late : (n : Rat) < now
      · simp [late] at answered
      · obtain rfl : role = role' := by simpa [late] using answered
        exact ⟨expires, digits, on, same ▸ split, n, returned, not_lt.mp late⟩
    · obtain ⟨expires', parsed', -, n', returned', fresh⟩ := parseToken_issued issued
      rw [parsed] at parsed'
      cases parsed'
      obtain rfl := Except.ok.inj (returned.symm.trans returned')
      rw [if_neg (not_lt.mpr fresh)]
  · refine accepted_none (by rw [verify_compared on parsed plain, if_neg same]) (fun role' issued => ?_)
    obtain ⟨expires', parsed', -⟩ := parseToken_issued issued
    rw [parsed] at parsed'
    cases parsed'
    exact same rfl

end

/-- Session tokens are accepted exactly as issued, unless the signature is not
    ASCII or the rightly signed digits are none that `int` converts. -/
theorem verify_accepts_issued_iff (unicode : CharTables) (crypto : Crypto) (auth : Auth) (token : String) (now : Rat) :
    AcceptedAsIssued unicode crypto auth token now ↔
      ¬ Incomparable unicode auth token ∧ ¬ Unreadable unicode crypto auth token := by
  constructor
  · rintro ⟨answer, answered, -⟩
    constructor
    · intro refused
      obtain ⟨role, expires, signature, parsed, on, foreign⟩ := parseToken_incomparable refused
      rw [verify_foreign on parsed foreign] at answered
      cases answered
    · intro refused
      obtain ⟨role, expires, parsed, on, unread⟩ := parseToken_unreadable refused
      rw [verify_compared on parsed (isAscii_sign role _), if_pos rfl] at answered
      cases read : int unicode expires with
      | error e => rw [read] at answered; cases answered
      | ok n => exact unread n read
  · rintro ⟨comparable, readable⟩
    cases parsed : parseToken unicode token with
    | none =>
      refine accepted_none (verify_unparsed parsed) (fun role issued => ?_)
      obtain ⟨expires, parsed', -⟩ := parseToken_issued issued
      rw [parsed] at parsed'
      cases parsed'
    | some parts =>
      obtain ⟨role, expires, signature⟩ := parts
      obtain ⟨split, digits, last⟩ := parseToken_eq_some.mp parsed
      by_cases off : auth.passwords role = ""
      · refine accepted_none (verify_off off parsed) (fun role' issued => ?_)
        obtain ⟨expires', parsed', on, -⟩ := parseToken_issued issued
        rw [parsed] at parsed'
        cases parsed'
        exact on off
      · have plain : isAscii signature = true := by
          by_contra foreign
          exact comparable ⟨role, expires, signature, split, digits, last, off, by simpa using foreign⟩
        refine accepted_of_parsed parsed off plain (fun same => ?_)
        by_contra unread
        subst same
        exact readable ⟨role, expires, split, digits, off, fun n returned => unread ⟨n, returned⟩⟩

/-- A token that was issued for a role is the role's until it expires. -/
theorem verify_issue {role : Role} {now later : Rat} {n : Nat} (on : auth.passwords role ≠ "")
    (expires : truncate (now + auth.ttl) = n) (short : n < 10 ^ maxStrDigits) (fresh : later ≤ n) :
    ∃ token, issue crypto auth role now = .ok (some token) ∧ verify unicode crypto auth token later = .ok (some role) := by
  let payload := payloadOf role n.repr
  refine ⟨payload ++ "." ++ sign crypto auth role payload, ?_, ?_⟩
  · have given : strInt n = .ok n.repr := by
      rw [strInt, if_neg (by simpa using short)]
      rfl
    rw [issue, if_neg on, expires, given]
    rfl
  · have parsed : parseToken unicode (payload ++ "." ++ sign crypto auth role payload) =
        some (role, n.repr, sign crypto auth role payload) :=
      parseToken_eq_some.mpr ⟨rfl, isDigits_repr n, dot_not_mem_sign role payload⟩
    rw [verify_compared on parsed (isAscii_sign role payload), if_pos rfl, int_repr short]
    simp [Except.map, not_lt.mpr fresh]

/-! ### A signature in another alphabet -/

/-- The digests of the password and of `admin.1` signed with it. -/
def digests : Crypto where
  sha256 _ := [142, 112, 253, 189, 4, 0, 183, 162, 21, 57, 253, 21, 251, 74, 184, 108, 18, 159, 124, 189, 153, 38, 29, 187,
    13, 149, 193, 141, 248, 222, 193, 119]
  hmac _ _ := [207, 228, 79, 213, 216, 84, 171, 22, 146, 43, 136, 5, 217, 199, 252, 6, 107, 155, 1, 105, 117, 5, 50, 122,
    80, 148, 234, 128, 253, 178, 9, 94]

def adminOnly : Auth := .init (Dict.ofEntries [(.admin, "admin-password")]) (encode "secret") sessionTtl

/-- A cookie may hold any Latin-1 text: this one makes the guard raise. -/
theorem foreign_signature_raises :
    verify latin1 digests adminOnly "admin.1.é" 0 = .error .typeError ∧
      ¬ AcceptedAsIssued latin1 digests adminOnly "admin.1.é" 0 := by
  have raises : verify latin1 digests adminOnly "admin.1.é" 0 = .error .typeError := by decide +kernel
  refine ⟨raises, ?_⟩
  rintro ⟨answer, answered, -⟩
  rw [raises] at answered
  cases answered

end ScanApi.Sessions
