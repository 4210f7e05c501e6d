import ScanApi.Sessions

/-!
A token issued under one configuration and presented under another. Where the
hash functions are injective, a signature tells the secret, the payload and the
role's password apart, so a token survives exactly while secret and password do,
until it expires.
-/
namespace ScanApi.PasswordChange
open ScanApi.Python ScanApi.Unicode ScanApi.Sessions

/-- `hashlib.sha256` and `hmac` without collisions. -/
structure CollisionFree (crypto : Crypto) : Prop where
  sha256 : Function.Injective crypto.sha256
  hmac : ∀ {secret secret' message message'}, crypto.hmac secret message = crypto.hmac secret' message' →
    secret = secret' ∧ message = message'

/-! ### Texts of bytes -/

theorem base64Char_inj {n m : Nat} (same : base64Char n = base64Char m) : n % 64 = m % 64 := by
  have distinct : base64Alphabet.Nodup := by
    refine List.Nodup.of_map Char.toNat ?_
    rw [base64Alphabet_eq]
    decide +kernel
  obtain ⟨_, char⟩ := base64Char_eq n
  obtain ⟨_, char'⟩ := base64Char_eq m
  rw [char, char'] at same
  exact distinct.getElem_inj_iff.mp same

theorem base64Char_ne_pad (n : Nat) : base64Char n ≠ '=' := by
  have none : '=' ∉ base64Alphabet := by
    rw [base64Alphabet_eq]
    decide
  intro pad
  exact none (pad ▸ base64Char_mem n)

/-- The encoding without its padding. -/
def unpadded : List UInt8 → List Char
  | a :: b :: c :: rest =>
    base64Char (a.toNat / 4) :: base64Char (a.toNat * 16 + b.toNat / 16) ::
      base64Char (b.toNat * 4 + c.toNat / 64) :: base64Char c.toNat :: unpadded rest
  | [a, b] => [base64Char (a.toNat / 4), base64Char (a.toNat * 16 + b.toNat / 16), base64Char (b.toNat * 4)]
  | [a] => [base64Char (a.toNat / 4), base64Char (a.toNat * 16)]
  | [] => []

theorem unpadded_no_pad (data : List UInt8) : ∀ c ∈ unpadded data, c ≠ '=' := by
  induction data using unpadded.induct with
  | case1 a b c rest ih => simpa [unpadded, base64Char_ne_pad] using ih
  | case2 a b => simp [unpadded, base64Char_ne_pad]
  | case3 a => simp [unpadded, base64Char_ne_pad]
  | case4 => simp [unpadded]

theorem urlsafeB64encode_eq (data : List UInt8) : ∃ pad : Nat, urlsafeB64encode data = unpadded data ++ List.replicate pad '=' := by
  induction data using unpadded.induct with
  | case1 a b c rest ih =>
    obtain ⟨pad, same⟩ := ih
    exact ⟨pad, by simp [urlsafeB64encode, unpadded, same]⟩
  | case2 a b => exact ⟨1, rfl⟩
  | case3 a => exact ⟨2, rfl⟩
  | case4 => exact ⟨0, rfl⟩

theorem rdropWhile_padding (l : List Char) (none : ∀ c ∈ l, c ≠ '=') (pad : Nat) :
    (l ++ List.replicate pad '=').rdropWhile (· = '=') = l := by
  induction pad with
  | zero =>
    rw [List.replicate_zero, List.append_nil, List.rdropWhile_eq_self_iff]
    intro filled isPad
    exact none _ (List.getLast_mem filled) (of_decide_eq_true isPad)
  | succ pad ih =>
    rw [List.replicate_succ', ← List.append_assoc, List.rdropWhile_concat_pos _ _ _ (by simp)]
    exact ih

theorem b64_eq (data : List UInt8) : b64 data = String.ofList (unpadded data) := by
  obtain ⟨pad, same⟩ := urlsafeB64encode_eq data
  rw [b64, same, rdropWhile_padding _ (unpadded_no_pad data)]

theorem unpadded_inj : ∀ {data data' : List UInt8}, unpadded data = unpadded data' → data = data' := by
  intro data
  induction data using unpadded.induct with
  | case1 a b c rest ih =>
    intro data' same
    match data' with
    | a' :: b' :: c' :: rest' =>
      simp only [unpadded, List.cons.injEq] at same
      obtain ⟨first, second, third, fourth, tail⟩ := same
      have sextets := And.intro (base64Char_inj first) (And.intro (base64Char_inj second)
        (And.intro (base64Char_inj third) (base64Char_inj fourth)))
      have bounds := And.intro a.toNat_lt (And.intro b.toNat_lt (And.intro c.toNat_lt
        (And.intro a'.toNat_lt (And.intro b'.toNat_lt c'.toNat_lt))))
      obtain rfl : a = a' := UInt8.toNat_inj.mp (by omega)
      obtain rfl : b = b' := UInt8.toNat_inj.mp (by omega)
      obtain rfl : c = c' := UInt8.toNat_inj.mp (by omega)
      rw [ih tail]
    | [a', b'] => simp [unpadded] at same
    | [a'] => simp [unpadded] at same
    | [] => simp [unpadded] at same
  | case2 a b =>
    intro data' same
    match data' with
    | a' :: b' :: c' :: rest' => simp [unpadded] at same
    | [a', b'] =>
      simp only [unpadded, List.cons.injEq, and_true] at same
      obtain ⟨first, second, third⟩ := same
      have sextets := And.intro (base64Char_inj first) (And.intro (base64Char_inj second) (base64Char_inj third))
      have bounds := And.intro a.toNat_lt (And.intro b.toNat_lt (And.intro a'.toNat_lt b'.toNat_lt))
      obtain rfl : a = a' := UInt8.toNat_inj.mp (by omega)
      obtain rfl : b = b' := UInt8.toNat_inj.mp (by omega)
      rfl
    | [a'] => simp [unpadded] at same
    | [] => simp [unpadded] at same
  | case3 a =>
    intro data' same
    match data' with
    | a' :: b' :: c' :: rest' => simp [unpadded] at same
    | [a', b'] => simp [unpadded] at same
    | [a'] =>
      simp only [unpadded, List.cons.injEq, and_true] at same
      obtain ⟨first, second⟩ := same
      have sextets := And.intro (base64Char_inj first) (base64Char_inj second)
      have bounds := And.intro a.toNat_lt a'.toNat_lt
      obtain rfl : a = a' := UInt8.toNat_inj.mp (by omega)
      rfl
    | [] => simp [unpadded] at same
  | case4 =>
    intro data' same
    match data' with
    | a' :: b' :: c' :: rest' => simp [unpadded] at same
    | [a', b'] => simp [unpadded] at same
    | [a'] => simp [unpadded] at same
    | [] => rfl

theorem b64_injective : Function.Injective b64 := by
  intro data data' same
  rw [b64_eq, b64_eq] at same
  exact unpadded_inj (String.ofList_injective same)

theorem hexDigit_inj {n m : Nat} (small : n < 16) (small' : m < 16) (same : hexDigit n = hexDigit m) : n = m := by
  have distinct : ∀ i < 16, ∀ j < 16, hexDigit i = hexDigit j → i = j := by decide +kernel
  exact distinct n small m small' same

theorem hexdigest_injective : Function.Injective hexdigest := by
  intro digest digest' same
  have digits := String.ofList_injective same
  clear same
  induction digest generalizing digest' with
  | nil =>
    cases digest' with
    | nil => rfl
    | cons b' rest' => simp at digits
  | cons b rest ih =>
    cases digest' with
    | nil => simp at digits
    | cons b' rest' =>
      simp only [List.flatMap_cons, List.cons_append, List.nil_append, List.cons.injEq] at digits
      obtain ⟨high, low, tail⟩ := digits
      have bounds := And.intro b.toNat_lt b'.toNat_lt
      have same := hexDigit_inj (by omega) (by omega) high
      have same' := hexDigit_inj (by omega) (by omega) low
      obtain rfl : b = b' := UInt8.toNat_inj.mp (by omega)
      rw [ih tail]

theorem encode_injective : Function.Injective encode := by
  intro text text' same
  have bytes : text.toUTF8 = text'.toUTF8 := ByteArray.ext (Array.toList_inj.mp same)
  exact String.toByteArray_inj.mp bytes

/-! ### Signatures -/

variable {unicode : CharTables} {crypto : Crypto} {A B : Auth} {role : Role} {issued now : Rat}

theorem sign_congr (secret : A.secret = B.secret) (password : A.passwords role = B.passwords role) (payload : String) :
    sign crypto A role payload = sign crypto B role payload := by
  rw [sign, sign, secret, password]

/-- Equal signatures of a payload have the secret and the password in common. -/
theorem sign_inj (free : CollisionFree crypto) {payload : String}
    (same : sign crypto A role payload = sign crypto B role payload) :
    A.secret = B.secret ∧ A.passwords role = B.passwords role := by
  obtain ⟨secret, message⟩ := free.hmac (b64_injective same)
  have texts := String.toList_inj.mpr (encode_injective message)
  simp only [String.toList_append, List.append_cancel_left_eq] at texts
  have fingerprint := hexdigest_injective (String.toList_inj.mp texts)
  exact ⟨secret, encode_injective (free.sha256 fingerprint)⟩

/-! ### Expiries -/

theorem minus_not_digit : unicode.isdigit '-' = false := by
  rw [unicode.isdigit_ascii _ (by decide), unicode.decimal_ascii _ (by decide)]
  rfl

theorem toString_negSucc (n : Nat) : (toString (Int.negSucc n)).toList = '-' :: (n + 1).repr.toList := by
  have joined : toString (Int.negSucc n) = "-" ++ (n + 1).repr := rfl
  rw [joined, String.toList_append]
  rfl

/-- Only a negative expiry is not written in digits. -/
theorem isDigits_toString (n : Int) : isDigits unicode (toString n) = decide (0 ≤ n) := by
  cases n with
  | ofNat n => exact (isDigits_repr n).trans (by simp)
  | negSucc n =>
    have refused : isDigits unicode (toString (Int.negSucc n)) = false := by
      rw [isDigits, toString_negSucc]
      simp [minus_not_digit]
    exact refused.trans (by simp)

theorem dot_not_mem_toString (n : Int) : '.' ∉ (toString n).toList := by
  have digits : ∀ k : Nat, '.' ∉ k.repr.toList := fun k => dot_not_mem (@isDigits_repr latin1 k)
  cases n with
  | ofNat n => exact digits n
  | negSucc n =>
    rw [toString_negSucc]
    simpa using digits (n + 1)

theorem parseToken_tokenOf {expires signature : String} (dotless : '.' ∉ expires.toList) (last : '.' ∉ signature.toList) :
    parseToken unicode (tokenOf role expires signature) =
      if isDigits unicode expires then some (role, expires, signature) else none := by
  have name : '.' ∉ role.name.toList := by cases role <;> decide
  have parts : split '.' (tokenOf role expires signature) = [role.name, expires, signature] :=
    split_three.mpr ⟨rfl, name, dotless, last⟩
  have known : Role.named role.name = some role := named_eq_some.mpr rfl
  simp only [parseToken, parts, known]

/-! ### Issued by one, verified by the other -/

/-- When a token issued at this time expires. -/
def expiryOf (A : Auth) (issued : Rat) : Int := truncate (issued + A.ttl)

/-- `B.verify(A.issue(role, issued), now)`: where nothing is issued, `None` has no `split`. -/
def present (unicode : CharTables) (crypto : Crypto) (A B : Auth) (role : Role) (issued now : Rat) :
    Except PyError (Option Role) := do
  match ← issue crypto A role issued with
  | some token => verify unicode crypto B token now
  | none => .error .attributeError

theorem issue_on (on : A.passwords role ≠ "") (short : ¬ 10 ^ maxStrDigits ≤ (expiryOf A issued).natAbs) :
    issue crypto A role issued = .ok (some (tokenOf role (toString (expiryOf A issued))
      (sign crypto A role (payloadOf role (toString (expiryOf A issued)))))) := by
  rw [issue, if_neg on]
  change (strInt (expiryOf A issued)).bind _ = _
  rw [strInt, if_neg short]
  rfl

theorem issue_long (on : A.passwords role ≠ "") (long : 10 ^ maxStrDigits ≤ (expiryOf A issued).natAbs) :
    issue crypto A role issued = .error .valueError := by
  rw [issue, if_neg on]
  change (strInt (expiryOf A issued)).bind _ = _
  rw [strInt, if_pos long]
  rfl

/-- A token with an expiry in digits comes to what its signature and expiry say. -/
theorem verify_digits {n : Nat} (on : B.passwords role ≠ "") (short : n < 10 ^ maxStrDigits) (payload : String) :
    verify unicode crypto B (tokenOf role n.repr (sign crypto A role payload)) now =
      if sign crypto A role payload = sign crypto B role (payloadOf role n.repr) then
        .ok (if (n : Rat) < now then none else some role)
      else .ok none := by
  have parsed : parseToken unicode (tokenOf role n.repr (sign crypto A role payload)) =
      some (role, n.repr, sign crypto A role payload) :=
    parseToken_eq_some.mpr ⟨rfl, isDigits_repr n, dot_not_mem_sign role payload⟩
  rw [verify_compared on parsed (isAscii_sign role payload), int_repr short]
  rfl

/-- What presenting a token comes to, step by step. -/
theorem present_eq : present unicode crypto A B role issued now =
    if A.passwords role = "" then .error .attributeError
    else if 10 ^ maxStrDigits ≤ (expiryOf A issued).natAbs then .error .valueError
    else if expiryOf A issued < 0 ∨ B.passwords role = "" then .ok none
    else if sign crypto A role (payloadOf role (toString (expiryOf A issued))) =
        sign crypto B role (payloadOf role (toString (expiryOf A issued))) then
      .ok (if (expiryOf A issued : Rat) < now then none else some role)
    else .ok none := by
  rw [present]
  by_cases off : A.passwords role = ""
  · rw [if_pos off, issue, if_pos off]
    rfl
  rw [if_neg off]
  by_cases long : 10 ^ maxStrDigits ≤ (expiryOf A issued).natAbs
  · rw [if_pos long, issue_long off long]
    rfl
  rw [if_neg long, issue_on off long]
  change verify unicode crypto B _ now = _
  have parsed := @parseToken_tokenOf unicode role _ _ (dot_not_mem_toString (expiryOf A issued))
    (@dot_not_mem_sign crypto A role (payloadOf role (toString (expiryOf A issued))))
  rw [isDigits_toString] at parsed
  cases expires : expiryOf A issued with
  | negSucc n =>
    rw [expires] at parsed
    rw [if_pos (.inl (Int.negSucc_lt_zero n))]
    exact verify_unparsed (by simpa using parsed)
  | ofNat n =>
    rw [expires] at long parsed
    by_cases offB : B.passwords role = ""
    · rw [if_pos (.inr offB)]
      exact verify_off offB (by simpa using parsed)
    · have nonneg : ¬ (Int.ofNat n < 0 ∨ B.passwords role = "") := by simp [offB]
      rw [if_neg nonneg]
      exact verify_digits offB (by simpa using long) _

/-- Where the hash functions are injective, a token of one configuration is accepted
    by another exactly while it is fresh and both have the same secret and the same
    password for its role, whatever the password of the other role. -/
theorem password_change_logs_out (unicode : CharTables) (crypto : Crypto) (free : CollisionFree crypto) (A B : Auth)
    (role : Role) (issued now : Rat) :
    (present unicode crypto A B role issued now = .ok (some role) ↔
      A.secret = B.secret ∧ A.passwords role ≠ "" ∧ A.passwords role = B.passwords role ∧
        0 ≤ expiryOf A issued ∧ (expiryOf A issued).toNat < 10 ^ maxStrDigits ∧ now ≤ expiryOf A issued) ∧
    (∀ other, present unicode crypto A B role issued now = .ok (some other) → other = role) ∧
    (∀ A' B' : Auth, A'.secret = A.secret → A'.ttl = A.ttl → A'.passwords role = A.passwords role →
      B'.secret = B.secret → B'.passwords role = B.passwords role →
      present unicode crypto A' B' role issued now = present unicode crypto A B role issued now) := by
  refine ⟨?_, ?_, ?_⟩
  · rw [present_eq]
    constructor
    · intro accepted
      split at accepted
      · cases accepted
      rename_i on
      split at accepted
      · cases accepted
      rename_i short
      split at accepted
      · cases accepted
      rename_i nonneg
      split at accepted
      · rename_i signed
        obtain ⟨secret, password⟩ := sign_inj free signed
        have fresh : ¬ (expiryOf A issued : Rat) < now := fun late => by simp [late] at accepted
        exact ⟨secret, on, password, by omega, by omega, not_lt.mp fresh⟩
      · cases accepted
    · rintro ⟨secret, on, password, nonneg, short, fresh⟩
      have onB : B.passwords role ≠ "" := password ▸ on
      rw [if_neg on, if_neg (by omega), if_neg (by simp [onB]; omega), if_pos (sign_congr secret password _),
        if_neg (not_lt.mpr fresh)]
  · intro other accepted
    rw [present_eq] at accepted
    split_ifs at accepted <;> cases accepted
    rfl
  · intro A' B' secret ttl password secretB passwordB
    have expiry : expiryOf A' issued = expiryOf A issued := by rw [expiryOf, expiryOf, ttl]
    rw [present_eq, present_eq, expiry, password, passwordB, sign_congr secret password, sign_congr secretB passwordB]

/-! ### Two instances -/

/-- A message after its key, without collisions. -/
def keyed : List UInt8 → List UInt8 → List UInt8
  | [], message => 0 :: message
  | byte :: secret, message => 1 :: byte :: keyed secret message

def transparent : Crypto := ⟨id, keyed⟩

theorem keyed_inj : ∀ {secret secret' message message' : List UInt8}, keyed secret message = keyed secret' message' →
    secret = secret' ∧ message = message' := by
  intro secret
  induction secret with
  | nil =>
    intro secret' message message' same
    cases secret' with
    | nil => exact ⟨rfl, (List.cons.inj same).2⟩
    | cons byte rest => simp [keyed] at same
  | cons byte rest ih =>
    intro secret' message message' same
    cases secret' with
    | nil => simp [keyed] at same
    | cons byte' rest' =>
      simp only [keyed, List.cons.injEq, true_and] at same
      obtain ⟨rfl, tail⟩ := same
      obtain ⟨rfl, rfl⟩ := ih tail
      exact ⟨rfl, rfl⟩

theorem transparent_collisionFree : CollisionFree transparent := ⟨fun _ _ same => same, keyed_inj⟩

theorem password_change_logs_out_admin :
    present latin1 transparent adminOnly { adminOnly with ttl := 60 } .admin 100 200 = .ok (some .admin) :=
  (password_change_logs_out latin1 transparent transparent_collisionFree adminOnly { adminOnly with ttl := 60 } .admin
    100 200).1.mpr ⟨rfl, by decide +kernel, rfl, by decide +kernel, by decide +kernel, by decide +kernel⟩

/-- With a negative time to live the cut-off fraction makes a token outlive it: the
    expiry is 0, not `⌊1/2 - 1⌋`. -/
theorem cut_off_outlives : CollisionFree transparent ∧
    present latin1 transparent { adminOnly with ttl := -1 } { adminOnly with ttl := -1 } .admin (1 / 2) 0 =
      .ok (some .admin) ∧
    ¬ (0 : Rat) ≤ ((1 / 2 : Rat) + (-1 : Int)).floor := by
  have on : adminOnly.passwords .admin ≠ "" := by decide +kernel
  have expiry : expiryOf { adminOnly with ttl := -1 } (1 / 2) = 0 := by decide +kernel
  refine ⟨transparent_collisionFree, ?_, by decide +kernel⟩
  rw [present_eq, expiry, if_neg on, if_neg (by decide +kernel), if_neg (by simpa using on), if_pos rfl,
    if_neg (by decide +kernel)]

end ScanApi.PasswordChange
