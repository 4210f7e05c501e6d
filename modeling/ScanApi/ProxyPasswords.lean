import ScanApi.Scrub

/-!
Which passwords of proxies never show: two addresses that were taken and differ in
the password only are always masked alike, and texts with them are scrubbed alike
exactly where the pattern of the journal sees what `urlsplit` sees.
-/
namespace ScanApi.ProxyPasswords
open ScanApi.Partition ScanApi.UrlSplit ScanApi.ProxyUrls ScanApi.Scrub

/-- An address that was taken, with the user name and the password that `urlsplit` finds in it. -/
structure Proxy (tables : TextTables) (front user password back : List Char) : Prop where
  taken : ∃ raw, validateUrl tables raw = .ok (address front user password back)
  found : ∃ parts, urlsplit tables (address front user password back) = .ok parts ∧
    parts.username = some user ∧ parts.password = some password

variable {tables : TextTables} {front user password other back : List Char}

theorem Proxy.credentials (proxy : Proxy tables front user password back) :
    Nonempty (Credentials tables (address front user password back) user password) := by
  obtain ⟨raw, taken⟩ := proxy.taken
  obtain ⟨parts, split, name, secret⟩ := proxy.found
  obtain ⟨-, parts', ok⟩ := validateUrl_ok.mp taken
  obtain rfl : parts' = parts := Except.ok.inj (ok.split.symm.trans split)
  exact exists_credentials ok name secret

/-! ### The text before the user name -/

theorem ascii_of_isAlphanum {c : Char} (letter : c.isAlphanum = true) : c.toNat < 128 := by
  rcases Bool.or_eq_true_iff.mp letter with alpha | digit
  · have := isAlpha_iff_toNat.mp alpha
    omega
  · have : c.toNat ≤ 57 := (Char.isDigit_iff_toNat.mp digit).2
    omega

/-- The schemes of proxies are words. -/
theorem name_word {name : List Char} (chars : name.all schemeChar = true) (scheme : name.map Char.toLower ∈ schemes) :
    ∀ c ∈ name, wordChar tables c = true := by
  intro c member
  have kind : c.isAlphanum = true ∨ c = '+' ∨ c = '-' ∨ c = '.' := by
    simpa [schemeChar, or_assoc] using List.all_eq_true.mp chars c member
  have lowered : c.toLower ∈ name.map Char.toLower := List.mem_map_of_mem member
  have words : ∀ s ∈ schemes, '+' ∉ s ∧ '-' ∉ s ∧ '.' ∉ s := by decide
  obtain ⟨plus, minus, dot⟩ := words _ scheme
  rcases kind with letter | rfl | rfl | rfl
  · rw [wordChar, tables.isalnum_ascii c (ascii_of_isAlphanum letter), letter]
    rfl
  · exact absurd lowered plus
  · exact absurd lowered minus
  · exact absurd lowered dot

/-- What is left of a text that ends in a scheme, and of the `://` behind it. -/
def ahead (tables : TextTables) (text : List Char) : List Char :=
  scrub tables (text.rdropWhile (wordChar tables)) ++ text.rtakeWhile (wordChar tables) ++ "://".toList

theorem scrub_scheme {text : List Char} (ends : text.rtakeWhile (wordChar tables) ≠ [])
    (info : UserInfo tables user password) (rest : List Char) :
    scrub tables (text ++ ':' :: '/' :: '/' :: (user ++ ':' :: (password ++ '@' :: rest))) =
      ahead tables text ++ shown user password ++ scrub tables rest := by
  have word : ∀ c ∈ text.rtakeWhile (wordChar tables), wordChar tables c = true := fun c => List.mem_rtakeWhile_imp
  have edge : ∀ c, (text.rdropWhile (wordChar tables)).getLast? = some c → wordChar tables c = false := by
    intro c last
    have nonempty : text.rdropWhile (wordChar tables) ≠ [] := by
      intro empty
      rw [empty] at last
      cases last
    rw [List.getLast?_eq_some_getLast nonempty] at last
    have stop := List.rdropWhile_last_not (wordChar tables) text nonempty
    rw [Option.some.inj last] at stop
    exact Bool.eq_false_iff.mpr stop
  have run := scrub_append word ('/' :: (user ++ ':' :: (password ++ '@' :: rest))) edge
  rw [← List.append_assoc, List.rdropWhile_append_rtakeWhile] at run
  rw [run, ahead]
  by_cases found : Found user password
  · rw [scrub_found word ends info found]
    simp only [List.append_assoc]
  · rw [scrub_missed word info found]
    simp only [List.append_assoc]

theorem userInfo (c : Credentials tables (address front user password back) user password) (nonempty : password ≠ []) :
    UserInfo tables user password := by
  have inside : ∀ x, x ∈ user ∨ x ∈ password → x ∈ address front user password back ∧ x ∈ c.layout.netloc := by
    intro x member
    rw [c.netloc]
    rcases member with first | second
    · exact ⟨by simp [address, first], by simp [first]⟩
    · exact ⟨by simp [address, second], by simp [second]⟩
  have slash : ∀ x, x ∈ user ∨ x ∈ password → x ≠ '/' := by
    rintro x member rfl
    exact absurd (c.layout.netloc_chars _ (inside _ member).2) (by decide)
  exact ⟨fun here => slash _ (.inl here) rfl, c.colon_notMem, fun x here => c.accepted.solid x (inside x (.inl here)).1,
    fun here => slash _ (.inr here) rfl, fun x here => c.accepted.solid x (inside x (.inr here)).1, nonempty⟩

/-- In a text with an address, what stands before the user name and behind the password is scrubbed on its own. -/
theorem scrub_address (c : Credentials tables (address front user password back) user password) (nonempty : password ≠ [])
    (before after : List Char) :
    scrub tables (before ++ address front user password back ++ after) =
      ahead tables (before ++ (c.layout.lead ++ c.layout.name)) ++ shown user password ++ scrub tables (back ++ after) := by
  have word : ∀ x ∈ c.layout.name, wordChar tables x = true := name_word c.layout.name_chars c.accepted.scheme
  have ends : (before ++ (c.layout.lead ++ c.layout.name)).rtakeWhile (wordChar tables) ≠ [] := by
    rcases List.eq_nil_or_concat' c.layout.name with empty | ⟨first, last, whole⟩
    · have head := c.layout.name_head
      rw [empty] at head
      cases head
    · have final : wordChar tables last = true := word last (by simp [whole])
      rw [whole, ← List.append_assoc, ← List.append_assoc, List.rtakeWhile_concat_pos _ _ _ final]
      simp
  have whole : before ++ address front user password back ++ after =
      before ++ (c.layout.lead ++ c.layout.name) ++
        ':' :: '/' :: '/' :: (user ++ ':' :: (password ++ '@' :: (back ++ after))) := by
    have split := congrArg (fun start => before ++ (start ++ (user ++ ':' :: (password ++ '@' :: back))) ++ after) c.unique.1
    simpa [address] using split
  exact (congrArg (scrub tables) whole).trans (scrub_scheme ends (userInfo c nonempty) (back ++ after))

theorem drop_tail_inj : (password.dropWhile (· ≠ '@') ++ ['@']).drop 1 = (other.dropWhile (· ≠ '@') ++ ['@']).drop 1 ↔
    password.dropWhile (· ≠ '@') = other.dropWhile (· ≠ '@') := by
  refine ⟨fun same => ?_, fun same => by rw [same]⟩
  have cut : ∀ l : List Char, l.dropWhile (· ≠ '@') = [] ∨ ∃ tail, l.dropWhile (· ≠ '@') = '@' :: tail := by
    intro l
    rcases eq_or_partition '@' l with ⟨absent, -⟩ | ⟨_, tail, rfl, absent, -⟩
    · exact .inl (dropWhile_of_notMem absent)
    · exact .inr ⟨tail, dropWhile_append absent tail⟩
  rcases cut password with split | ⟨tail, split⟩ <;> rcases cut other with split' | ⟨tail', split'⟩ <;>
    rw [split, split'] at same <;> rw [split, split']
  · simp at same
  · simp at same
  · simpa using same

/-- Two user names and passwords look the same when scrubbed. -/
theorem shown_eq_iff : shown user password = shown user other ↔
    password = other ∨ (Found user password ∧ Found user other ∧
      password.dropWhile (· ≠ '@') = other.dropWhile (· ≠ '@')) := by
  -- A hidden one begins with `***@`, and a visible one with the user name and a colon.
  have differ : '@' ∉ user → ∀ rest rest' : List Char, "***@".toList ++ rest ≠ user ++ ':' :: rest' := by
    intro at' rest rest' same
    have cuts : "***".toList ++ '@' :: rest = user ++ ':' :: rest' := same
    rcases mem_or_mem_of_ne (by decide) cuts with here | here
    · exact at' here
    · revert here
      decide
  by_cases found : Found user password <;> by_cases found' : Found user other
  · rw [shown, shown, if_pos found, if_pos found', List.append_right_inj, drop_tail_inj]
    constructor
    · exact fun same => .inr ⟨found, found', same⟩
    · rintro (rfl | ⟨-, -, same⟩)
      · rfl
      · exact same
  · rw [shown, shown, if_pos found, if_neg found']
    constructor
    · exact fun same => absurd same (differ found.2.1 _ _)
    · rintro (rfl | ⟨-, visible, -⟩)
      · exact absurd found found'
      · exact absurd visible found'
  · rw [shown, shown, if_neg found, if_pos found']
    constructor
    · exact fun same => absurd same.symm (differ found'.2.1 _ _)
    · rintro (rfl | ⟨visible, -, -⟩)
      · exact absurd found' found
      · exact absurd visible found
  · rw [shown, shown, if_neg found, if_neg found']
    constructor
    · intro same
      exact .inl (by simpa using same)
    · rintro (rfl | ⟨visible, -, -⟩)
      · rfl
      · exact absurd visible found

/-- Two addresses that were taken and differ in the password look the same everywhere if and only if the
passwords are the same, or the pattern finds both and they go on alike from their first `@`. -/
theorem passwords_hidden_iff (nonempty : password ≠ []) (nonempty' : other ≠ []) (proxy : Proxy tables front user password back)
    (proxy' : Proxy tables front user other back) :
    (mask tables (address front user password back) = mask tables (address front user other back) ∧
      ∀ before after, scrub tables (before ++ address front user password back ++ after) =
        scrub tables (before ++ address front user other back ++ after)) ↔
      password = other ∨ (user ≠ [] ∧ '@' ∉ user ∧ password.head? ≠ some '@' ∧ other.head? ≠ some '@' ∧
        password.dropWhile (· ≠ '@') = other.dropWhile (· ≠ '@')) := by
  obtain ⟨c⟩ := proxy.credentials
  obtain ⟨d⟩ := proxy'.credentials
  have names : d.layout.lead ++ d.layout.name = c.layout.lead ++ c.layout.name := by
    refine (List.append_left_inj "://".toList).mp ?_
    rw [List.append_assoc, List.append_assoc, ← c.unique.1, ← d.unique.1]
  have scrubbed : ∀ before after, scrub tables (before ++ address front user password back ++ after) =
      scrub tables (before ++ address front user other back ++ after) ↔ shown user password = shown user other := by
    intro before after
    rw [scrub_address c nonempty, scrub_address d nonempty', names, List.append_left_inj, List.append_right_inj]
  have same : shown user password = shown user other ↔ password = other ∨ (user ≠ [] ∧ '@' ∉ user ∧
      password.head? ≠ some '@' ∧ other.head? ≠ some '@' ∧
        password.dropWhile (· ≠ '@') = other.dropWhile (· ≠ '@')) := by
    rw [shown_eq_iff, Found, Found]
    tauto
  rw [← same]
  constructor
  · rintro ⟨-, texts⟩
    exact (scrubbed [] []).mp (texts [] [])
  · intro shown
    exact ⟨c.mask_eq d, fun before after => (scrubbed before after).mpr shown⟩

/-! ### Examples -/

theorem proxy_of_split {user password : List Char} (parts : SplitResult)
    (taken : validateUrl tables (address front user password back) = .ok (address front user password back))
    (split : urlsplit tables (address front user password back) = .ok parts)
    (info : parts.userinfo = some (user, some password)) : Proxy tables front user password back :=
  ⟨⟨_, taken⟩, parts, split, by rw [SplitResult.username, info]; rfl, by rw [SplitResult.password, info]; rfl⟩

/-- A proxy in the office network. -/
def officeProxy (user password : List Char) : List Char :=
  address "http://".toList user password "10.0.0.1:8000".toList

/-- A plain user name and two plain passwords. -/
theorem passwords_hidden_iff_plain :
    mask asciiTables (officeProxy "user".toList "secret".toList) =
        mask asciiTables (officeProxy "user".toList "public".toList) ∧
      ∀ before after, scrub asciiTables (before ++ officeProxy "user".toList "secret".toList ++ after) =
        scrub asciiTables (before ++ officeProxy "user".toList "public".toList ++ after) :=
  (passwords_hidden_iff (by decide +kernel) (by decide +kernel)
    (proxy_of_split ⟨"http".toList, "user:secret@10.0.0.1:8000".toList, [], [], []⟩
      (by decide +kernel) (by decide +kernel) (by decide +kernel))
    (proxy_of_split ⟨"http".toList, "user:public@10.0.0.1:8000".toList, [], [], []⟩
      (by decide +kernel) (by decide +kernel) (by decide +kernel))).mpr (.inr (by decide +kernel))

/-- Without a user name the password stays in the journal. -/
theorem empty_user_shows :
    Proxy asciiTables "http://".toList [] "secret".toList "10.0.0.1:8000".toList ∧
      Proxy asciiTables "http://".toList [] "public".toList "10.0.0.1:8000".toList ∧
      scrub asciiTables (officeProxy [] "secret".toList) = "http://:secret@10.0.0.1:8000".toList ∧
      scrub asciiTables (officeProxy [] "public".toList) = "http://:public@10.0.0.1:8000".toList :=
  ⟨proxy_of_split ⟨"http".toList, ":secret@10.0.0.1:8000".toList, [], [], []⟩
      (by decide +kernel) (by decide +kernel) (by decide +kernel),
    proxy_of_split ⟨"http".toList, ":public@10.0.0.1:8000".toList, [], [], []⟩
      (by decide +kernel) (by decide +kernel) (by decide +kernel),
    by decide +kernel, by decide +kernel⟩

end ScanApi.ProxyPasswords
