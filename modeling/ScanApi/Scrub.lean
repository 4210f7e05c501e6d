import ScanApi.ProxyUrls
import ScanApi.Regex

/-!
Credentials in the texts of the event journal (`scrub` of `app/event_log.py`).
What is hidden is found by a regular expression, while the password of a proxy is
what `urlsplit` finds: the two see the same password only where the user name is
not empty and neither of them gets in the way of the other with an `@`.
-/
namespace ScanApi.Scrub
open ScanApi.Regex ScanApi.Partition ScanApi.UrlSplit ScanApi.ProxyUrls

/-! ### The pattern -/

/-- `\w`. -/
def wordChar (tables : TextTables) (c : Char) : Bool := tables.isalnum c || c = '_'

/-- `[^/\s:@]`. -/
def userChar (tables : TextTables) (c : Char) : Bool := c ≠ '/' && !tables.isspace c && c ≠ ':' && c ≠ '@'

/-- `[^/\s@]`. -/
def passwordChar (tables : TextTables) (c : Char) : Bool := c ≠ '/' && !tables.isspace c && c ≠ '@'

/-- `(\w+://)[^/\s:@]+:[^/\s@]+@`. -/
def credentials (tables : TextTables) : Pattern :=
  .seq (.group 1 (.seq (.plus (wordChar tables)) (.literal "://".toList)))
    (.seq (.plus (userChar tables)) (.seq (.literal [':']) (.seq (.plus (passwordChar tables)) (.literal ['@']))))

def scrub (tables : TextTables) (text : List Char) : List Char :=
  sub (credentials tables) (fun way => (way.group 1).getD [] ++ "***@".toList) text

/-- What the pattern describes: a scheme, a user name and a password. -/
structure Credential (tables : TextTables) (scheme user password : List Char) : Prop where
  scheme_some : scheme ≠ []
  scheme_chars : ∀ c ∈ scheme, wordChar tables c = true
  user_some : user ≠ []
  user_chars : ∀ c ∈ user, userChar tables c = true
  password_some : password ≠ []
  password_chars : ∀ c ∈ password, passwordChar tables c = true

def spelled (scheme user password : List Char) : List Char :=
  scheme ++ ':' :: '/' :: '/' :: (user ++ ':' :: (password ++ ['@']))

variable {tables : TextTables} {scheme user password : List Char}

theorem spells_credentials {way : Way} : Spells (credentials tables) way ↔
    ∃ scheme user password, Credential tables scheme user password ∧
      way = ⟨spelled scheme user password, [(1, scheme ++ "://".toList)]⟩ := by
  constructor
  · rintro ⟨_, _, ⟨_, ⟨_, _, first, second, rfl⟩, rfl⟩,
      ⟨_, _, third, ⟨_, _, fourth, ⟨_, _, fifth, sixth, rfl⟩, rfl⟩, rfl⟩, rfl⟩
    obtain ⟨scheme, some₁, all₁, rfl⟩ := spells_plus.mp first
    obtain rfl := spells_literal.mp second
    obtain ⟨user, some₂, all₂, rfl⟩ := spells_plus.mp third
    obtain rfl := spells_literal.mp fourth
    obtain ⟨password, some₃, all₃, rfl⟩ := spells_plus.mp fifth
    obtain rfl := spells_literal.mp sixth
    exact ⟨scheme, user, password, ⟨some₁, all₁, some₂, all₂, some₃, all₃⟩, by simp [spelled]⟩
  · rintro ⟨scheme, user, password, found, rfl⟩
    have first : Spells (.plus (wordChar tables)) ⟨scheme, []⟩ :=
      spells_plus.mpr ⟨scheme, found.scheme_some, found.scheme_chars, rfl⟩
    have second : Spells (.plus (userChar tables)) ⟨user, []⟩ :=
      spells_plus.mpr ⟨user, found.user_some, found.user_chars, rfl⟩
    have third : Spells (.plus (passwordChar tables)) ⟨password, []⟩ :=
      spells_plus.mpr ⟨password, found.password_some, found.password_chars, rfl⟩
    refine ⟨_, _, ⟨_, ⟨_, _, first, spells_literal.mpr rfl, rfl⟩, rfl⟩,
      ⟨_, _, second, ⟨_, _, spells_literal.mpr rfl, ⟨_, _, third, spells_literal.mpr rfl, rfl⟩, rfl⟩, rfl⟩, ?_⟩
    simp [spelled]

/-! ### Characters -/

theorem colon_not_word : wordChar tables ':' = false := by
  rw [wordChar, tables.isalnum_ascii _ (by decide)]
  rfl

theorem slash_not_word : wordChar tables '/' = false := by
  rw [wordChar, tables.isalnum_ascii _ (by decide)]
  rfl

theorem at_not_word : wordChar tables '@' = false := by
  rw [wordChar, tables.isalnum_ascii _ (by decide)]
  rfl

/-- A character that a class does not have. -/
theorem notMem_of_all {accepts : Char → Bool} {run : List Char} {c : Char} (all : ∀ d ∈ run, accepts d = true)
    (outside : accepts c = false) : c ∉ run := fun inside => by
  rw [all c inside] at outside
  cases outside

namespace Credential
variable (found : Credential tables scheme user password)
include found

theorem colon_notMem_scheme : ':' ∉ scheme := notMem_of_all found.scheme_chars colon_not_word
theorem colon_notMem_user : ':' ∉ user := notMem_of_all found.user_chars (by simp [userChar])
theorem at_notMem_user : '@' ∉ user := notMem_of_all found.user_chars (by simp [userChar])
theorem at_notMem_password : '@' ∉ password := notMem_of_all found.password_chars (by simp [passwordChar])

theorem slash_notMem : '/' ∉ user ++ ':' :: (password ++ ['@']) := by
  have user : '/' ∉ user := notMem_of_all found.user_chars (by simp [userChar])
  have password : '/' ∉ password := notMem_of_all found.password_chars (by simp [passwordChar])
  simp [user, password]

/-- A text begins with one credential at most. -/
theorem unique {scheme' user' password' rest rest' : List Char} (other : Credential tables scheme' user' password')
    (same : spelled scheme user password ++ rest = spelled scheme' user' password' ++ rest') :
    scheme = scheme' ∧ user = user' ∧ password = password' ∧ rest = rest' := by
  simp only [spelled, List.append_assoc, List.cons_append] at same
  obtain ⟨schemes, behind⟩ := append_cons_inj_left found.colon_notMem_scheme other.colon_notMem_scheme same
  obtain ⟨users, behind⟩ := append_cons_inj_left found.colon_notMem_user other.colon_notMem_user
    (List.cons.inj (List.cons.inj behind).2).2
  obtain ⟨passwords, behind⟩ := append_cons_inj_left found.at_notMem_password other.at_notMem_password behind
  exact ⟨schemes, users, passwords, behind⟩

end Credential

/-! ### What is hidden -/

theorem credentials_free : (credentials tables).anchorFree = true := rfl

/-- Credentials at the beginning of a text are hidden. -/
theorem scrub_spelled (found : Credential tables scheme user password) (rest : List Char) :
    scrub tables (spelled scheme user password ++ rest) = scheme ++ "://***@".toList ++ scrub tables rest := by
  have way : matchAt (credentials tables) none (spelled scheme user password ++ rest) =
      some ⟨spelled scheme user password, [(1, scheme ++ "://".toList)]⟩ := by
    refine matchAt_of_unique ?_ (fun other listed => ?_)
    · exact (mem_ways credentials_free).mpr ⟨spells_credentials.mpr ⟨_, _, _, found, rfl⟩, List.prefix_append _ _⟩
    · obtain ⟨spells, rest', split⟩ := (mem_ways credentials_free).mp listed
      obtain ⟨_, _, _, found', rfl⟩ := spells_credentials.mp spells
      obtain ⟨rfl, rfl, rfl, -⟩ := found.unique found' split.symm
      rfl
  rw [scrub, sub_found credentials_free way (by simp [spelled]) rfl]
  simp [Way.group, scrub]

/-- Where a text does not begin with credentials, its first character stays. -/
theorem scrub_cons {c : Char} {rest : List Char}
    (missed : ∀ scheme user password, Credential tables scheme user password →
      ¬ spelled scheme user password <+: c :: rest) :
    scrub tables (c :: rest) = c :: scrub tables rest := by
  refine sub_none credentials_free (matchAt_eq_none (fun way listed => ?_))
  obtain ⟨spells, start⟩ := (mem_ways credentials_free).mp listed
  obtain ⟨_, _, _, found, rfl⟩ := spells_credentials.mp spells
  exact missed _ _ _ found start

theorem scrub_cons_of_not_word {c : Char} {rest : List Char} (outside : wordChar tables c = false) :
    scrub tables (c :: rest) = c :: scrub tables rest := by
  refine scrub_cons (fun scheme user password found start => ?_)
  obtain ⟨d, more, rfl⟩ := List.exists_cons_of_ne_nil found.scheme_some
  obtain rfl : d = c := by simpa [spelled] using (List.cons_prefix_cons.mp start).1
  exact notMem_of_all found.scheme_chars outside List.mem_cons_self

/-- A text without a slash, up to an `@`, stays. -/
theorem scrub_plain {text : List Char} (plain : '/' ∉ text) (rest : List Char) :
    scrub tables (text ++ '@' :: rest) = text ++ '@' :: scrub tables rest := by
  induction text with
  | nil => exact scrub_cons_of_not_word at_not_word
  | cons c text ih =>
    obtain ⟨-, others⟩ := not_or.mp (List.mem_cons.not.mp plain)
    rw [List.cons_append, scrub_cons, ih others]
    · rfl
    · rintro scheme user password found ⟨rest', split⟩
      have cuts : (scheme ++ [':']) ++ '/' :: '/' :: (user ++ ':' :: (password ++ ['@']) ++ rest') =
          (c :: text) ++ '@' :: rest := by simpa [spelled] using split
      rcases mem_or_mem_of_ne (by decide) cuts with slash | at'
      · exact plain slash
      · have absent : '@' ∉ scheme := notMem_of_all found.scheme_chars at_not_word
        simp [absent] at at'

/-- A scheme behind which no user name and password stand stays. -/
theorem scrub_open {rest : List Char} (word : ∀ c ∈ scheme, wordChar tables c = true)
    (missed : ∀ scheme user password rest', Credential tables scheme user password →
      rest ≠ user ++ ':' :: (password ++ '@' :: rest')) :
    scrub tables (scheme ++ ':' :: '/' :: '/' :: rest) = scheme ++ ':' :: '/' :: '/' :: scrub tables rest := by
  induction scheme with
  | nil =>
    rw [List.nil_append, scrub_cons_of_not_word colon_not_word, scrub_cons_of_not_word slash_not_word,
      scrub_cons_of_not_word slash_not_word]
    rfl
  | cons c scheme ih =>
    rw [List.cons_append, scrub_cons, ih (fun d member => word d (List.mem_cons_of_mem c member))]
    · rfl
    · rintro scheme' user password found ⟨rest', split⟩
      have cuts : scheme' ++ ':' :: '/' :: '/' :: (user ++ ':' :: (password ++ '@' :: rest')) =
          (c :: scheme) ++ ':' :: '/' :: '/' :: rest := by simpa [spelled] using split
      obtain ⟨-, behind⟩ := append_cons_inj_left found.colon_notMem_scheme (notMem_of_all word colon_not_word) cuts
      exact missed scheme' user password rest' found (List.cons.inj (List.cons.inj behind).2).2.symm

/-! ### What stands before an address -/

theorem scheme_unique {scheme front rest rest' : List Char} (colon : ':' ∉ scheme) (slash : '/' ∉ rest)
    (same : scheme ++ ':' :: '/' :: '/' :: rest = front ++ ':' :: '/' :: rest') : scheme = front := by
  rcases List.append_eq_append_iff.mp same with ⟨mid, rfl, later⟩ | ⟨mid, rfl, later⟩
  · match mid, later with
    | [], _ => simp
    | [_], later => simp at later
    | [_, _], later => simp at later
    | _ :: _ :: _ :: mid, later =>
      obtain ⟨-, -, -, rfl⟩ : _ ∧ _ ∧ _ ∧ rest = mid ++ ':' :: '/' :: rest' := by simpa using later
      simp at slash
  · cases mid with
    | nil => simp
    | cons d mid =>
      obtain ⟨rfl, -⟩ := List.cons.inj later
      simp at colon

/-- Credentials that begin before a scheme end before it. -/
theorem ends_before {front run rest : List Char} (found : Credential tables scheme user password)
    (word : ∀ c ∈ run, wordChar tables c = true) (some' : front ≠ [])
    (edge : ∀ c, front.getLast? = some c → wordChar tables c = false)
    (start : spelled scheme user password <+: front ++ (run ++ ':' :: '/' :: rest)) :
    spelled scheme user password <+: front := by
  obtain ⟨rest', split⟩ := start
  rcases List.append_eq_append_iff.mp split with ⟨tail, rfl, -⟩ | ⟨tail, whole, behind⟩
  · exact List.prefix_append _ _
  -- Otherwise they would end in an '@' inside of the run, or reach into the slashes behind it.
  rcases List.eq_nil_or_concat' tail with rfl | ⟨tail, last, rfl⟩
  · rw [whole, List.append_nil]
  have ends : spelled scheme user password =
      (scheme ++ ':' :: '/' :: '/' :: (user ++ ':' :: password)) ++ ['@'] := by simp [spelled]
  obtain rfl : last = '@' := by
    have lasts := congrArg List.getLast? whole
    rw [ends, ← List.append_assoc, List.getLast?_concat, List.getLast?_concat] at lasts
    exact (Option.some.inj lasts).symm
  have outside : '@' ∉ run := notMem_of_all word at_not_word
  rcases List.append_eq_append_iff.mp behind with ⟨beyond, reached, further⟩ | ⟨beyond, rfl, -⟩
  · match beyond, further with
    | [], _ =>
      rw [List.append_nil] at reached
      simp [← reached] at outside
    | [colon], further =>
      have lasts := congrArg List.getLast? reached
      rw [List.getLast?_concat, List.getLast?_concat] at lasts
      obtain rfl := Option.some.inj lasts
      simp at further
    | _ :: _ :: beyond, further =>
      obtain ⟨rfl, rfl, -⟩ : _ ∧ _ ∧ _ := by simpa using further
      rw [reached, spelled, ← List.append_assoc] at whole
      have same : scheme = front ++ run := scheme_unique found.colon_notMem_scheme found.slash_notMem whole
      obtain ⟨c, last⟩ := Option.isSome_iff_exists.mp (List.getLast?_isSome.mpr some')
      have inside : c ∈ scheme := same ▸ List.mem_append_left run (List.mem_of_getLast? last)
      exact absurd inside (notMem_of_all found.scheme_chars (edge c last))
  · simp at outside

/-- What stands before a scheme is scrubbed on its own. -/
theorem scrub_append {run : List Char} (word : ∀ c ∈ run, wordChar tables c = true) (rest : List Char) :
    ∀ {front : List Char}, (∀ c, front.getLast? = some c → wordChar tables c = false) →
      scrub tables (front ++ (run ++ ':' :: '/' :: rest)) =
        scrub tables front ++ scrub tables (run ++ ':' :: '/' :: rest) := by
  intro front
  induction size : front.length using Nat.strong_induction_on generalizing front with
  | _ n ih =>
    intro edge
    cases front with
    | nil => rfl
    | cons c others =>
      by_cases begins : ∃ scheme user password, Credential tables scheme user password ∧
          spelled scheme user password <+: c :: others
      · obtain ⟨scheme, user, password, found, behind, split⟩ := begins
        have shorter : behind.length < n := by
          have lengths := congrArg List.length split
          have nonempty : 0 < (spelled scheme user password).length := by simp [spelled]
          simp only [List.length_append] at lengths
          omega
        have edge' : ∀ d, behind.getLast? = some d → wordChar tables d = false := by
          intro d last
          refine edge d ?_
          rw [← split, List.getLast?_append, last]
          rfl
        rw [← split, List.append_assoc, scrub_spelled found, scrub_spelled found, ih _ shorter rfl edge']
        simp only [List.append_assoc]
      · have missed : ∀ scheme user password, Credential tables scheme user password →
            ¬ spelled scheme user password <+: c :: others :=
          fun scheme user password found start => begins ⟨scheme, user, password, found, start⟩
        have edge' : ∀ d, others.getLast? = some d → wordChar tables d = false := by
          intro d last
          refine edge d ?_
          rw [← List.singleton_append, List.getLast?_append, last]
          rfl
        have rest_eq := ih others.length (by simp [← size]) rfl edge'
        rw [List.cons_append, scrub_cons, rest_eq, scrub_cons missed, List.cons_append]
        intro scheme user password found start
        exact missed scheme user password found (ends_before found word (List.cons_ne_nil c others) edge start)

/-! ### Addresses of proxies -/

/-- Whether the pattern finds the user name and the password that `urlsplit` finds, up to an `@` in the password. -/
def Found (user password : List Char) : Prop := user ≠ [] ∧ '@' ∉ user ∧ password.head? ≠ some '@'

instance (user password : List Char) : Decidable (Found user password) := inferInstanceAs (Decidable (_ ∧ _ ∧ _))

/-- What is left of a user name and a password. -/
def shown (user password : List Char) : List Char :=
  if Found user password then "***@".toList ++ (password.dropWhile (· ≠ '@') ++ ['@']).drop 1
  else user ++ ':' :: (password ++ ['@'])

/-- A user name and a password as they stand in an address that is taken. -/
structure UserInfo (tables : TextTables) (user password : List Char) : Prop where
  user_slash : '/' ∉ user
  user_colon : ':' ∉ user
  user_solid : ∀ c ∈ user, tables.isspace c = false
  password_slash : '/' ∉ password
  password_solid : ∀ c ∈ password, tables.isspace c = false
  password_some : password ≠ []

/-- The user name and the password up to an `@` are hidden. -/
theorem scrub_found (word : ∀ c ∈ scheme, wordChar tables c = true) (scheme_some : scheme ≠ [])
    (info : UserInfo tables user password) (found : Found user password) (rest : List Char) :
    scrub tables (scheme ++ ':' :: '/' :: '/' :: (user ++ ':' :: (password ++ '@' :: rest))) =
      scheme ++ "://".toList ++ shown user password ++ scrub tables rest := by
  obtain ⟨user_some, at_user, head⟩ := found
  have user_ok : ∀ c ∈ user, userChar tables c = true := by
    intro c member
    have slash : c ≠ '/' := fun same => info.user_slash (same ▸ member)
    have colon : c ≠ ':' := fun same => info.user_colon (same ▸ member)
    have at' : c ≠ '@' := fun same => at_user (same ▸ member)
    simp [userChar, slash, colon, info.user_solid c member, at']
  have password_ok : ∀ part ⊆ password, '@' ∉ part → ∀ c ∈ part, passwordChar tables c = true := by
    intro part within absent c member
    have slash : c ≠ '/' := fun same => info.password_slash (same ▸ within member)
    have at' : c ≠ '@' := fun same => absent (same ▸ member)
    simp [passwordChar, slash, info.password_solid c (within member), at']
  rw [shown, if_pos ⟨user_some, at_user, head⟩]
  rcases eq_or_partition '@' password with ⟨absent, -⟩ | ⟨first, tail, rfl, absent, -⟩
  · have credential : Credential tables scheme user password :=
      ⟨scheme_some, word, user_some, user_ok, info.password_some, password_ok password (List.Subset.refl _) absent⟩
    have hidden := scrub_spelled credential rest
    simp only [spelled, List.append_assoc, List.cons_append, List.nil_append] at hidden
    rw [hidden, dropWhile_of_notMem absent]
    simp
  · have first_some : first ≠ [] := by
      rintro rfl
      exact head rfl
    have credential : Credential tables scheme user first :=
      ⟨scheme_some, word, user_some, user_ok, first_some, password_ok first (List.subset_append_left _ _) absent⟩
    have plain : '/' ∉ tail := fun inside => info.password_slash (by simp [inside])
    have hidden := scrub_spelled credential (tail ++ '@' :: rest)
    simp only [spelled, List.append_assoc, List.cons_append, List.nil_append] at hidden ⊢
    rw [hidden, scrub_plain plain, dropWhile_append absent]
    simp

/-- Nothing is hidden. -/
theorem scrub_missed (word : ∀ c ∈ scheme, wordChar tables c = true) (info : UserInfo tables user password)
    (missed : ¬ Found user password) (rest : List Char) :
    scrub tables (scheme ++ ':' :: '/' :: '/' :: (user ++ ':' :: (password ++ '@' :: rest))) =
      scheme ++ "://".toList ++ shown user password ++ scrub tables rest := by
  have plain : '/' ∉ user ++ ':' :: password := by simp [info.user_slash, info.password_slash]
  have stays : scrub tables (user ++ ':' :: (password ++ '@' :: rest)) =
      user ++ ':' :: (password ++ '@' :: scrub tables rest) := by
    simpa using scrub_plain plain rest
  rw [scrub_open word, stays, shown, if_neg missed]
  · simp
  · intro _ user' password' rest' credential same
    obtain ⟨rfl, behind⟩ := append_cons_inj_left info.user_colon credential.colon_notMem_user same
    refine missed ⟨credential.user_some, credential.at_notMem_user, fun head => ?_⟩
    obtain ⟨more, rfl⟩ := List.head?_eq_some_iff.mp head
    obtain ⟨c, others, rfl⟩ := List.exists_cons_of_ne_nil credential.password_some
    obtain ⟨rfl, -⟩ := List.cons.inj behind
    exact credential.at_notMem_password List.mem_cons_self

end ScanApi.Scrub
