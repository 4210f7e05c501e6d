import ScanApi.Percent
import ScanApi.UrlSplit

/-!
The address of the database (`Settings.db_dsn` of `app/config.py`). User name and
password are percent-encoded, so whatever characters they have, the address is taken
apart into the settings it was made of.
-/
namespace ScanApi.Dsn
open ScanApi.Python ScanApi.Partition ScanApi.Unicode ScanApi.UrlSplit ScanApi.Percent

/-- The database's part of the settings, with its defaults. -/
structure Settings where
  dbHost : String := "localhost"
  dbPort : Int := 5432
  dbUser : String := "bankmon"
  dbPassword : String := ""
  dbName : String := "system_monitoring"

def dbDsn (settings : Settings) : List Char :=
  "postgresql://".toList ++ ((quote alwaysSafe settings.dbUser ++ ':' :: quote alwaysSafe settings.dbPassword) ++
    '@' :: (settings.dbHost.toList ++ ':' :: (toString settings.dbPort).toList) ++ '/' :: settings.dbName.toList)

/-- A character of a host name. -/
def hostChar (c : Char) : Bool := c.isAlphanum || c = '-' || c = '.' || c = '_'

/-- What an address can say: a host by its name or IPv4 address, a port that there is,
    and a name of a database that neither ends a path nor is cut out of an address. -/
structure Addressable (settings : Settings) : Prop where
  host : settings.dbHost ≠ ""
  hostChars : ∀ c ∈ settings.dbHost.toList, hostChar c = true
  port : 0 ≤ settings.dbPort ∧ settings.dbPort ≤ 65535
  name : ∀ c ∈ settings.dbName.toList, c ≠ '?' ∧ c ≠ '#' ∧ unsafeChar c = false

/-- What a reader of addresses makes of one: each part is the setting, the encoded ones once they are decoded. -/
structure ReadsBack (tables : TextTables) (settings : Settings) (parts : SplitResult) : Prop where
  scheme : parts.scheme = "postgresql".toList
  user : parts.username.bind unquote = some settings.dbUser
  password : parts.password.bind unquote = some settings.dbPassword
  host : parts.hostname tables = some (tables.lower settings.dbHost.toList)
  port : parts.port = .ok (some settings.dbPort.toNat)
  path : parts.path = '/' :: settings.dbName.toList
  query : parts.query = []
  fragment : parts.fragment = []

/-! ### Characters -/

/-- What is encoded has no separator of an address, nor anything that `urlsplit` looks at. -/
def Quiet (c : Char) : Prop :=
  c.toNat < 128 ∧ netlocChar c = true ∧ unsafeChar c = false ∧ c ≠ ':' ∧ c ≠ '@' ∧ c ≠ '[' ∧ c ≠ ']'

instance (c : Char) : Decidable (Quiet c) := inferInstanceAs (Decidable (_ ∧ _))

theorem quiet_quote (text : String) : ∀ c ∈ quote alwaysSafe text, Quiet c :=
  quote_chars (forall_alwaysSafe (P := fun n => Quiet (Char.ofNat n)) (by decide +kernel)) (by decide) (by decide +kernel) text

/-- A class of ASCII characters can be checked character by character. -/
theorem quiet_of_ascii {p : Char → Bool} (checked : ∀ n < 128, p (Char.ofNat n) = true → Quiet (Char.ofNat n)) {c : Char}
    (ascii : c.toNat < 128) (member : p c = true) : Quiet c := by
  have same : Char.ofNat c.toNat = c := Char.ofNat_toNat c
  rw [← same]
  exact checked c.toNat ascii (by rwa [same])

theorem quiet_hostChar {c : Char} (host : hostChar c = true) : Quiet c := by
  refine quiet_of_ascii (p := hostChar) (by decide +kernel) ?_ host
  simp only [hostChar, Char.isAlphanum, Bool.or_eq_true, decide_eq_true_eq] at host
  rcases host with (((letter | digit) | rfl) | rfl) | rfl
  · have bounds := isAlpha_iff_toNat.mp letter
    omega
  · have bounds : c.toNat ≤ '9'.toNat := (Char.isDigit_iff_toNat.mp digit).2
    exact Nat.lt_of_le_of_lt bounds (by decide)
  all_goals decide

theorem quiet_digit {c : Char} (digit : IpAddress.isDigit c = true) : Quiet c := by
  refine quiet_of_ascii (p := IpAddress.isDigit) (by decide +kernel) ?_ digit
  simp only [IpAddress.isDigit, Bool.and_eq_true, decide_eq_true_eq] at digit
  omega

/-! ### The port -/

/-- The digits of a number are read as that number. -/
theorem port_repr (n : Nat) : n.repr.toList.all IpAddress.isDigit = true ∧
    n.repr.toList.foldl (fun n c => 10 * n + (c.toNat - 48)) 0 = n := by
  induction n using Nat.strong_induction_on with
  | _ n ih =>
    by_cases small : n < 10
    · have code : n.digitChar.toNat = 48 + n := Nat.toNat_digitChar_of_lt_ten small
      simp [Nat.repr_of_lt small, IpAddress.isDigit, code]
      omega
    · have last : n % 10 < 10 := Nat.mod_lt n (by decide)
      have code : (n % 10).digitChar.toNat = 48 + n % 10 := Nat.toNat_digitChar_of_lt_ten last
      obtain ⟨digits, read⟩ := ih (n / 10) (by omega)
      rw [Nat.repr_of_ge (by omega), String.toList_append, List.all_append, List.foldl_append, digits, read]
      simp [IpAddress.isDigit, code]
      omega

/-! ### The address -/

section
variable {tables : TextTables} {settings : Settings}

/-- User name and password, and host and port. -/
def userinfoOf (settings : Settings) : List Char :=
  quote alwaysSafe settings.dbUser ++ ':' :: quote alwaysSafe settings.dbPassword

def hostportOf (settings : Settings) : List Char := settings.dbHost.toList ++ ':' :: (toString settings.dbPort).toList

theorem quiet_userinfo (settings : Settings) : ∀ c ∈ userinfoOf settings, c = ':' ∨ Quiet c := by
  intro c member
  rcases List.mem_append.mp member with user | rest
  · exact .inr (quiet_quote _ c user)
  · rcases List.mem_cons.mp rest with colon | password
    · exact .inl colon
    · exact .inr (quiet_quote _ c password)

theorem port_text (addressable : Addressable settings) :
    toString settings.dbPort = settings.dbPort.toNat.repr := by
  obtain ⟨n, number⟩ := Int.eq_ofNat_of_zero_le addressable.port.1
  rw [number]
  rfl

theorem quiet_hostport (addressable : Addressable settings) : ∀ c ∈ hostportOf settings, c = ':' ∨ Quiet c := by
  intro c member
  rcases List.mem_append.mp member with host | rest
  · exact .inr (quiet_hostChar (addressable.hostChars c host))
  · rcases List.mem_cons.mp rest with colon | port
    · exact .inl colon
    · rw [port_text addressable] at port
      exact .inr (quiet_digit (List.all_eq_true.mp (port_repr _).1 c port))

/-- What no quiet character is and no colon. -/
theorem absent_of_quiet {text : List Char} {c : Char} (quiet : ∀ c ∈ text, c = ':' ∨ Quiet c) (other : c ≠ ':')
    (loud : ¬ Quiet c) : c ∉ text := by
  intro inside
  rcases quiet c inside with colon | same
  · exact other colon
  · exact loud same

/-- The network location of the address. -/
def netlocOf (settings : Settings) : List Char := userinfoOf settings ++ '@' :: hostportOf settings

theorem netloc_chars (addressable : Addressable settings) :
    ∀ c ∈ netlocOf settings, c.toNat < 128 ∧ netlocChar c = true ∧ unsafeChar c = false ∧ c ≠ '[' ∧ c ≠ ']' := by
  have colon : ':'.toNat < 128 ∧ netlocChar ':' = true ∧ unsafeChar ':' = false ∧ ':' ≠ '[' ∧ ':' ≠ ']' := by decide
  have ampersat : '@'.toNat < 128 ∧ netlocChar '@' = true ∧ unsafeChar '@' = false ∧ '@' ≠ '[' ∧ '@' ≠ ']' := by decide
  have quiet : ∀ c, c = ':' ∨ Quiet c →
      c.toNat < 128 ∧ netlocChar c = true ∧ unsafeChar c = false ∧ c ≠ '[' ∧ c ≠ ']' := by
    rintro c (rfl | ⟨ascii, inside, safe, -, -, left, right⟩)
    · exact colon
    · exact ⟨ascii, inside, safe, left, right⟩
  intro c member
  rcases List.mem_append.mp member with user | rest
  · exact quiet c (quiet_userinfo settings c user)
  · rcases List.mem_cons.mp rest with rfl | host
    · exact ampersat
    · exact quiet c (quiet_hostport addressable c host)

/-- The address laid out. -/
def layoutOf (addressable : Addressable settings) : Layout where
  lead := []
  name := "postgresql".toList
  netloc := netlocOf settings
  rest := '/' :: settings.dbName.toList
  lead_c0 _ member := nomatch member
  name_head := by decide
  name_chars := by decide
  netloc_chars c member := (netloc_chars addressable c member).2.1
  rest_head := rfl

theorem text_layout (addressable : Addressable settings) : (layoutOf addressable).text = dbDsn settings := by
  have scheme : "postgresql".toList ++ [':', '/', '/'] = "postgresql://".toList := by decide +kernel
  calc (layoutOf addressable).text
    _ = "postgresql".toList ++ ([':', '/', '/'] ++ (netlocOf settings ++ '/' :: settings.dbName.toList)) := rfl
    _ = "postgresql://".toList ++ (netlocOf settings ++ '/' :: settings.dbName.toList) := by
      rw [← List.append_assoc]
      exact congrArg (· ++ _) scheme
    _ = dbDsn settings := rfl

theorem safe_dsn (addressable : Addressable settings) : ∀ c ∈ (layoutOf addressable).text, unsafeChar c = false := by
  intro c member
  simp only [Layout.text, layoutOf, List.nil_append, List.mem_append, List.mem_cons] at member
  rcases member with scheme | rfl | rfl | rfl | netloc | rfl | name
  · have letters : "postgresql".toList.all (!unsafeChar ·) = true := by decide +kernel
    simpa using List.all_eq_true.mp letters c scheme
  · decide
  · decide
  · decide
  · exact (netloc_chars addressable c netloc).2.2.1
  · decide
  · exact (addressable.name c name).2.2

theorem split_dsn (addressable : Addressable settings) : urlsplit tables (dbDsn settings) = .ok (layoutOf addressable).parts := by
  have chars := netloc_chars addressable
  have left : '[' ∉ netlocOf settings := fun inside => (chars _ inside).2.2.2.1 rfl
  have right : ']' ∉ netlocOf settings := fun inside => (chars _ inside).2.2.2.2 rfl
  rw [← text_layout addressable]
  refine urlsplit_text _ (safe_dsn addressable) ?_ ?_
  · change checkBrackets (netlocOf settings) = true
    simp [checkBrackets, left, right]
  · change checkNetloc tables (netlocOf settings) = true
    have ascii : (netlocOf settings).all (·.toNat < 128) = true :=
      List.all_eq_true.mpr (fun c member => decide_eq_true (chars c member).1)
    simp only [checkNetloc, ascii, Bool.true_or]

/-- Whatever characters the user name and the password have, the address of the
    database is taken apart into the settings that it was made of. -/
theorem dsn_reads_back (tables : TextTables) (settings : Settings) (addressable : Addressable settings) :
    ∃ parts, urlsplit tables (dbDsn settings) = .ok parts ∧ ReadsBack tables settings parts := by
  refine ⟨_, split_dsn addressable, ?_⟩
  have netloc : (layoutOf addressable).parts.netloc = userinfoOf settings ++ '@' :: hostportOf settings := rfl
  have plainHost : '@' ∉ hostportOf settings :=
    absent_of_quiet (quiet_hostport addressable) (by decide) (by decide)
  have bracketless : '[' ∉ hostportOf settings :=
    absent_of_quiet (quiet_hostport addressable) (by decide) (by decide)
  have userless : ':' ∉ quote alwaysSafe settings.dbUser := fun inside => (quiet_quote _ _ inside).2.2.2.1 rfl
  have colonless : ':' ∉ settings.dbHost.toList :=
    fun inside => (quiet_hostChar (addressable.hostChars _ inside)).2.2.2.1 rfl
  have userinfo : (layoutOf addressable).parts.userinfo =
      some (quote alwaysSafe settings.dbUser, some (quote alwaysSafe settings.dbPassword)) := by
    rw [SplitResult.userinfo, netloc, rpartition_append _ plainHost]
    exact congrArg some (partition_append userless _)
  have hostinfo : (layoutOf addressable).parts.hostinfo = (settings.dbHost.toList, (toString settings.dbPort).toList) := by
    rw [SplitResult.hostinfo, hostAndPort, netloc, rpartition_append _ plainHost]
    simp only [Option.map_some, Option.getD_some, partition_of_notMem bracketless]
    rw [cut, hostportOf, partition_append colonless]
    rfl
  have hashless : cut '#' ('/' :: settings.dbName.toList) = ('/' :: settings.dbName.toList, []) := by
    have absent : '#' ∉ '/' :: settings.dbName.toList := by
      simpa using fun inside => (addressable.name _ inside).2.1 rfl
    rw [cut, partition_of_notMem absent]
    rfl
  have queryless : cut '?' (cut '#' ('/' :: settings.dbName.toList)).1 = ('/' :: settings.dbName.toList, []) := by
    have absent : '?' ∉ '/' :: settings.dbName.toList := by
      simpa using fun inside => (addressable.name _ inside).1 rfl
    rw [hashless, cut, partition_of_notMem absent]
    rfl
  constructor
  case scheme =>
    have lower : "postgresql".toList.map Char.toLower = "postgresql".toList := by decide +kernel
    exact lower
  case user =>
    rw [SplitResult.username, userinfo]
    exact unquote_quote plain_alwaysSafe _
  case password =>
    rw [SplitResult.password, userinfo]
    exact unquote_quote plain_alwaysSafe _
  case host =>
    have unzoned : '%' ∉ settings.dbHost.toList := by
      intro inside
      exact absurd (addressable.hostChars _ inside) (by decide)
    have filled : settings.dbHost.toList ≠ [] := fun empty => addressable.host (String.toList_eq_nil_iff.mp empty)
    simp [SplitResult.hostname, hostinfo, filled, partition_of_notMem unzoned]
  case port =>
    obtain ⟨digits, read⟩ := port_repr settings.dbPort.toNat
    have filled : settings.dbPort.toNat.repr.toList ≠ [] := fun empty => Nat.repr_ne_empty (String.toList_eq_nil_iff.mp empty)
    have small : settings.dbPort.toNat ≤ 65535 := by have := addressable.port; omega
    have few : settings.dbPort.toNat.repr.toList.length ≤ maxStrDigits := by
      have short : settings.dbPort.toNat.repr.length ≤ 5 := (Nat.length_repr_le_iff (by decide)).mpr (by omega)
      exact short.trans (by decide)
    simp only [SplitResult.port, hostinfo, port_text addressable, read]
    rw [if_neg filled, if_pos ⟨digits, few⟩, if_pos small]
  case path => exact (congrArg Prod.fst queryless)
  case query => exact (congrArg Prod.snd queryless)
  case fragment => exact congrArg Prod.snd hashless

/-- A password of separators, and a user name that is not ASCII. -/
def awkward : Settings := { dbUser := "монитор", dbPassword := "p@ss:w/rd?#%41 [x]" }

theorem dsn_reads_back_awkward : ∃ parts, urlsplit asciiTables (dbDsn awkward) = .ok parts ∧ ReadsBack asciiTables awkward parts := by
  have addressable : Addressable awkward := by
    refine ⟨by decide, fun c member => ?_, by decide, fun c member => ?_⟩
    · have chars : awkward.dbHost.toList.all hostChar = true := by decide +kernel
      exact List.all_eq_true.mp chars c member
    · have chars : awkward.dbName.toList.all (fun c => decide (c ≠ '?' ∧ c ≠ '#' ∧ unsafeChar c = false)) = true := by
        decide +kernel
      exact of_decide_eq_true (List.all_eq_true.mp chars c member)
  exact dsn_reads_back asciiTables awkward addressable

end

end ScanApi.Dsn
