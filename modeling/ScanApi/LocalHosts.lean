import ScanApi.MapM
import ScanApi.ProxyUrls

/-!
What the host of a proxy denotes. The system reads a host of one to four numbers,
which may be octal or hexadecimal, as an IPv4 address (`inet_aton`). The list of
proxies knows such an address only where it is written as four decimal numbers
without leading zeros, and `localhost` only without a dot behind it.
-/
namespace ScanApi.LocalHosts
open ScanApi.MapM ScanApi.IpAddress ScanApi.Unicode ScanApi.UrlSplit ScanApi.ProxyUrls

/-! ### Hosts as the system reads them -/

/-- The number that digits of a base write. -/
def readBase (base : Nat) (digits : List Char) : Option Nat :=
  if digits = [] then none
  else do
    let values ← digits.mapM hexValue
    if values.all (· < base) then some (values.foldl (fun n d => base * n + d) 0) else none

/-- Hexadecimal after `0x`, octal after a zero, else decimal. -/
def atonPart : List Char → Option Nat
  | '0' :: 'x' :: digits => readBase 16 digits
  | '0' :: 'X' :: digits => readBase 16 digits
  | '0' :: c :: digits => readBase 8 (c :: digits)
  | digits => readBase 10 digits

/-- All parts but the last are bytes; the last one fills what is left. -/
def joinParts (values : List Nat) : Option Nat :=
  let last := values.getLastD 0
  let rest := 256 ^ (5 - values.length)
  if values.length ≤ 4 ∧ values.dropLast.all (· < 256) ∧ last < rest then
    some (values.dropLast.foldl (fun n v => 256 * n + v) 0 * rest + last)
  else none

/-- `inet_aton(text)`, if it does not refuse. -/
def inetAton (text : List Char) : Option Nat := (text.splitOn '.').mapM atonPart >>= joinParts

def isLocalAddress (ip : Address) : Bool := ip.isLoopback || ip.isLinkLocal || ip.isUnspecified

def isLocalhost (name : List Char) : Bool := name = "localhost".toList || ".localhost".toList.isSuffixOf name

def withoutDot (name : List Char) : List Char := if name.getLast? = some '.' then name.dropLast else name

/-- The host is this machine, link-local or unspecified. -/
inductive DenotesLocal (tables : TextTables) (host : List Char) : Prop
  | localhost : isLocalhost (withoutDot (tables.lower host)) = true → DenotesLocal tables host
  | number {ip : Nat} : inetAton host = some ip → isLocalAddress (.v4 ip) = true → DenotesLocal tables host
  | ipv6 {ip : Nat} : ipAddress host = some (.v6 ip) → isLocalAddress (Address.v6 ip).unmapped = true →
    DenotesLocal tables host

/-! ### Spellings -/

/-- A zero with something behind it: the number is octal or hexadecimal. -/
def LeadingZero (part : List Char) : Prop := part ≠ ['0'] ∧ part.head? = some '0'

/-- Fewer than four numbers, or one that is not decimal. -/
def Shorthand (host : List Char) : Prop :=
  (host.splitOn '.').length ≠ 4 ∨ ∃ part ∈ host.splitOn '.', LeadingZero part

/-- A local host in a spelling that the list of proxies does not know. -/
inductive Disguised (tables : TextTables) (host : List Char) : Prop
  | dotted : (tables.lower host).getLast? = some '.' → isLocalhost (tables.lower host).dropLast = true → Disguised tables host
  | number {ip : Nat} : Shorthand host → inetAton host = some ip → isLocalAddress (.v4 ip) = true → Disguised tables host

example : inetAton "127.1".toList = some (127 * 2 ^ 24 + 1) := by decide
example : inetAton "0x7f.0.0.01".toList = some (127 * 2 ^ 24 + 1) := by decide
example : inetAton "08.0.0.1".toList = none := by decide

theorem hexValue_decimal {c : Char} {d : Nat} (read : hexValue c = some d) (small : d < 10) :
    isDigit c = true ∧ c.toNat - 48 = d := by
  unfold hexValue at read
  split at read
  · rename_i digit
    exact ⟨digit, Option.some.inj read⟩
  · split at read
    · have := Option.some.inj read; omega
    · split at read
      · have := Option.some.inj read; omega
      · cases read

theorem foldl_decimal {digits : List Char} {values : List Nat} (read : digits.mapM hexValue = some values)
    (small : values.all (· < 10) = true) (start : Nat) :
    digits.all isDigit = true ∧
      digits.foldl (fun n c => 10 * n + (c.toNat - 48)) start = values.foldl (fun n d => 10 * n + d) start := by
  induction digits generalizing values start with
  | nil =>
    obtain rfl : [] = values := by simpa using read
    simp
  | cons c rest ih =>
    obtain ⟨d, others, first, further, rfl⟩ := mapM_cons_some.mp read
    obtain ⟨low, lower⟩ : d < 10 ∧ others.all (· < 10) = true := by simpa using small
    obtain ⟨digit, value⟩ := hexValue_decimal first low
    obtain ⟨digits, folded⟩ := ih further lower (10 * start + d)
    rw [List.all_cons, digit, digits, List.foldl_cons, List.foldl_cons, value]
    exact ⟨rfl, folded⟩

/-- The first digit stands for at least its power of ten. -/
theorem le_foldl_decimal (values : List Nat) (start : Nat) :
    start * 10 ^ values.length ≤ values.foldl (fun n d => 10 * n + d) start := by
  induction values generalizing start with
  | nil => simp
  | cons d rest ih =>
    have step := ih (10 * start + d)
    have more : 10 * start * 10 ^ rest.length ≤ (10 * start + d) * 10 ^ rest.length :=
      Nat.mul_le_mul_right _ (Nat.le_add_right _ _)
    rw [List.foldl_cons, List.length_cons, Nat.pow_succ]
    calc start * (10 ^ rest.length * 10) = 10 * start * 10 ^ rest.length := by
          rw [Nat.mul_comm _ 10, ← Nat.mul_assoc, Nat.mul_comm start 10]
      _ ≤ (10 * start + d) * 10 ^ rest.length := more
      _ ≤ _ := step

/-- Without a leading zero, more than three digits write more than a byte. -/
theorem length_of_byte {part : List Char} {values : List Nat} (read : part.mapM hexValue = some values)
    (small : values.all (· < 10) = true) (byte : values.foldl (fun n d => 10 * n + d) 0 < 256) (plain : ¬ LeadingZero part) :
    part.length ≤ 3 := by
  cases part with
  | nil => exact Nat.zero_le _
  | cons c rest =>
    obtain ⟨d, others, first, further, rfl⟩ := mapM_cons_some.mp read
    obtain ⟨low, -⟩ : d < 10 ∧ others.all (· < 10) = true := by simpa using small
    obtain ⟨digit, value⟩ := hexValue_decimal first low
    have same : rest.length = others.length := length_mapM further
    by_cases zero : c = '0'
    · subst zero
      have alone : rest = [] := by
        by_contra more
        exact plain ⟨by simpa using more, rfl⟩
      rw [alone]
      decide
    · have positive : 1 ≤ d := by
        have code : 48 ≤ c.toNat ∧ c.toNat < 58 := by simpa [isDigit] using digit
        have other : c.toNat ≠ 48 := fun same => zero (Char.toNat_inj.mp same)
        omega
      have bound := le_foldl_decimal others (10 * 0 + d)
      by_contra long
      have power : 10 ^ 3 ≤ 10 ^ others.length := Nat.pow_le_pow_right (by decide) (by simp at long; omega)
      have product : 1 * 10 ^ 3 ≤ (10 * 0 + d) * 10 ^ others.length := Nat.mul_le_mul (by omega) power
      rw [List.foldl_cons] at byte
      omega

/-- A decimal byte is an octet of `ipaddress`. -/
theorem parseOctet_of_readBase {part : List Char} {v : Nat} (number : readBase 10 part = some v) (byte : v < 256)
    (plain : ¬ LeadingZero part) : parseOctet part = some v := by
  unfold readBase at number
  split at number
  · cases number
  · rename_i filled
    obtain ⟨values, read, number⟩ := Option.bind_eq_some_iff.mp number
    split at number
    · rename_i small
      obtain rfl := Option.some.inj number
      obtain ⟨digits, folded⟩ := foldl_decimal read small 0
      have short : ¬ 3 < part.length := Nat.not_lt.mpr (length_of_byte read small byte plain)
      have other : ¬ (part ≠ ['0'] ∧ part.head? = some '0') := plain
      rw [parseOctet, if_neg (by simp only [filled, short, digits, other]; decide), folded]
      exact if_pos (by omega)
    · cases number

theorem atonPart_of_plain {part : List Char} (plain : ¬ LeadingZero part) : atonPart part = readBase 10 part := by
  unfold atonPart
  split
  · exact absurd ⟨by simp, rfl⟩ plain
  · exact absurd ⟨by simp, rfl⟩ plain
  · exact absurd ⟨by simp, rfl⟩ plain
  · rfl

theorem parseOctet_of_atonPart {part : List Char} {v : Nat} (number : atonPart part = some v) (byte : v < 256)
    (plain : ¬ LeadingZero part) : parseOctet part = some v :=
  parseOctet_of_readBase ((atonPart_of_plain plain).symm.trans number) byte plain

/-- Four plain decimal numbers are read as the system reads them. -/
theorem parseIpv4_of_inetAton {text : List Char} {ip : Nat} (read : inetAton text = some ip) (plain : ¬ Shorthand text) :
    parseIpv4 text = some ip := by
  obtain ⟨values, numbers, joined⟩ := Option.bind_eq_some_iff.mp read
  have four : (text.splitOn '.').length = 4 := by
    by_contra other
    exact plain (.inl other)
  have parts : ∀ part ∈ text.splitOn '.', ¬ LeadingZero part := fun part member zero => plain (.inr ⟨part, member, zero⟩)
  rw [parseIpv4]
  generalize text.splitOn '.' = split at numbers four parts ⊢
  obtain ⟨a, b, c, d, rfl⟩ := List.length_eq_four.mp four
  obtain ⟨v, _, first, three, rfl⟩ := mapM_cons_some.mp numbers
  obtain ⟨w, _, second, two, rfl⟩ := mapM_cons_some.mp three
  obtain ⟨x, _, third, one, rfl⟩ := mapM_cons_some.mp two
  obtain ⟨y, _, fourth, none, rfl⟩ := mapM_cons_some.mp one
  obtain rfl := Option.some.inj none
  simp only [joinParts] at joined
  split at joined
  · rename_i bytes
    obtain ⟨-, upper, last⟩ := bytes
    have upper : v < 256 ∧ w < 256 ∧ x < 256 := by simpa using upper
    have last : y < 256 := by simpa using last
    have octets : [a, b, c, d].mapM parseOctet = some [v, w, x, y] := by
      refine mapM_cons_some.mpr ⟨v, _, parseOctet_of_atonPart first upper.1 (parts a (by simp)), ?_, rfl⟩
      refine mapM_cons_some.mpr ⟨w, _, parseOctet_of_atonPart second upper.2.1 (parts b (by simp)), ?_, rfl⟩
      refine mapM_cons_some.mpr ⟨x, _, parseOctet_of_atonPart third upper.2.2 (parts c (by simp)), ?_, rfl⟩
      exact mapM_cons_some.mpr ⟨y, _, parseOctet_of_atonPart fourth last (parts d (by simp)), rfl, rfl⟩
    rw [octets, ← joined]
    simp [Nat.mul_comm]
  · cases joined

theorem exists_part_of_mem {sep c : Char} (other : c ≠ sep) : ∀ {text : List Char}, c ∈ text →
    ∃ part ∈ text.splitOn sep, c ∈ part := by
  intro text
  induction text with
  | nil => intro member; cases member
  | cons first rest ih =>
    intro member
    rw [List.splitOn_cons_eq_if_modifyHead]
    by_cases cut : first = sep
    · have inside : c ∈ rest := (List.mem_cons.mp member).resolve_left (fun same => other (same.trans cut))
      obtain ⟨part, among, here⟩ := ih inside
      exact ⟨part, by simp [cut, among], here⟩
    · cases parts : rest.splitOn sep with
      | nil => exact absurd parts (List.splitOn_ne_nil _ _)
      | cons head tail =>
        rw [parts] at ih
        rcases List.mem_cons.mp member with rfl | inside
        · exact ⟨c :: head, by simp [cut], List.mem_cons_self⟩
        · obtain ⟨part, among, here⟩ := ih inside
          rcases List.mem_cons.mp among with rfl | among
          · exact ⟨first :: part, by simp [cut], List.mem_cons_of_mem _ here⟩
          · exact ⟨part, by simp [cut, among], here⟩

theorem parseOctet_digits {part : List Char} {v : Nat} (read : parseOctet part = some v) : part.all isDigit = true := by
  rw [parseOctet] at read
  split at read
  · cases read
  · rename_i fine
    simp only [not_or] at fine
    simpa using fine.2.2.1

/-- An IPv4 address is read as such: it has no slash. -/
theorem ipAddress_of_parseIpv4 {text : List Char} {ip : Nat} (read : parseIpv4 text = some ip) :
    ipAddress text = some (.v4 ip) := by
  obtain ⟨octets, numbers, -⟩ := Option.bind_eq_some_iff.mp read
  have solid : '/' ∉ text := by
    intro slash
    have other : '/' ≠ '.' := by decide
    obtain ⟨part, among, here⟩ := exists_part_of_mem other slash
    obtain ⟨v, octet⟩ := mapM_all numbers among
    exact absurd (List.all_eq_true.mp (parseOctet_digits octet) '/' here) (by decide)
  rw [ipAddress, if_neg solid, read]
  rfl

/-! ### Addresses that are taken -/

variable {tables : TextTables} {host : List Char}

/-- A host that is taken and denotes a local address is written in a disguise. -/
theorem disguised_of_denotes (remote : isLocal tables host = false) (denotes : DenotesLocal tables host) :
    Disguised tables host := by
  obtain ⟨named, known⟩ := Bool.or_eq_false_iff.mp remote
  cases denotes with
  | localhost name =>
    rw [withoutDot] at name
    split at name
    · rename_i dot
      exact .dotted dot name
    · exact absurd (named.symm.trans name) (by decide)
  | @number ip read isLocalIp =>
    by_cases short : Shorthand host
    · exact .number short read isLocalIp
    · have canonical := parseIpv4_of_inetAton read short
      rw [ipAddress_of_parseIpv4 canonical] at known
      exact absurd (known.symm.trans isLocalIp) (by decide)
  | @ipv6 ip read isLocalIp =>
    rw [read] at known
    exact absurd (known.symm.trans isLocalIp) (by decide)

theorem denotes_of_disguised (disguised : Disguised tables host) : DenotesLocal tables host := by
  cases disguised with
  | dotted dot name => exact .localhost (by rw [withoutDot, if_pos dot]; exact name)
  | number _ read isLocalIp => exact .number read isLocalIp

/-- An address that is taken points elsewhere exactly where its host is not a local one in disguise. -/
theorem accepted_remote_iff {tables : TextTables} {raw url : List Char} (taken : validateUrl tables raw = .ok url) :
    ∃ parts, urlsplit tables url = .ok parts ∧
      (¬ DenotesLocal tables ((parts.hostname tables).getD []) ↔ ¬ Disguised tables ((parts.hostname tables).getD [])) := by
  obtain ⟨-, parts, ok⟩ := validateUrl_ok.mp taken
  exact ⟨parts, ok.split, not_congr ⟨disguised_of_denotes ok.remote, denotes_of_disguised⟩⟩

theorem accepted_remote_office : ∃ parts, urlsplit asciiTables "http://10.0.0.5:3128".toList = .ok parts ∧
    ¬ DenotesLocal asciiTables ((parts.hostname asciiTables).getD []) := by
  have taken : validateUrl asciiTables "http://10.0.0.5:3128".toList = .ok "http://10.0.0.5:3128".toList := by rfl
  have split : urlsplit asciiTables "http://10.0.0.5:3128".toList =
      .ok ⟨"http".toList, "10.0.0.5:3128".toList, [], [], []⟩ := by rfl
  obtain ⟨parts, same, iff⟩ := accepted_remote_iff taken
  obtain rfl := Except.ok.inj (split.symm.trans same)
  refine ⟨_, split, iff.mpr ?_⟩
  rintro (⟨dot, -⟩ | ⟨-, read, isLocalIp⟩)
  · exact absurd dot (by decide)
  · have number : inetAton "10.0.0.5".toList = some (10 * 2 ^ 24 + 5) := by decide
    obtain rfl := Option.some.inj (number.symm.trans read)
    exact absurd isLocalIp (by decide)

/-- `http://127.1:8080` is taken, and is this machine. -/
theorem loopback_taken : validateUrl asciiTables "http://127.1:8080".toList = .ok "http://127.1:8080".toList ∧
    ∃ parts, urlsplit asciiTables "http://127.1:8080".toList = .ok parts ∧
      DenotesLocal asciiTables ((parts.hostname asciiTables).getD []) := by
  have number : inetAton "127.1".toList = some (127 * 2 ^ 24 + 1) := by decide
  exact ⟨by rfl, ⟨"http".toList, "127.1:8080".toList, [], [], []⟩, by rfl, .number number (by decide)⟩

end ScanApi.LocalHosts
