import ScanApi.IpAddress
import ScanApi.Partition
import ScanApi.Unicode

/-!
`urlsplit` and `urlunsplit` of Python's `urllib.parse`, and the user name, the
password, the host and the port that it finds in a network location. Only an
address of a text without blanks is taken apart further below.
-/
namespace ScanApi.UrlSplit
open ScanApi.Partition ScanApi.Python ScanApi.Unicode

instance lawfulText : LawfulBEq (List Char) := inferInstance

/-- What texts with addresses take besides digits and blanks. -/
structure TextTables extends CharTables where
  lower : List Char → List Char
  isalnum : Char → Bool
  /-- `unicodedata.normalize("NFKC", text)`. -/
  nfkc : List Char → List Char
  lower_ascii : ∀ text, (∀ c ∈ text, c.toNat < 128) → lower text = text.map Char.toLower
  isalnum_ascii : ∀ c, c.toNat < 128 → isalnum c = c.isAlphanum

/-- The tables on ASCII; other characters are left alone. -/
def asciiTables : TextTables where
  toCharTables := latin1
  lower text := text.map Char.toLower
  isalnum := Char.isAlphanum
  nfkc text := text
  lower_ascii _ _ := rfl
  isalnum_ascii _ _ := rfl

structure SplitResult where
  scheme : List Char
  netloc : List Char
  path : List Char
  query : List Char
  fragment : List Char
deriving DecidableEq, Repr

/-! ### Splitting -/

/-- What is cut off at the beginning of an address. -/
def c0OrSpace (c : Char) : Bool := c.toNat ≤ 32

/-- What is removed from the whole address. -/
def unsafeChar (c : Char) : Bool := c = '\t' || c = '\r' || c = '\n'

def schemeChar (c : Char) : Bool := c.isAlphanum || c = '+' || c = '-' || c = '.'

def splitScheme (url : List Char) : List Char × List Char :=
  match partition ':' url with
  | (name, some rest) =>
    if name.head?.any Char.isAlpha ∧ name.all schemeChar then (name.map Char.toLower, rest) else ([], url)
  | (_, none) => ([], url)

/-- What stands in a network location: it ends at the path, the query or the fragment. -/
def netlocChar (c : Char) : Bool := c ≠ '/' && c ≠ '?' && c ≠ '#'

def splitNetloc (url : List Char) : List Char × List Char :=
  if url.take 2 = ['/', '/'] then ((url.drop 2).takeWhile netlocChar, (url.drop 2).dropWhile netlocChar) else ([], url)

/-- The text before a separator and the one after it, which is empty without a separator. -/
def cut (sep : Char) (text : List Char) : List Char × List Char :=
  ((partition sep text).1, (partition sep text).2.getD [])

/-- A version and an address, `v1.abc`. -/
def ipvFuture (hostname : List Char) : Bool :=
  let version := (hostname.drop 1).takeWhile (fun c => (IpAddress.hexValue c).isSome)
  let address := (hostname.drop 1).dropWhile (fun c => (IpAddress.hexValue c).isSome)
  version ≠ [] && address.head? = some '.' && address.drop 1 ≠ [] && '\n' ∉ address

def checkBracketedHost (hostname : List Char) : Bool :=
  if hostname.head? = some 'v' then ipvFuture hostname
  else match IpAddress.ipAddress hostname with
    | some (.v6 _) => true
    | _ => false

/-- The network location behind the user and the password. -/
def hostAndPort (netloc : List Char) : List Char := ((rpartition '@' netloc).map Prod.snd).getD netloc

def checkBracketedNetloc (netloc : List Char) : Bool :=
  match partition '[' (hostAndPort netloc) with
  | (before, some bracketed) =>
    let (hostname, port) := partition ']' bracketed
    before = [] && port.all (fun port => port = [] || port.head? = some ':') && checkBracketedHost hostname
  | (plain, none) => checkBracketedHost (partition ':' plain).1

/-- Both brackets, in their places, or none. -/
def checkBrackets (netloc : List Char) : Bool :=
  if '[' ∈ netloc ∧ ']' ∈ netloc then checkBracketedNetloc netloc else '[' ∉ netloc && ']' ∉ netloc

/-- No character that becomes a delimiter when it is normalized. -/
def checkNetloc (tables : TextTables) (netloc : List Char) : Bool :=
  let plain := netloc.filter (fun c => c ∉ ['@', ':', '#', '?'])
  netloc.all (·.toNat < 128) || tables.nfkc plain = plain || (tables.nfkc plain).all (fun c => c ∉ ['/', '?', '#', '@', ':'])

def urlsplit (tables : TextTables) (url : List Char) : Except PyError SplitResult :=
  let (scheme, url) := splitScheme ((url.dropWhile c0OrSpace).filter (!unsafeChar ·))
  let (netloc, url) := splitNetloc url
  let (url, fragment) := cut '#' url
  let (path, query) := cut '?' url
  if checkBrackets netloc ∧ checkNetloc tables netloc then .ok ⟨scheme, netloc, path, query, fragment⟩
  else .error .valueError

/-- `urlunsplit(parts)`, where the network location is not empty. -/
def urlunsplit (parts : SplitResult) : List Char :=
  let path := if parts.path ≠ [] ∧ parts.path.head? ≠ some '/' then '/' :: parts.path else parts.path
  (if parts.scheme ≠ [] then parts.scheme ++ [':'] else []) ++ ('/' :: '/' :: parts.netloc) ++ path ++
    (if parts.query ≠ [] then '?' :: parts.query else []) ++ (if parts.fragment ≠ [] then '#' :: parts.fragment else [])

/-! ### The network location -/

namespace SplitResult
variable (parts : SplitResult)

/-- The user name and the password. -/
def userinfo : Option (List Char × Option (List Char)) :=
  (rpartition '@' parts.netloc).map (fun split => partition ':' split.1)

def username : Option (List Char) := parts.userinfo.map Prod.fst

def password : Option (List Char) := parts.userinfo.bind Prod.snd

/-- The host and the text of the port. -/
def hostinfo : List Char × List Char :=
  match partition '[' (hostAndPort parts.netloc) with
  | (_, some bracketed) =>
    let (hostname, rest) := cut ']' bracketed
    (hostname, (cut ':' rest).2)
  | (plain, none) => cut ':' plain

def hostname (tables : TextTables) : Option (List Char) :=
  if parts.hostinfo.1 = [] then none
  else
    -- The zone of an IPv6 address keeps its case.
    let (host, zone) := partition '%' parts.hostinfo.1
    some (tables.lower host ++ (zone.map ('%' :: ·)).getD [])

def port : Except PyError (Option Nat) :=
  let text := parts.hostinfo.2
  if text = [] then .ok none
  else if text.all IpAddress.isDigit ∧ text.length ≤ maxStrDigits then
    let value := text.foldl (fun n c => 10 * n + (c.toNat - 48)) 0
    if value ≤ 65535 then .ok (some value) else .error .valueError
  else .error .valueError

end SplitResult

/-! ### The layout of an address -/

theorem isAlpha_iff_toNat {c : Char} :
    c.isAlpha = true ↔ (65 ≤ c.toNat ∧ c.toNat ≤ 90) ∨ (97 ≤ c.toNat ∧ c.toNat ≤ 122) := by
  have letters : c.isAlpha = (decide (65 ≤ c.val ∧ c.val ≤ 90) || (decide (97 ≤ c.val) && decide (c.val ≤ 122))) := rfl
  rw [letters]
  simp [UInt32.le_iff_toNat_le]

/-- Nothing is removed from the inside of an address without blanks. -/
theorem kept {url : List Char} (safe : ∀ c ∈ url, unsafeChar c = false) :
    (url.dropWhile c0OrSpace).filter (!unsafeChar ·) = url.dropWhile c0OrSpace := by
  refine List.filter_eq_self.mpr (fun c member => ?_)
  rw [safe c ((List.dropWhile_sublist _).mem member)]
  rfl

/-- An address with a scheme and a network location, and what is cut off before it. -/
structure Layout where
  lead : List Char
  name : List Char
  netloc : List Char
  rest : List Char
  lead_c0 : ∀ c ∈ lead, c0OrSpace c = true
  name_head : name.head?.any Char.isAlpha = true
  name_chars : name.all schemeChar = true
  netloc_chars : ∀ c ∈ netloc, netlocChar c = true
  rest_head : rest.head?.all (!netlocChar ·) = true

namespace Layout

def text (l : Layout) : List Char := l.lead ++ (l.name ++ ':' :: '/' :: '/' :: (l.netloc ++ l.rest))

/-- The parts that `urlsplit` finds. -/
def parts (l : Layout) : SplitResult where
  scheme := l.name.map Char.toLower
  netloc := l.netloc
  path := (cut '?' (cut '#' l.rest).1).1
  query := (cut '?' (cut '#' l.rest).1).2
  fragment := (cut '#' l.rest).2

/-- A scheme begins with a letter, which is not cut off. -/
theorem head_name (l : Layout) : l.name.head?.all (!c0OrSpace ·) = true := by
  have head := l.name_head
  cases name : l.name with
  | nil => rfl
  | cons c more =>
    have letter : c.isAlpha = true := by simpa [name] using head
    have high : 32 < c.toNat := by
      have := isAlpha_iff_toNat.mp letter
      omega
    simp [c0OrSpace, high]

end Layout

theorem splitScheme_cases (url : List Char) :
    splitScheme url = ([], url) ∨
      ∃ name rest, url = name ++ ':' :: rest ∧ name.head?.any Char.isAlpha = true ∧ name.all schemeChar = true ∧
        splitScheme url = (name.map Char.toLower, rest) := by
  rw [splitScheme]
  rcases eq_or_partition ':' url with ⟨-, found⟩ | ⟨name, rest, whole, -, found⟩ <;> simp only [found]
  · exact .inl trivial
  · by_cases valid : name.head?.any Char.isAlpha = true ∧ name.all schemeChar = true
    · exact .inr ⟨name, rest, whole, valid.1, valid.2, if_pos valid⟩
    · exact .inl (if_neg valid)

/-- An address without blanks that is taken apart into a scheme and a network location. -/
theorem exists_layout {tables : TextTables} {url : List Char} {parts : SplitResult}
    (safe : ∀ c ∈ url, unsafeChar c = false) (split : urlsplit tables url = .ok parts)
    (scheme : parts.scheme ≠ []) (netloc : parts.netloc ≠ []) :
    ∃ l : Layout, l.text = url ∧ l.parts = parts := by
  rw [urlsplit, kept safe] at split
  rcases splitScheme_cases (url.dropWhile c0OrSpace) with plain | ⟨name, rest, whole, head, chars, found⟩
  · simp only [plain] at split
    split at split
    · cases split
      exact absurd rfl scheme
    · cases split
  · simp only [found] at split
    by_cases slashes : rest.take 2 = ['/', '/']
    · have two : rest = '/' :: '/' :: ((rest.drop 2).takeWhile netlocChar ++ (rest.drop 2).dropWhile netlocChar) := by
        rw [List.takeWhile_append_dropWhile]
        calc rest = rest.take 2 ++ rest.drop 2 := (List.take_append_drop 2 rest).symm
          _ = _ := by rw [slashes]; rfl
      refine ⟨⟨url.takeWhile c0OrSpace, name, (rest.drop 2).takeWhile netlocChar, (rest.drop 2).dropWhile netlocChar,
        fun c member => List.mem_takeWhile_imp member, head, chars, fun c member => List.mem_takeWhile_imp member,
        stop_dropWhile _ _⟩, ?_, ?_⟩
      · show url.takeWhile c0OrSpace ++ (name ++ ':' :: _) = url
        rw [← two, ← whole, List.takeWhile_append_dropWhile]
      · rw [splitNetloc, if_pos slashes] at split
        split at split
        · exact Except.ok.inj split
        · cases split
    · rw [splitNetloc, if_neg slashes] at split
      split at split
      · cases split
        exact absurd rfl netloc
      · cases split

/-- An address that is put together from its parts is taken apart into them. -/
theorem urlsplit_text {tables : TextTables} (l : Layout) (safe : ∀ c ∈ l.text, unsafeChar c = false)
    (brackets : checkBrackets l.netloc = true) (plain : checkNetloc tables l.netloc = true) :
    urlsplit tables l.text = .ok l.parts := by
  have unled : l.text.dropWhile c0OrSpace = l.name ++ ':' :: '/' :: '/' :: (l.netloc ++ l.rest) := by
    have stop : (l.name ++ ':' :: '/' :: '/' :: (l.netloc ++ l.rest)).head?.all (!c0OrSpace ·) = true := by
      have head := l.head_name
      cases name : l.name with
      | nil => rfl
      | cons c more => simpa [name] using head
    exact (span_append l.lead_c0 stop).2
  have colonless : ':' ∉ l.name := by
    intro inside
    have accepted := List.all_eq_true.mp l.name_chars ':' inside
    exact absurd accepted (by decide)
  have scheme : splitScheme (l.name ++ ':' :: '/' :: '/' :: (l.netloc ++ l.rest)) =
      (l.name.map Char.toLower, '/' :: '/' :: (l.netloc ++ l.rest)) := by
    rw [splitScheme, partition_append colonless]
    exact if_pos ⟨l.name_head, l.name_chars⟩
  obtain ⟨taken, left⟩ := span_append l.netloc_chars l.rest_head
  have netloc : splitNetloc ('/' :: '/' :: (l.netloc ++ l.rest)) = (l.netloc, l.rest) := by
    have slashes : ('/' :: '/' :: (l.netloc ++ l.rest)).take 2 = ['/', '/'] := rfl
    rw [splitNetloc, if_pos slashes]
    exact Prod.ext taken left
  rw [urlsplit, kept safe, unled]
  simp only [scheme, netloc]
  rw [if_pos ⟨brackets, plain⟩]
  rfl

end ScanApi.UrlSplit
