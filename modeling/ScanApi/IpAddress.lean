import Mathlib.Algebra.Group.Nat.Defs
import Mathlib.Data.List.Basic

/-!
IP addresses as Python's `ipaddress` reads them: four decimal parts, or up to
eight hexadecimal ones with one run of zeros left out, an IPv4 address at the end
and a scope after a `%`.
-/
namespace ScanApi.IpAddress

inductive Address
  | v4 (ip : Nat)
  | v6 (ip : Nat)
deriving DecidableEq, Repr

def isDigit (c : Char) : Bool := 48 ≤ c.toNat && c.toNat < 58

def hexValue (c : Char) : Option Nat :=
  if isDigit c then some (c.toNat - 48)
  else if 97 ≤ c.toNat ∧ c.toNat < 103 then some (c.toNat - 87)
  else if 65 ≤ c.toNat ∧ c.toNat < 71 then some (c.toNat - 55)
  else none

/-- One of four decimal parts; leading zeros are not allowed. -/
def parseOctet (octet : List Char) : Option Nat :=
  if octet = [] ∨ 3 < octet.length ∨ !octet.all isDigit ∨ (octet ≠ ['0'] ∧ octet.head? = some '0') then none
  else
    let value := octet.foldl (fun n c => 10 * n + (c.toNat - 48)) 0
    if value ≤ 255 then some value else none

def parseIpv4 (text : List Char) : Option Nat := do
  let octets ← (text.splitOn '.').mapM parseOctet
  if octets.length = 4 then some (octets.foldl (fun n octet => 256 * n + octet) 0) else none

/-- One of eight hexadecimal parts. -/
def parseHextet (hextet : List Char) : Option Nat :=
  if hextet = [] ∨ 4 < hextet.length then none
  else do
    let digits ← hextet.mapM hexValue
    some (digits.foldl (fun n d => 16 * n + d) 0)

/-- The number of hexadecimal parts one after another. -/
def joinHextets (hextets : List Nat) : Nat := hextets.foldl (fun n h => 65536 * n + h) 0

/-- The parts of the address, with an IPv4 address at the end as two more. -/
def ipv6Parts (text : List Char) : Option (List (List Char ⊕ Nat)) :=
  let parts := text.splitOn ':'
  if parts.length < 3 then none
  else match parts.getLast? with
    | some last =>
      if '.' ∈ last then do
        let ip ← parseIpv4 last
        some (parts.dropLast.map .inl ++ [.inr (ip / 65536), .inr (ip % 65536)])
      else some (parts.map .inl)
    | none => none

/-- A part's number; an empty part has none. -/
def partValue : List Char ⊕ Nat → Option Nat
  | .inl hextet => parseHextet hextet
  | .inr value => some value

/-- The parts on one side of a run of zeros. Where the outermost is empty, the run
    is at that end of the address, and there is no other part. -/
def besideZeros (outermost : Option (List Char ⊕ Nat)) (parts : List (List Char ⊕ Nat)) :
    Option (List (List Char ⊕ Nat)) :=
  if outermost ≠ some (.inl []) then some parts
  else if parts.length = 1 then some []
  else none

def parseIpv6 (text : List Char) : Option Nat := do
  let parts ← ipv6Parts text
  if 9 < parts.length then none
  let inner := (parts.drop 1).dropLast
  match (List.range inner.length).filter (fun i => inner[i]? = some (.inl [])) with
  | [] =>
    let hextets ← parts.mapM partValue
    if hextets.length = 8 then some (joinHextets hextets) else none
  | [skipped] =>
    let high ← besideZeros parts.head? (parts.take (skipped + 1))
    let low ← besideZeros parts.getLast? (parts.drop (skipped + 2))
    let above ← high.mapM partValue
    let below ← low.mapM partValue
    let zeros := 8 - (above.length + below.length)
    if zeros < 1 then none
    else some (joinHextets (above ++ List.replicate zeros 0 ++ below))
  | _ => none

/-- The address without its scope; a scope is not empty and has no `%`. -/
def splitScope (text : List Char) : Option (List Char) := match text.dropWhile (· ≠ '%') with
  | [] => some text
  | _ :: scope => if scope = [] ∨ '%' ∈ scope then none else some (text.takeWhile (· ≠ '%'))

/-- `ipaddress.ip_address(text)`, if it does not raise. -/
def ipAddress (text : List Char) : Option Address :=
  if '/' ∈ text then none
  else ((parseIpv4 text).map .v4).or ((splitScope text >>= parseIpv6).map .v6)

namespace Address

/-- An IPv4 address inside an IPv6 one. -/
def unmapped : Address → Address
  | .v4 ip => .v4 ip
  | .v6 ip => if ip / 2 ^ 32 = 65535 then .v4 (ip % 2 ^ 32) else .v6 ip

def isLoopback : Address → Bool
  | .v4 ip => ip / 2 ^ 24 = 127
  | .v6 ip => ip = 1

def isLinkLocal : Address → Bool
  | .v4 ip => ip / 2 ^ 16 = 169 * 256 + 254
  | .v6 ip => ip / 2 ^ 118 = 1018

def isUnspecified : Address → Bool
  | .v4 ip => ip = 0
  | .v6 ip => ip = 0

end Address

example : ipAddress "::ffff:127.0.0.1".toList = some (.v6 (65535 * 2 ^ 32 + 127 * 2 ^ 24 + 1)) := by decide
example : ipAddress "127.0.0.01".toList = none := by decide
example : [":1::2", "1::2:", "::1:"].map (fun text => ipAddress text.toList) = [none, none, none] := by decide

end ScanApi.IpAddress
