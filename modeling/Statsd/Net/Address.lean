import Statsd.Number.Decimal

/-!
# Statsd.Net.Address — internet addresses and their text

An address is four octets or eight 16-bit groups.

* `Address.parse?` reads the text of an address, and nothing but an address:
  four decimal numbers without leading zeros, or groups of up to four
  hexadecimal digits, of which one run may be left out (`::`) and the last two
  may be written as four octets.
* `Address.text` writes the canonical text: the longest run of two or more
  zero groups is left out, the first one of several; an address that stands
  for four octets ends with them.
-/

namespace Statsd.Net

/-- The two families of addresses. A socket reaches addresses of its own only. -/
inductive Family where
  | ipv4
  | ipv6
deriving DecidableEq, Repr

/-- The name of a family. -/
def Family.name : Family → String
  | .ipv4 => "Ipv4"
  | .ipv6 => "Ipv6"

/-- An internet address. -/
inductive Address where
  | v4 (octets : Vector UInt8 4)
  | v6 (groups : Vector UInt16 8)
deriving DecidableEq, Repr

namespace Address

/-- The family of an address. -/
def family : Address → Family
  | .v4 _ => .ipv4
  | .v6 _ => .ipv6

/-! ## Reading -/

/-- The value of a digit below a radix of at most 16. -/
def digitValue? (radix : Nat) (c : Char) : Option Nat :=
  let value :=
    if '0' ≤ c ∧ c ≤ '9' then some (c.toNat - '0'.toNat)
    else if 'a' ≤ c ∧ c ≤ 'f' then some (c.toNat - 'a'.toNat + 10)
    else if 'A' ≤ c ∧ c ≤ 'F' then some (c.toNat - 'A'.toNat + 10)
    else none
  value.filter (· < radix)

/-- The number with these digits. -/
def ofDigits (radix : Nat) (digits : List Char) : Nat :=
  digits.foldl (fun n c => n * radix + (digitValue? radix c).getD 0) 0

/-- Split off all leading digits. -/
def spanDigits (radix : Nat) (cs : List Char) : List Char × List Char :=
  (cs.takeWhile fun c => (digitValue? radix c).isSome,
    cs.dropWhile fun c => (digitValue? radix c).isSome)

/-- Read an octet: up to three decimal digits, no leading zero, at most 255. -/
def readOctet (cs : List Char) : Option (Nat × List Char) :=
  let (digits, rest) := spanDigits 10 cs
  let n := ofDigits 10 digits
  if digits.isEmpty ∨ 3 < digits.length then none
  else if digits.head? = some '0' ∧ 1 < digits.length then none
  else if 255 < n then none
  else some (n, rest)

/-- Read a group: up to four hexadecimal digits. -/
def readGroup (cs : List Char) : Option (Nat × List Char) :=
  let (digits, rest) := spanDigits 16 cs
  if digits.isEmpty ∨ 4 < digits.length then none
  else some (ofDigits 16 digits, rest)

/-- Read one given character. -/
def readChar (c : Char) : List Char → Option (List Char)
  | [] => none
  | d :: rest => if d = c then some rest else none

/-- Read four octets with points in between. -/
def readOctets (cs : List Char) : Option (Vector Nat 4 × List Char) := do
  let (a, cs) ← readOctet cs
  let (b, cs) ← readOctet (← readChar '.' cs)
  let (c, cs) ← readOctet (← readChar '.' cs)
  let (d, cs) ← readOctet (← readChar '.' cs)
  return (#v[a, b, c, d], cs)

/-- Read up to so many groups with colons in between, and whether they ended
with four octets, which stand for two groups. What is no group any more is left. -/
def readGroups : Nat → Bool → List Char → List Nat × Bool × List Char
  | 0, _, cs => ([], false, cs)
  | left + 1, first, cs =>
    match if first then some cs else readChar ':' cs with
    | none => ([], false, cs)
    | some body =>
      match if left = 0 then none else readOctets body with
      | some (o, rest) => ([o[0] * 256 + o[1], o[2] * 256 + o[3]], true, rest)
      | none =>
        match readGroup body with
        | none => ([], false, cs)
        | some (group, rest) =>
          let (groups, octets, rest) := readGroups left false rest
          (group :: groups, octets, rest)

/-- Eight groups as an address. -/
def ofGroups? (groups : List Nat) : Option Address :=
  if h : groups.length = 8 then
    some (.v6 ⟨(groups.map UInt16.ofNat).toArray, by simp [h]⟩)
  else none

/-- Read four octets and nothing else. -/
def parseV4? (cs : List Char) : Option Address :=
  match readOctets cs with
  | some (o, []) => some (.v4 (o.map UInt8.ofNat))
  | _ => none

/-- Read eight groups, or fewer around one `::`, and nothing else. -/
def parseV6? (cs : List Char) : Option Address := do
  let (head, octets, rest) := readGroups 8 true cs
  if head.length = 8 then
    if rest.isEmpty then ofGroups? head else none
  else if octets then none
  else
    let rest ← readChar ':' rest
    let rest ← readChar ':' rest
    let (tail, _, rest) := readGroups (7 - head.length) true rest
    if rest.isEmpty then
      ofGroups? (head ++ List.replicate (8 - head.length - tail.length) 0 ++ tail)
    else none

/-- Read the text of an address. -/
def parse? (s : String) : Option Address :=
  parseV4? s.toList <|> parseV6? s.toList

/-! ## Writing -/

/-- Four octets with points in between. -/
def octetsText (octets : List Nat) : String :=
  ".".intercalate (octets.map Decimal.ofNat)

/-- Groups with colons in between. -/
def groupsText (groups : List Nat) : String :=
  ":".intercalate (groups.map fun g => String.ofList (Nat.toDigits 16 g))

/-- Whether the groups stand for four octets: five zeros and `ffff` in front. -/
def isMapped (groups : List Nat) : Bool := groups.take 6 == [0, 0, 0, 0, 0, 0xffff]

/-- How many zero groups come first. -/
def leadingZeros (groups : List Nat) : Nat := (groups.takeWhile (· == 0)).length

/-- The start and the length of the longest run of zero groups, the first one
of several. -/
def longestZeros (groups : List Nat) : Nat × Nat :=
  (List.range groups.length).foldl
    (fun best i =>
      let run := leadingZeros (groups.drop i)
      if best.2 < run then (i, run) else best)
    (0, 0)

/-- The text of eight groups. -/
def v6Text (groups : List Nat) : String :=
  if isMapped groups then
    "::ffff:" ++ octetsText ((groups.drop 6).flatMap fun g => [g / 256, g % 256])
  else
    let (start, length) := longestZeros groups
    if 1 < length then
      groupsText (groups.take start) ++ "::" ++ groupsText (groups.drop (start + length))
    else groupsText groups

/-- The canonical text of an address. -/
def text : Address → String
  | .v4 octets => octetsText (octets.toList.map UInt8.toNat)
  | .v6 groups => v6Text (groups.toList.map UInt16.toNat)

/-! ## Kinds of addresses -/

/-- The four octets that are meant, if any. -/
def mapped? : Address → Option (List Nat)
  | .v4 octets => some (octets.toList.map UInt8.toNat)
  | .v6 groups =>
    let gs := groups.toList.map UInt16.toNat
    if isMapped gs then some ((gs.drop 6).flatMap fun g => [g / 256, g % 256]) else none

/-- Whether the address means the host itself. -/
def isLoopback (a : Address) : Bool :=
  match a, a.mapped? with
  | _, some octets => octets.head? == some 127
  | .v6 groups, none => groups.toList == [0, 0, 0, 0, 0, 0, 0, 1]
  | .v4 _, none => false

/-- Whether the address leaves the choice of a local address open. -/
def isUnspecified : Address → Bool
  | .v4 octets => octets.toList.all (· == 0)
  | .v6 groups => groups.toList.all (· == 0)

end Address

/-- An address and a port. -/
structure Endpoint where
  address : Address
  port : UInt16
deriving DecidableEq, Repr

/-- The text of an endpoint; groups stand in brackets. -/
def Endpoint.text (e : Endpoint) : String :=
  let port := Decimal.ofNat e.port.toNat
  match e.address with
  | .v4 _ => e.address.text ++ ":" ++ port
  | .v6 _ => "[" ++ e.address.text ++ "]:" ++ port

end Statsd.Net
