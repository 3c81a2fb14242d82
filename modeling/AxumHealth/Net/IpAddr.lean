import Mathlib.Init

/-!
# IP addresses

`std::net::IpAddr` with the two standard-library functions the checks use: the
parser behind `str::parse::<IpAddr>` and the text of `IpAddr::to_string`.

The parser is the recursive descent of the standard library.  Every reader takes
the characters that are left and returns what it read with the rest, or `none`
and then it has consumed nothing.
-/

namespace AxumHealth

/-- An IPv4 address as its four octets, or an IPv6 address as its eight 16-bit
segments. -/
inductive IpAddr
  | v4 (octets : Vector UInt8 4)
  | v6 (segments : Vector UInt16 8)
  deriving DecidableEq

/-- `std::net::SocketAddr` without the IPv6 flow label and scope. -/
structure SocketAddr where
  ip : IpAddr
  port : UInt16
  deriving DecidableEq

namespace IpAddr

/-! ## Reading -/

def digit? (radix : Nat) (c : Char) : Option Nat :=
  let value :=
    if '0' ≤ c ∧ c ≤ '9' then some (c.toNat - '0'.toNat)
    else if 'a' ≤ c ∧ c ≤ 'f' then some (c.toNat - 'a'.toNat + 10)
    else if 'A' ≤ c ∧ c ≤ 'F' then some (c.toNat - 'A'.toNat + 10)
    else none
  value.filter (· < radix)

/-- The value and the number of the digits at the front. -/
def readDigits (radix : Nat) : List Char → Nat → Nat → Nat × Nat × List Char
  | [], result, count => (result, count, [])
  | c :: rest, result, count =>
    match digit? radix c with
    | some d => readDigits radix rest (result * radix + d) (count + 1)
    | none => (result, count, c :: rest)

/-- At least one and at most `maxDigits` digits. -/
def readNumber (radix maxDigits : Nat) (allowZeroPrefix : Bool) (cs : List Char) :
    Option (Nat × List Char) :=
  let (result, count, rest) := readDigits radix cs 0 0
  if count = 0 ∨ maxDigits < count then none
  else if !allowZeroPrefix && cs.head? == some '0' && 1 < count then none
  else some (result, rest)

/-- An item of a separated list: all but the first are preceded by `sep`. -/
def readSeparator {α : Type} (sep : Char) (index : Nat)
    (inner : List Char → Option (α × List Char)) (cs : List Char) : Option (α × List Char) :=
  match index, cs with
  | 0, cs => inner cs
  | _ + 1, c :: rest => if c = sep then inner rest else none
  | _ + 1, [] => none

/-- One octet: up to three decimal digits, no leading zero, at most 255. -/
def readOctet (cs : List Char) : Option (UInt8 × List Char) :=
  match readNumber 10 3 false cs with
  | some (n, rest) => if n < 256 then some (n.toUInt8, rest) else none
  | none => none

def readIpv4 (cs : List Char) : Option (Vector UInt8 4 × List Char) := do
  let (a, cs) ← readSeparator '.' 0 readOctet cs
  let (b, cs) ← readSeparator '.' 1 readOctet cs
  let (c, cs) ← readSeparator '.' 2 readOctet cs
  let (d, cs) ← readSeparator '.' 3 readOctet cs
  return (#v[a, b, c, d], cs)

/-- One group: up to four hexadecimal digits. -/
def readGroup (cs : List Char) : Option (UInt16 × List Char) :=
  match readNumber 16 4 true cs with
  | some (n, rest) => some (n.toUInt16, rest)
  | none => none

/-- Two octets as one segment, the first one on top. -/
def segment (hi lo : UInt8) : UInt16 := hi.toUInt16 * 256 + lo.toUInt16

/-- Colon-separated groups, at most `limit` of them, the last two possibly
written as an IPv4 address.  Returns the groups and whether they end so. -/
def readGroups (limit : Nat) : Nat → List Char → List UInt16 → List UInt16 × Bool × List Char
  | 0, cs, groups => (groups, false, cs)
  | room + 1, cs, groups =>
    let i := groups.length
    let v4 := if i + 1 < limit then readSeparator ':' i readIpv4 cs else none
    match v4 with
    | some (v, rest) => (groups ++ [segment v[0] v[1], segment v[2] v[3]], true, rest)
    | none =>
      match readSeparator ':' i readGroup cs with
      | some (g, rest) => readGroups limit room rest (groups ++ [g])
      | none => (groups, false, cs)

def ofSegments (groups : List UInt16) : Option (Vector UInt16 8) :=
  if h : groups.length = 8 then some ⟨groups.toArray, by simpa using h⟩ else none

def readIpv6 (cs : List Char) : Option (Vector UInt16 8 × List Char) :=
  let (front, frontV4, rest) := readGroups 8 8 cs []
  if front.length = 8 then (ofSegments front).map (·, rest)
  else if frontV4 then none
  else
    match rest with
    | ':' :: ':' :: rest =>
      let limit := 7 - front.length
      let (back, _, rest) := readGroups limit limit rest []
      let zeros := List.replicate (8 - front.length - back.length) 0
      (ofSegments (front ++ zeros ++ back)).map (·, rest)
    | _ => none

/-- `str::parse::<IpAddr>`: the whole text has to be one address. -/
def parse (s : String) : Option IpAddr :=
  match readIpv4 s.toList with
  | some (octets, rest) => if rest.isEmpty then some (.v4 octets) else none
  | none =>
    match readIpv6 s.toList with
    | some (segments, rest) => if rest.isEmpty then some (.v6 segments) else none
    | none => none

/-! ## Writing -/

def octetsToString (octets : Vector UInt8 4) : String :=
  ".".intercalate (octets.toList.map fun octet => toString octet.toNat)

/-- The longest run of zero segments, the first one of that length, as its start
and length. -/
def zeroSpan (segments : List UInt16) : Nat × Nat :=
  let visit := fun (state : (Nat × Nat) × (Nat × Nat)) (entry : UInt16 × Nat) =>
    let (longest, current) := state
    let (segment, i) := entry
    if segment = 0 then
      let current := (if current.2 = 0 then i else current.1, current.2 + 1)
      (if longest.2 < current.2 then current else longest, current)
    else (longest, (0, 0))
  (segments.zipIdx.foldl visit ((0, 0), (0, 0))).1

def subslice (segments : List UInt16) : String :=
  ":".intercalate (segments.map fun segment => String.ofList (Nat.toDigits 16 segment.toNat))

def segmentsToString (segments : Vector UInt16 8) : String :=
  -- An IPv4-mapped address is written with its octets.
  if segments.toList.take 6 = [0, 0, 0, 0, 0, 0xFFFF] then
    let octets := #v[(segments[6] / 256).toUInt8, segments[6].toUInt8,
      (segments[7] / 256).toUInt8, segments[7].toUInt8]
    "::ffff:" ++ octetsToString octets
  else
    let (start, len) := zeroSpan segments.toList
    if 1 < len then
      subslice (segments.toList.take start) ++ "::" ++ subslice (segments.toList.drop (start + len))
    else subslice segments.toList

/-- `IpAddr::to_string`. -/
def toText : IpAddr → String
  | v4 octets => octetsToString octets
  | v6 segments => segmentsToString segments

example : parse "10.0.0.5" = some (.v4 #v[10, 0, 0, 5]) := by decide

example : parse "10.0.0.05" = none := by decide

example : parse "fe80::1:0:0:10.0.0.5" =
    some (.v6 #v[0xfe80, 0, 0, 1, 0, 0, 0x0a00, 0x0005]) := by decide

example : (parse "fe80:0:0:1::a00:5").map toText = some "fe80::1:0:0:a00:5" := by decide

end IpAddr

end AxumHealth
