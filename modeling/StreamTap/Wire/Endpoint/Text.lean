import StreamTap.Wire.Endpoint.Basic
import StreamTap.Wire.Bytes

/-!
# Endpoints as text

An endpoint of version 4 is written `10.0.0.1:80`, one of version 6
`[2001:db8::1]:80`, where `::` stands for the longest run of zero groups.

Reading is more liberal than writing, and exactly as liberal as follows.

* Octets are decimal, without leading zeros.  Groups are hexadecimal in either
  case, with up to four digits.  A port and a scope may have leading zeros.
* `::` may stand for any run of groups, even a run of one zero or of none that
  is longer than another.  At most one may occur, and it stands for one group at
  least.
* The last two groups may be written as an address of version 4.

Nothing may stand before or behind the endpoint.  Writing is canonical: of two
runs of the same length the first is abbreviated, a single zero group is not, and
the only addresses written with a dotted end are those that stand for an address
of version 4 (`::ffff:1.2.3.4`).
-/

namespace StreamTap

namespace Endpoint.Text

/-- The value of a digit, a letter counting from ten on in either case. -/
def digit? (radix : Nat) (c : Char) : Option Nat :=
  let value :=
    if '0' ≤ c ∧ c ≤ '9' then some (c.toNat - '0'.toNat)
    else if 'a' ≤ c ∧ c ≤ 'z' then some (c.toNat - 'a'.toNat + 10)
    else if 'A' ≤ c ∧ c ≤ 'Z' then some (c.toNat - 'A'.toNat + 10)
    else none
  value.filter (· < radix)

/-- The digits at the front of a text. -/
def digits (radix : Nat) : List Char → List Nat × List Char
  | [] => ([], [])
  | c :: cs =>
    match digit? radix c with
    | none => ([], c :: cs)
    | some d =>
      let (ds, rest) := digits radix cs
      (d :: ds, rest)

/-- How a number in an endpoint is written. -/
structure Numeral where
  radix : Nat
  /-- The most digits allowed, if there is such a bound. -/
  most : Option Nat
  /-- Whether a number of several digits may begin with a zero. -/
  leadingZeros : Bool
  /-- Every number read is below this. -/
  limit : Nat

/-- A part of an address of version 4. -/
def octet : Numeral := ⟨10, some 3, false, UInt8.size⟩

/-- A part of an address of version 6. -/
def group : Numeral := ⟨16, some 4, true, UInt16.size⟩

def port : Numeral := ⟨10, none, true, UInt16.size⟩

/-- The number of a scope. -/
def scope : Numeral := ⟨10, none, true, UInt32.size⟩

def Numeral.read (n : Numeral) (cs : List Char) : Option (Nat × List Char) :=
  let (ds, rest) := digits n.radix cs
  let value := ds.foldl (fun v d => v * n.radix + d) 0
  if ds.isEmpty then none
  else if n.most.any (· < ds.length) then none
  else if !n.leadingZeros && ds.head? == some 0 && 1 < ds.length then none
  else if value < n.limit then some (value, rest)
  else none

/-- Drops one given character from the front. -/
def drop? (c : Char) : List Char → Option (List Char)
  | [] => none
  | d :: cs => if d = c then some cs else none

def readIPv4 (cs : List Char) : Option (IPv4 × List Char) := do
  let (a, cs) ← octet.read cs
  let (b, cs) ← octet.read (← drop? '.' cs)
  let (c, cs) ← octet.read (← drop? '.' cs)
  let (d, cs) ← octet.read (← drop? '.' cs)
  return (⟨.ofNat a, .ofNat b, .ofNat c, .ofNat d⟩, cs)

/-- A run of groups, as far as it can be read. -/
structure Run where
  groups : List UInt16
  /-- Whether the last two groups were written as an address of version 4. -/
  dotted : Bool
  rest : List Char

/-- Reads at most `room` groups with colons between them; `inside` says that one
was read before and a colon has to come first. -/
def readGroups (inside : Bool) : Nat → List Char → Run
  | 0, cs => ⟨[], false, cs⟩
  | room + 1, cs =>
    let entry := if inside then drop? ':' cs else some cs
    match if 0 < room then entry.bind readIPv4 else none with
    | some (v4, rest) => ⟨[Bytes.word16 v4.a v4.b, Bytes.word16 v4.c v4.d], true, rest⟩
    | none =>
      match entry.bind group.read with
      | some (g, rest) =>
        let run := readGroups true room rest
        { run with groups := .ofNat g :: run.groups }
      | none => ⟨[], false, cs⟩

def readIPv6 (cs : List Char) : Option (IPv6 × List Char) :=
  let head := readGroups false 8 cs
  if head.groups.length = 8 then some (.ofGroups head.groups, head.rest)
  else if head.dotted then none
  else do
    let cs ← drop? ':' (← drop? ':' head.rest)
    let tail := readGroups false (7 - head.groups.length) cs
    let gap := List.replicate (8 - head.groups.length - tail.groups.length) 0
    return (.ofGroups (head.groups ++ gap ++ tail.groups), tail.rest)

def readV4 (cs : List Char) : Option (Endpoint × List Char) := do
  let (address, cs) ← readIPv4 cs
  let (p, cs) ← port.read (← drop? ':' cs)
  return (⟨.v4 address, .ofNat p⟩, cs)

def readV6 (cs : List Char) : Option (Endpoint × List Char) := do
  let (address, cs) ← readIPv6 (← drop? '[' cs)
  let (s, cs) := ((drop? '%' cs).bind scope.read).getD (0, cs)
  let (p, cs) ← port.read (← drop? ':' (← drop? ']' cs))
  return (⟨.v6 address (.ofNat s), .ofNat p⟩, cs)

def writeIPv4 (v4 : IPv4) : String :=
  ".".intercalate ([v4.a, v4.b, v4.c, v4.d].map fun o => toString o.toNat)

/-- Writes groups with colons between them. -/
def writeGroups (gs : List UInt16) : String :=
  ":".intercalate (gs.map fun g => String.ofList (Nat.toDigits 16 g.toNat))

/-- Where the longest run of zeros begins and how long it is; of several the
first.  `i` is the position of the list's head. -/
def longestZeros (i : Nat) : List UInt16 → Nat × Nat
  | [] => (i, 0)
  | g :: gs =>
    let here := ((g :: gs).takeWhile (· == 0)).length
    let later := longestZeros (i + 1) gs
    if here < later.2 then later else (i, here)

def writeIPv6 (v6 : IPv6) : String :=
  match v6.groups with
  | [0, 0, 0, 0, 0, 0xffff, hi, lo] =>
    "::ffff:" ++ writeIPv4 ⟨(hi >>> 8).toUInt8, hi.toUInt8, (lo >>> 8).toUInt8, lo.toUInt8⟩
  | gs =>
    let (start, length) := longestZeros 0 gs
    if 1 < length then
      writeGroups (gs.take start) ++ "::" ++ writeGroups (gs.drop (start + length))
    else writeGroups gs

end Endpoint.Text

namespace Endpoint

/-- Reads an endpoint; nothing else may stand in the text. -/
def parse? (s : String) : Option Endpoint :=
  match (Text.readV4 s.toList).or (Text.readV6 s.toList) with
  | some (e, []) => some e
  | _ => none

def text (e : Endpoint) : String :=
  let port := ":" ++ toString e.port.toNat
  match e.host with
  | .v4 address => Text.writeIPv4 address ++ port
  | .v6 address scope =>
    let scope := if scope = 0 then "" else "%" ++ toString scope.toNat
    "[" ++ Text.writeIPv6 address ++ scope ++ "]" ++ port

end Endpoint

end StreamTap
