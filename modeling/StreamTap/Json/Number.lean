import StreamTap.Json.Error

/-!
# Numbers in JSON documents

An integer literal without fraction and exponent that fits into 64 bits is taken
exactly, with a sign into the signed and without one into the unsigned range.
Every other literal is a float, and so is `-0`.

A float is computed from at most 64 bits of leading digits, `significand`, and a
power of ten by one multiplication or division in double precision, or several
where the power is out of a float's range; digits that no longer fit into the
significand count only for the power.  The outcome may thus differ from the nearest
float in its last bits.
-/

namespace StreamTap

namespace Json

/-- The value of a number literal. -/
inductive Number where
  | integer (value : Int)
  /-- The float with these bits. -/
  | float (bits : UInt64)
  deriving DecidableEq, Repr

namespace Number

/-- The value as it is named in an error. -/
def found : Number → Found
  | .integer value => .integer value
  | .float bits => .float bits

/-- The value of a decimal digit. -/
def digit (c : Char) : Nat := c.toNat - '0'.toNat

def ofDigits (ds : List Char) : Nat := ds.foldl (fun n c => n * 10 + digit c) 0

def spanDigits (cs : List Char) : List Char × List Char := cs.span Char.isDigit

/-- Every significand is below this. -/
def significandLimit : Nat := UInt64.size

/-- Every exponent that is written out is below this. -/
def exponentLimit : Nat := 0x80000000

/-- Appends digits to a significand as long as it stays below its limit; gives
the digits that are left. -/
def accumulate (n : Nat) : List Char → Nat × List Char
  | [] => (n, [])
  | c :: cs =>
    let m := n * 10 + digit c
    if m < significandLimit then accumulate m cs else (n, c :: cs)

/-- The greatest power of ten that is a float. -/
def greatestPower : Nat := 308

/-- A power of ten as a float. -/
def power (n : Nat) : Float := Float.ofScientific 1 false n

/-- Divides by a power of ten, in steps where it is no float. -/
def shrink (f : Float) (n : Nat) : Float :=
  if n ≤ greatestPower then f / power n
  else if f == 0 then f
  else shrink (f / power greatestPower) (n - greatestPower)
termination_by n
decreasing_by simp only [greatestPower] at *; omega

def signed (negative : Bool) (f : Float) : Number :=
  .float (if negative then (-f).toBits else f.toBits)

/-- The float `significand * 10 ^ exponent`, unless it is too large. -/
def scaled (negative : Bool) (significand : Nat) (exponent : Int) : Except Error Number :=
  let f := (UInt64.ofNat significand).toFloat
  if exponent < 0 then .ok (signed negative (shrink f exponent.natAbs))
  else if exponent ≤ greatestPower then
    let g := f * power exponent.toNat
    if g.isInf then .error .numberOutOfRange else .ok (signed negative g)
  else if significand = 0 then .ok (signed negative 0)
  else .error .numberOutOfRange

def readExponent (negative : Bool) (significand : Nat) (exponent : Int) : Reader Number :=
  fun cs =>
    let (down, cs) := match cs with
      | '+' :: cs => (false, cs)
      | '-' :: cs => (true, cs)
      | cs => (false, cs)
    match cs with
    | [] => .error .endInValue
    | c :: _ =>
      if !c.isDigit then .error .invalidNumber
      else
        let (ds, rest) := spanDigits cs
        let written := ofDigits ds
        if exponentLimit ≤ written then
          if significand ≠ 0 && !down then .error .numberOutOfRange
          else .ok (signed negative 0, rest)
        else do
          let shift : Int := if down then -written else written
          return (← scaled negative significand (exponent + shift), rest)

def readPower (negative : Bool) (significand : Nat) (exponent : Int) : Reader Number
  | 'e' :: cs => readExponent negative significand exponent cs
  | 'E' :: cs => readExponent negative significand exponent cs
  | cs => do return (← scaled negative significand exponent, cs)

def readFraction (negative : Bool) (significand : Nat) (exponent : Int) : Reader Number :=
  fun cs =>
    let (ds, rest) := spanDigits cs
    if ds.isEmpty then
      .error (if rest.isEmpty then .endInValue else .invalidNumber)
    else
      let (significand, unused) := accumulate significand ds
      readPower negative significand (exponent - (ds.length - unused.length : Nat)) rest

def readTail (negative : Bool) (significand : Nat) (exponent : Int) : Reader Number
  | '.' :: cs => readFraction negative significand exponent cs
  | cs => readPower negative significand exponent cs

/-- The greatest number that is still an integer when it has a minus sign. -/
def greatestNegated : Nat := 0x8000000000000000

/-- An integer that was written without fraction and exponent. -/
def ofInteger (negative : Bool) (n : Nat) : Number :=
  if !negative then .integer n
  else if n = 0 ∨ greatestNegated < n then signed true (UInt64.ofNat n).toFloat
  else .integer (-n)

/-- Whether a text goes on as a float. -/
def isFloatTail : List Char → Bool
  | '.' :: _ => true
  | 'e' :: _ => true
  | 'E' :: _ => true
  | _ => false

/-- Reads a number without its sign. -/
def readUnsigned (negative : Bool) : Reader Number := fun cs =>
  match cs with
  | [] => .error .endInValue
  | c :: _ =>
    if !c.isDigit then .error .invalidNumber
    else
      let (ds, rest) := spanDigits cs
      if c = '0' && 1 < ds.length then .error .invalidNumber
      else
        let (significand, unused) := accumulate 0 ds
        if unused.isEmpty && !isFloatTail rest then .ok (ofInteger negative significand, rest)
        else readTail negative significand unused.length rest

def read : Reader Number
  | '-' :: cs => readUnsigned true cs
  | cs => readUnsigned false cs

end Number

end Json

end StreamTap
