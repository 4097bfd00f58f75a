import StreamTap.Decimal.Shortest

/-!
# Floats as text

A float is written with the digits of its shortest decimal.  A `Layout` says for
which positions of the leading digit they are written out around the point; all
other floats are written in scientific notation, with a sign in the exponent.
-/

namespace StreamTap

namespace Decimal

/-- The positions of the leading digit for which a number is written out. -/
structure Layout where
  lowest : Int
  highest : Int
  deriving DecidableEq, Repr

/-- A decimal whose digits end in no zero, as text. -/
def Layout.text (l : Layout) (s : Scaled) : String :=
  let digits := Nat.toDigits 10 s.digits
  let lead := s.exponent + digits.length - 1
  let written :=
    if l.lowest ≤ lead ∧ lead ≤ l.highest then
      if 0 ≤ s.exponent then digits ++ List.replicate s.exponent.toNat '0' ++ ['.', '0']
      else if 0 ≤ lead then
        digits.take (lead.toNat + 1) ++ ['.'] ++ digits.drop (lead.toNat + 1)
      else ['0', '.'] ++ List.replicate ((-lead).toNat - 1) '0' ++ digits
    else
      let fraction := if digits.length = 1 then [] else '.' :: digits.drop 1
      let sign := if 0 ≤ lead then '+' else '-'
      digits.take 1 ++ fraction ++ ['e', sign] ++ Nat.toDigits 10 lead.natAbs
  String.ofList written

/-- The float with these bits as text; it has to be finite. -/
def Layout.float (l : Layout) (bits : UInt64) : String :=
  let sign := if bits >>> 63 = 0 then "" else "-"
  let b := Binary.ofBits bits
  sign ++ if b.mantissa = 0 then "0.0" else l.text (shortest b)

end Decimal

end StreamTap
