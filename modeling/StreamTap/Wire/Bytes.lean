/-!
# Byte strings

Payloads and datagrams are lists of bytes.  `slice` takes its bounds together
with the proof that they are in order and inside the string, so code that cuts a
datagram apart has to say why every cut it makes is possible.
-/

namespace StreamTap

/-- A string of bytes. -/
abbrev Bytes := List UInt8

namespace Bytes

/-- The bytes from position `start` up to, and without, position `stop`. -/
def slice (data : Bytes) (start stop : Nat)
    (_ : start ≤ stop ∧ stop ≤ data.length) : Bytes :=
  (data.take stop).drop start

@[simp] theorem length_slice (data : Bytes) (start stop : Nat)
    (h : start ≤ stop ∧ stop ≤ data.length) :
    (data.slice start stop h).length = stop - start := by
  simp only [slice, List.length_drop, List.length_take]
  omega

theorem take_append_slice_append_drop (data : Bytes) (start stop : Nat)
    (h : start ≤ stop ∧ stop ≤ data.length) :
    data.take start ++ data.slice start stop h ++ data.drop stop = data := by
  have hcut : data.take start = (data.take stop).take start := by
    rw [List.take_take, Nat.min_eq_left h.1]
  rw [slice, hcut, List.take_append_drop, List.take_append_drop]

/-- The number that two bytes write, the more significant one first. -/
def word16 (hi lo : UInt8) : UInt16 := hi.toUInt16 <<< 8 ||| lo.toUInt16

/-- The number that four bytes write, the most significant one first. -/
def word32 (a b c d : UInt8) : UInt32 :=
  a.toUInt32 <<< 24 ||| b.toUInt32 <<< 16 ||| c.toUInt32 <<< 8 ||| d.toUInt32

end Bytes

end StreamTap
