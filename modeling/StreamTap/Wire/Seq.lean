/-!
# Sequence numbers and the receive window

A TCP sequence number is a 32-bit word and a position in the byte stream only
up to a multiple of `2 ^ 32`.  Everything here is therefore arithmetic of words:
moving on by a number of bytes wraps, and "how far is `b` ahead of `a`" is
always a number below `2 ^ 32`, never a negative one.

`inWindow` decides whether a segment is near enough to be kept.  It is written
the way a receiver computes it, by the two borders of the window: the right
border may have wrapped around below the left one, and then a position is inside
when it lies on *either* side of the wrap.
-/

namespace StreamTap

/-- A sequence number of a TCP stream. -/
abbrev Seq := UInt32

namespace Seq

/-- The sequence number `n` bytes further on. -/
def advance (s : Seq) (n : Nat) : Seq := s + UInt32.ofNat n

/-- How many bytes `t` lies ahead of `s`, going forward and around if need be. -/
def distance (s t : Seq) : Nat := (t - s).toNat

/-- Whether `s` lies in the window that begins at `expected` and reaches
`window` bytes further, both borders included. -/
def inWindow (expected : Seq) (window : UInt32) (s : Seq) : Bool :=
  let right := expected + window
  if right < expected then s ≤ right || expected ≤ s
  else expected ≤ s && s ≤ right

@[simp] theorem advance_zero (s : Seq) : s.advance 0 = s := by
  simp [advance]

theorem advance_advance (s : Seq) (m n : Nat) :
    (s.advance m).advance n = s.advance (m + n) := by
  simp [advance, UInt32.add_assoc]

theorem distance_lt (s t : Seq) : distance s t < UInt32.size :=
  (t - s).toNat_lt

@[simp] theorem distance_self (s : Seq) : distance s s = 0 := by
  simp [distance]

end Seq

end StreamTap
