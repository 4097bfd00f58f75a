import StreamTap.Wire.Datagram

/-!
# Datagrams as they are written

`Datagram` is what a sender has to say: a TCP segment and the IP header of either version
around it, with every field that the formats have, options of any length included.  `encode`
writes it down.

A field that a format bounds is bounded by its type: options come as whole words, ten at most,
and a datagram fits into the length that its IP header can declare.

Words are written with their most significant byte first, and a word that is put together from
the bytes it was written as is the word that was written (`word16_ofWord16`,
`word32_ofWord32`).
-/

namespace StreamTap

/-! ## Words and bytes -/

namespace Bytes

/-- A word as two bytes, the more significant one first. -/
def ofWord16 (w : UInt16) : Bytes := [(w >>> 8).toUInt8, w.toUInt8]

def ofWord32 (w : UInt32) : Bytes :=
  [(w >>> 24).toUInt8, (w >>> 16).toUInt8, (w >>> 8).toUInt8, w.toUInt8]

/-- The byte with the given halves, the more significant one first. -/
def ofHalves (high low : Fin 16) : UInt8 := UInt8.ofNat (16 * high + low)

@[simp] theorem length_ofWord16 (w : UInt16) : (ofWord16 w).length = 2 := rfl

theorem toNat_upper_ofHalves :
    ∀ high low, (ofHalves high low >>> 4).toNat = (high : Nat) := by
  decide

theorem toNat_lower_ofHalves :
    ∀ high low, (ofHalves high low &&& 0x0f).toNat = (low : Nat) := by
  decide

theorem shiftLeft_or_shiftLeft {y : Nat} (hy : y < 256) (x i : Nat) :
    x <<< (8 + i) ||| y <<< i = (256 * x + y) <<< i := by
  rw [Nat.shiftLeft_add, ← Nat.shiftLeft_or_distrib, ← Nat.shiftLeft_add_eq_or_of_lt hy,
    Nat.shiftLeft_eq x 8, Nat.mul_comm x]

theorem toNat_word16 (high low : UInt8) :
    (word16 high low).toNat = 256 * high.toNat + low.toNat := by
  have hhigh := high.toNat_lt
  have hshift : high.toNat <<< 8 % 2 ^ 16 = high.toNat <<< 8 := by
    rw [Nat.shiftLeft_eq]
    omega
  calc (word16 high low).toNat
      = high.toNat <<< 8 % 2 ^ 16 ||| low.toNat := by
        simp only [word16, UInt16.toNat_or, UInt16.toNat_shiftLeft, UInt8.toNat_toUInt16]
        rfl
    _ = 256 * high.toNat + low.toNat := by
        rw [hshift]
        exact shiftLeft_or_shiftLeft low.toNat_lt high.toNat 0

theorem toNat_word32 (a b c d : UInt8) :
    (word32 a b c d).toNat =
      256 * (256 * (256 * a.toNat + b.toNat) + c.toNat) + d.toNat := by
  have ha := a.toNat_lt
  have hb := b.toNat_lt
  have hc := c.toNat_lt
  have hshift : ∀ {x i : Nat}, x * 2 ^ i < 2 ^ 32 → x <<< i % 2 ^ 32 = x <<< i := by
    intro x i h
    rw [Nat.shiftLeft_eq, Nat.mod_eq_of_lt h]
  calc (word32 a b c d).toNat
      = a.toNat <<< 24 % 2 ^ 32 ||| b.toNat <<< 16 % 2 ^ 32 ||| c.toNat <<< 8 % 2 ^ 32
          ||| d.toNat := by
        simp only [word32, UInt32.toNat_or, UInt32.toNat_shiftLeft, UInt8.toNat_toUInt32]
        rfl
    _ = a.toNat <<< (8 + 16) ||| b.toNat <<< 16 ||| c.toNat <<< 8 ||| d.toNat <<< 0 := by
        rw [hshift (by omega), hshift (by omega), hshift (by omega)]
        rfl
    _ = 256 * (256 * (256 * a.toNat + b.toNat) + c.toNat) + d.toNat := by
        rw [shiftLeft_or_shiftLeft hb, shiftLeft_or_shiftLeft hc _ 8,
          shiftLeft_or_shiftLeft d.toNat_lt _ 0, Nat.shiftLeft_zero]

theorem word16_ofWord16 (w : UInt16) : word16 (w >>> 8).toUInt8 w.toUInt8 = w := by
  have hw := w.toNat_lt
  have hhigh : (w >>> 8).toUInt8.toNat = w.toNat / 2 ^ 8 % 2 ^ 8 := by
    rw [← Nat.shiftRight_eq_div_pow]
    simp only [UInt16.toNat_toUInt8, UInt16.toNat_shiftRight]
    rfl
  apply UInt16.toNat_inj.1
  rw [toNat_word16, hhigh, UInt16.toNat_toUInt8]
  omega

theorem word32_ofWord32 (w : UInt32) :
    word32 (w >>> 24).toUInt8 (w >>> 16).toUInt8 (w >>> 8).toUInt8 w.toUInt8 = w := by
  have hw := w.toNat_lt
  have hbyte : (w >>> 24).toUInt8.toNat = w.toNat / 2 ^ 24 % 2 ^ 8 ∧
      (w >>> 16).toUInt8.toNat = w.toNat / 2 ^ 16 % 2 ^ 8 ∧
      (w >>> 8).toUInt8.toNat = w.toNat / 2 ^ 8 % 2 ^ 8 := by
    simp only [← Nat.shiftRight_eq_div_pow, UInt32.toNat_toUInt8, UInt32.toNat_shiftRight]
    exact ⟨rfl, rfl, rfl⟩
  apply UInt32.toNat_inj.1
  rw [toNat_word32, hbyte.1, hbyte.2.1, hbyte.2.2, UInt32.toNat_toUInt8]
  omega

end Bytes

/-! ## Headers and what they enclose -/

/-- The options of a header: whole words of four bytes, ten of them at most. -/
structure HeaderOptions where
  bytes : Bytes
  words : Fin 11
  length_bytes : bytes.length = 4 * words

/-- How many words a header has that takes five without its options. -/
def HeaderOptions.headerWords (o : HeaderOptions) : Fin 16 := ⟨5 + o.words, by omega⟩

/-- A TCP segment as its sender fills it in. -/
structure TCPSegment where
  sourcePort : UInt16
  destinationPort : UInt16
  seq : Seq
  ack : Seq
  /-- The half byte beside the data offset. -/
  reserved : Fin 16
  control : UInt8
  window : UInt16
  checksum : UInt16
  urgent : UInt16
  options : HeaderOptions
  payload : Bytes

namespace TCPSegment

def header (s : TCPSegment) : Bytes :=
  Bytes.ofWord16 s.sourcePort ++ Bytes.ofWord16 s.destinationPort
    ++ Bytes.ofWord32 s.seq ++ Bytes.ofWord32 s.ack
    ++ [Bytes.ofHalves s.options.headerWords s.reserved, s.control]
    ++ Bytes.ofWord16 s.window ++ Bytes.ofWord16 s.checksum ++ Bytes.ofWord16 s.urgent
    ++ s.options.bytes

def encode (s : TCPSegment) : Bytes := s.header ++ s.payload

theorem length_header (s : TCPSegment) : s.header.length = 4 * s.options.headerWords := by
  simp only [header, HeaderOptions.headerWords, List.length_append, Bytes.ofWord32,
    Bytes.length_ofWord16, s.options.length_bytes, List.length_cons, List.length_nil]
  omega

theorem length_encode (s : TCPSegment) :
    s.encode.length = 4 * s.options.headerWords + s.payload.length := by
  rw [encode, List.length_append, length_header]

theorem le_length_encode (s : TCPSegment) : 20 ≤ s.encode.length := by
  rw [length_encode, HeaderOptions.headerWords]
  simp only
  omega

end TCPSegment

/-- A TCP segment and the IP header of version 4 around it. -/
structure IPv4Datagram where
  service : UInt8
  identification : UInt16
  fragment : UInt16
  timeToLive : UInt8
  checksum : UInt16
  source : IPv4
  destination : IPv4
  options : HeaderOptions
  segment : TCPSegment
  /-- The header can declare the length. -/
  fits : 4 * options.headerWords + segment.encode.length < UInt16.size

namespace IPv4Datagram

def length (d : IPv4Datagram) : Nat := 4 * d.options.headerWords + d.segment.encode.length

def header (d : IPv4Datagram) : Bytes :=
  [Bytes.ofHalves 4 d.options.headerWords, d.service] ++ Bytes.ofWord16 (.ofNat d.length)
    ++ Bytes.ofWord16 d.identification ++ Bytes.ofWord16 d.fragment
    ++ [d.timeToLive, Packet.tcp] ++ Bytes.ofWord16 d.checksum
    ++ [d.source.a, d.source.b, d.source.c, d.source.d]
    ++ [d.destination.a, d.destination.b, d.destination.c, d.destination.d]
    ++ d.options.bytes

theorem length_header (d : IPv4Datagram) : d.header.length = 4 * d.options.headerWords := by
  simp only [header, HeaderOptions.headerWords, List.length_append, Bytes.length_ofWord16,
    d.options.length_bytes, List.length_cons, List.length_nil]
  omega

end IPv4Datagram

def IPv6.bytes (a : IPv6) : Bytes := a.groups.flatMap Bytes.ofWord16

theorem IPv6.length_bytes (a : IPv6) : a.bytes.length = 16 := by
  have hgroups : ∀ gs : List UInt16, (gs.flatMap Bytes.ofWord16).length = 2 * gs.length := by
    intro gs
    induction gs with
    | nil => rfl
    | cons g gs ih =>
      rw [List.flatMap_cons, List.length_append, ih, List.length_cons, Bytes.length_ofWord16]
      omega
  rw [bytes, hgroups, a.length_groups]

/-- A TCP segment and the IP header of version 6 in front of it. -/
structure IPv6Datagram where
  /-- The first half of the traffic class. -/
  upperClass : Fin 16
  /-- The second half of the traffic class, and the first of the flow label. -/
  lowerClass : UInt8
  /-- The rest of the flow label. -/
  label : UInt16
  hopLimit : UInt8
  source : IPv6
  destination : IPv6
  segment : TCPSegment
  /-- The header can declare the length. -/
  fits : segment.encode.length < UInt16.size

namespace IPv6Datagram

/-- The header up to the addresses. -/
def front (d : IPv6Datagram) : Bytes :=
  [Bytes.ofHalves 6 d.upperClass, d.lowerClass] ++ Bytes.ofWord16 d.label
    ++ Bytes.ofWord16 (.ofNat d.segment.encode.length) ++ [Packet.tcp, d.hopLimit]

def header (d : IPv6Datagram) : Bytes := d.front ++ d.source.bytes ++ d.destination.bytes

theorem length_front (d : IPv6Datagram) : d.front.length = 8 := rfl

theorem length_header (d : IPv6Datagram) : d.header.length = 40 := by
  rw [header, List.length_append, List.length_append, d.source.length_bytes,
    d.destination.length_bytes, length_front]

end IPv6Datagram

/-- A TCP segment and the IP header of either version around it. -/
inductive Datagram where
  | v4 (datagram : IPv4Datagram)
  | v6 (datagram : IPv6Datagram)

namespace Datagram

def segment : Datagram → TCPSegment
  | v4 d => d.segment
  | v6 d => d.segment

def source : Datagram → Host
  | v4 d => .v4 d.source
  | v6 d => .v6 d.source 0

def destination : Datagram → Host
  | v4 d => .v4 d.destination
  | v6 d => .v6 d.destination 0

def encode : Datagram → Bytes
  | v4 d => d.header ++ d.segment.encode
  | v6 d => d.header ++ d.segment.encode

end Datagram

end StreamTap
