import StreamTap.Wire.Packet

/-!
# Packets in raw datagrams

`Packet.decode` reads a captured IP datagram of version 4 or 6 that carries TCP.
It works in three steps.

* `Enclosed.ofIPv4` and `Enclosed.ofIPv6` find where the TCP segment lies and
  between which hosts it travels.  The length that the IP header declares cuts
  off what a link layer has padded, as far as it is plausible.
* `Header.read` reads the header of the TCP segment and finds its payload.
* The port of the observed service tells the direction; a segment that neither
  comes from it nor goes to it is not wanted.

Every byte that is looked at and every cut is accompanied by the proof that it is
inside the datagram, so no datagram, however mangled, is read beyond its end.
-/

namespace StreamTap

/-- Why a datagram is not a packet of the observed service. -/
inductive DecodeError where
  | empty
  | unsupportedVersion (version : Nat)
  | shortIPv4
  | noTCPHeader
  | notTCP (protocol : UInt8)
  | shortIPv6
  | nextHeaderNotTCP (nextHeader : UInt8)
  | shortSegment
  | badDataOffset (headerLength : Nat)
  | unrelatedPorts (source destination service : UInt16)
  deriving DecidableEq, Repr

def DecodeError.message : DecodeError → String
  | .empty => "empty packet"
  | .unsupportedVersion v => "unsupported IP version " ++ toString v
  | .shortIPv4 => "IPv4 packet too short"
  | .noTCPHeader => "IPv4 packet has no TCP header"
  | .notTCP p => "IP protocol " ++ toString p.toNat ++ " is not TCP"
  | .shortIPv6 => "IPv6 packet too short"
  | .nextHeaderNotTCP h => "IPv6 next header " ++ toString h.toNat ++ " is not TCP"
  | .shortSegment => "TCP segment too short"
  | .badDataOffset n => "invalid TCP data offset " ++ toString n
  | .unrelatedPorts s d p =>
    "ports " ++ toString s.toNat ++ " -> " ++ toString d.toNat
      ++ " do not involve service port " ++ toString p.toNat

namespace Packet

def tcp : UInt8 := 6

def ipv6HeaderLength : Nat := 40

def tcpHeaderLength : Nat := 20

/-- A TCP segment inside a datagram, and the hosts it travels between. -/
structure Enclosed (data : Bytes) where
  /-- Where the segment begins: the length of the IP header. -/
  start : Nat
  /-- Where the segment ends. -/
  stop : Nat
  inside : start ≤ stop ∧ stop ≤ data.length
  source : Host
  destination : Host

/-- The bytes of the enclosed segment. -/
def Enclosed.segment {data : Bytes} (e : Enclosed data) : Bytes :=
  data.slice e.start e.stop e.inside

/-- Finds the TCP segment in a datagram of version 4.  The declared length counts
if it covers the IP header and nothing that is missing. -/
def Enclosed.ofIPv4 (data : Bytes) : Except DecodeError (Enclosed data) :=
  if short : data.length < 20 then .error .shortIPv4
  else
    let headerLength := (data[0] &&& 0x0f).toNat * 4
    if noHeader : headerLength < 20 ∨ data.length < headerLength + tcpHeaderLength then
      .error .noTCPHeader
    else if data[9] ≠ tcp then .error (.notTCP data[9])
    else
      let declared := (Bytes.word16 data[2] data[3]).toNat
      let stop :=
        if headerLength ≤ declared ∧ declared ≤ data.length then declared else data.length
      .ok {
        start := headerLength
        stop
        inside := by
          simp only [stop, tcpHeaderLength] at noHeader ⊢
          split <;> omega
        source := .v4 ⟨data[12], data[13], data[14], data[15]⟩
        destination := .v4 ⟨data[16], data[17], data[18], data[19]⟩ }

/-- The address that sixteen bytes write. -/
def ipv6OfBytes (bytes : Bytes) : IPv6 :=
  .ofGroups (groups bytes)
where
  /-- Each two bytes as one group. -/
  groups : Bytes → List UInt16
    | hi :: lo :: rest => Bytes.word16 hi lo :: groups rest
    | _ => []

/-- Finds the TCP segment in a datagram of version 6.  Extension headers are not
looked through. -/
def Enclosed.ofIPv6 (data : Bytes) : Except DecodeError (Enclosed data) :=
  if short : data.length < ipv6HeaderLength + tcpHeaderLength then .error .shortIPv6
  else
    have long : 60 ≤ data.length := Nat.le_of_not_lt short
    if data[6] ≠ tcp then .error (.nextHeaderNotTCP data[6])
    else
      let declared := (Bytes.word16 data[4] data[5]).toNat
      .ok {
        start := ipv6HeaderLength
        stop := min (ipv6HeaderLength + declared) data.length
        inside := by simp only [ipv6HeaderLength]; omega
        source := .v6 (ipv6OfBytes (data.slice 8 24 (by omega))) 0
        destination := .v6 (ipv6OfBytes (data.slice 24 40 (by omega))) 0 }

/-- Finds the TCP segment in a datagram of either version. -/
def Enclosed.find (data : Bytes) : Except DecodeError (Enclosed data) :=
  match data.head?.map (fun b : UInt8 => (b >>> 4).toNat) with
  | none => .error .empty
  | some 4 => ofIPv4 data
  | some 6 => ofIPv6 data
  | some v => .error (.unsupportedVersion v)

/-- What the header of a TCP segment tells, and what follows it. -/
structure Header where
  sourcePort : UInt16
  destinationPort : UInt16
  seq : Seq
  ack : Seq
  flags : Flags
  payload : Bytes

/-- Reads the header of a TCP segment. -/
def Header.read (segment : Bytes) : Except DecodeError Header :=
  if short : segment.length < tcpHeaderLength then .error .shortSegment
  else
    have long : 20 ≤ segment.length := Nat.le_of_not_lt short
    let headerLength := (segment[12] >>> 4).toNat * 4
    if bad : headerLength < tcpHeaderLength ∨ segment.length < headerLength then
      .error (.badDataOffset headerLength)
    else
      .ok {
        sourcePort := Bytes.word16 segment[0] segment[1]
        destinationPort := Bytes.word16 segment[2] segment[3]
        seq := Bytes.word32 segment[4] segment[5] segment[6] segment[7]
        ack := Bytes.word32 segment[8] segment[9] segment[10] segment[11]
        flags := .ofByte segment[13]
        payload := segment.slice headerLength segment.length (by omega) }

/-- The direction of a segment between two ports.  A segment that goes to the
service is inbound even if it also comes from its port. -/
def directionOf (source destination service : UInt16) : Option Direction :=
  if destination = service then some .inbound
  else if source = service then some .outbound
  else none

/-- Reads a raw datagram as a packet of the service on the given port. -/
def decode (data : Bytes) (service : UInt16) : Except DecodeError Packet := do
  let enclosed ← Enclosed.find data
  let header ← Header.read enclosed.segment
  match directionOf header.sourcePort header.destinationPort service with
  | none => .error (.unrelatedPorts header.sourcePort header.destinationPort service)
  | some direction =>
    return {
      source := ⟨enclosed.source, header.sourcePort⟩
      destination := ⟨enclosed.destination, header.destinationPort⟩
      seq := header.seq
      ack := header.ack
      flags := header.flags
      payload := header.payload
      direction }

end Packet

end StreamTap
