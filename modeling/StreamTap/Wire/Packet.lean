import StreamTap.Flow.Basic
import StreamTap.Wire.Seq

/-!
# Packets

A packet is one TCP segment on its way between the client and the observed
service.  `connection` names the connection it belongs to by the flow from the
client to the service, whichever way the packet itself travels, so that both
directions of a connection have one name.
-/

namespace StreamTap

/-- The way a packet travels, seen from the service. -/
inductive Direction where
  /-- From the client to the service. -/
  | inbound
  /-- From the service to the client. -/
  | outbound
  deriving DecidableEq, Repr

/-- The control bits of a TCP header. -/
structure Flags where
  fin : Bool
  syn : Bool
  rst : Bool
  psh : Bool
  ack : Bool
  urg : Bool
  deriving DecidableEq, Repr

namespace Flags

/-- The flags in a control byte.  Its two high bits are not flags. -/
def ofByte (b : UInt8) : Flags where
  fin := b &&& 1 != 0
  syn := b &&& 2 != 0
  rst := b &&& 4 != 0
  psh := b &&& 8 != 0
  ack := b &&& 16 != 0
  urg := b &&& 32 != 0

/-- The control byte that has these flags and no other bit. -/
def toByte (f : Flags) : UInt8 :=
  f.fin.toUInt8 ||| f.syn.toUInt8 <<< 1 ||| f.rst.toUInt8 <<< 2 ||| f.psh.toUInt8 <<< 3
    ||| f.ack.toUInt8 <<< 4 ||| f.urg.toUInt8 <<< 5

end Flags

/-- A captured TCP segment. -/
structure Packet where
  source : Endpoint
  destination : Endpoint
  seq : Seq
  ack : Seq
  flags : Flags
  payload : Bytes
  direction : Direction
  deriving DecidableEq, Repr

namespace Packet

def flow (p : Packet) : Flow := ⟨p.source, p.destination⟩

/-- The flow from the client to the service in the packet's connection. -/
def connection (p : Packet) : Flow :=
  match p.direction with
  | .inbound => p.flow
  | .outbound => p.flow.reverse

/-- Whether the packet carries bytes of the stream. -/
def hasPayload (p : Packet) : Bool := !p.payload.isEmpty

end Packet

end StreamTap
