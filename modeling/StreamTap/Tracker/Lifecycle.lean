import StreamTap.Wire.Packet

/-!
# The life of a connection

An observer follows a connection as the service lives through it: the three-way
handshake leads to `established`, and the client's close followed by the
service's own leads to `closed`.  `Phase.next` is the table of transitions.  An
event without an entry leaves the phase as it is; in particular a reset counts
only before the handshake and while the connection is established.

`Event.ofFlags` reads a packet without payload as an event.
-/

namespace StreamTap

/-- Where a connection stands. -/
inductive Phase where
  | listen
  | synReceived1
  | synReceived2
  | established
  | closeWait
  | lastAck
  | closed
  deriving DecidableEq, Repr

/-- What a packet without payload means to the service. -/
inductive Event where
  | receiveSyn
  | sendSynAck
  | receiveAck
  | receiveFin
  | sendAck
  | sendFin
  | receiveRst
  deriving DecidableEq, Repr

namespace Phase

def all : List Phase :=
  [.listen, .synReceived1, .synReceived2, .established, .closeWait, .lastAck, .closed]

theorem mem_all (p : Phase) : p ∈ all := by cases p <;> decide

def name : Phase → String
  | .listen => "LISTEN"
  | .synReceived1 => "SYN_RECEIVED_1"
  | .synReceived2 => "SYN_RECEIVED_2"
  | .established => "ESTABLISHED"
  | .closeWait => "CLOSE_WAIT"
  | .lastAck => "LAST_ACK"
  | .closed => "CLOSED"

/-- The phase after an event, if the event leads anywhere. -/
def next : Phase → Event → Option Phase
  | .listen, .receiveSyn => some .synReceived1
  | .listen, .receiveRst => some .closed
  | .synReceived1, .sendSynAck => some .synReceived2
  | .synReceived2, .receiveAck => some .established
  | .established, .receiveFin => some .closeWait
  | .established, .receiveRst => some .closed
  | .closeWait, .sendFin => some .lastAck
  | .lastAck, .receiveAck => some .closed
  | _, _ => none

def ofName? (s : String) : Option Phase := all.find? (fun p => p.name == s)

end Phase

namespace Event

def all : List Event :=
  [.receiveSyn, .sendSynAck, .receiveAck, .receiveFin, .sendAck, .sendFin, .receiveRst]

theorem mem_all (e : Event) : e ∈ all := by cases e <;> decide

def name : Event → String
  | .receiveSyn => "RECEIVE_SYN"
  | .sendSynAck => "SEND_SYN_ACK"
  | .receiveAck => "RECEIVE_ACK"
  | .receiveFin => "RECEIVE_FIN"
  | .sendAck => "SEND_ACK"
  | .sendFin => "SEND_FIN"
  | .receiveRst => "RECEIVE_RST"

def ofName? (s : String) : Option Event := all.find? (fun e => e.name == s)

/-- What flags mean on a packet without payload that travels in the given
direction.  A reset is one from either side.  A client opens with SYN alone and a
service answers with SYN and ACK; SYN with the wrong company means nothing, and
so does a packet with none of the three other flags. -/
def ofFlags (direction : Direction) (flags : Flags) : Option Event :=
  if flags.rst then some .receiveRst
  else
    match direction with
    | .inbound =>
      if flags.syn then (if flags.ack then none else some .receiveSyn)
      else if flags.fin then some .receiveFin
      else if flags.ack then some .receiveAck
      else none
    | .outbound =>
      if flags.syn then (if flags.ack then some .sendSynAck else none)
      else if flags.fin then some .sendFin
      else if flags.ack then some .sendAck
      else none

/-- What a packet means as an event, its payload left aside. -/
def ofPacket (p : Packet) : Option Event := ofFlags p.direction p.flags

end Event

/-- A phase and an event that leads nowhere from it. -/
structure UnexpectedEvent where
  phase : Phase
  event : Event
  deriving DecidableEq, Repr

def UnexpectedEvent.message (u : UnexpectedEvent) : String :=
  "no transition from " ++ u.phase.name ++ " on " ++ u.event.name

/-- One transition, or the reason why there is none. -/
def Phase.step (p : Phase) (e : Event) : Except UnexpectedEvent Phase :=
  match p.next e with
  | some q => .ok q
  | none => .error ⟨p, e⟩

/-- The outcomes of events that happen one after another; one that leads nowhere
leaves the phase as it is. -/
def Phase.trace (p : Phase) : List Event → List (Except UnexpectedEvent Phase)
  | [] => []
  | e :: es => p.step e :: Phase.trace ((p.next e).getD p) es

end StreamTap
