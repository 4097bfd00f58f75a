import StreamTap.Registry
import StreamTap.Settings.Basic
import StreamTap.Stream.Buffer
import StreamTap.Tracker.Lifecycle

/-!
# Tracking connections

The tracker handles one packet after another.  A packet without payload is an
event in the life of its connection; when that reaches `established`, a pair of
buffers is opened for the two directions and announced, and when it reaches
`closed` the connection is forgotten and its pair closed.  A packet with payload
is written into the pair of its connection, if that is established, and dropped
otherwise.

Consumers hold the pairs too: they read them and may close them.  `pairs` keeps
every pair that was ever opened, in the order they were opened, and a pair is
referred to by its place in this list.

Handling a packet may have to wait, for room in the channel of announcements or
in a hand-off.  What is left to do for the packet at hand is its `Errand`.
`accept` begins with a packet and must find no errand; `step` is the smallest move
of an errand, and `settle` moves until the errand is done or has to wait.

## The connection preface

A client that speaks HTTP/2 opens its stream with a fixed preface of 24 bytes.
Inbound payload that begins with it, stands exactly where the stream goes on, and
comes before any byte was delivered is written without the preface: the buffer is
rebased to the byte behind it.
-/

namespace StreamTap

/-- What the tracker knows of a connection. -/
structure Connection where
  flow : Flow
  phase : Phase
  /-- The number of the client's last SYN that opened a handshake. -/
  synSeq : Option Seq
  deriving DecidableEq, Repr

/-- The buffers for the two directions of a connection. -/
structure Pair where
  /-- The flow from the client to the service. -/
  flow : Flow
  inbound : Buffer
  outbound : Buffer
  deriving DecidableEq, Repr

namespace Pair

/-- Buffers that expect the given numbers. -/
def opened (flow : Flow) (inbound outbound : Seq) (s : StreamSettings) : Pair where
  flow
  inbound := .startingAt inbound s.window s.handoffCapacity.toNat
  outbound := .startingAt outbound s.window s.handoffCapacity.toNat

def buffer (p : Pair) : Direction → Buffer
  | .inbound => p.inbound
  | .outbound => p.outbound

def withBuffer (p : Pair) (b : Buffer) : Direction → Pair
  | .inbound => { p with inbound := b }
  | .outbound => { p with outbound := b }

def close (p : Pair) : Pair :=
  { p with inbound := p.inbound.close, outbound := p.outbound.close }

def weight (p : Pair) : Nat := p.inbound.weight + p.outbound.weight

end Pair

/-- What became of the packets so far.  Every packet whose handling is over is
counted under `packets` and under at most one of the others. -/
structure Counts where
  packets : Nat := 0
  /-- Events that led to another phase. -/
  transitions : Nat := 0
  /-- Events that led nowhere. -/
  ignored : Nat := 0
  /-- Packets whose flags mean nothing. -/
  unrecognized : Nat := 0
  /-- Payloads that were written into a buffer. -/
  routed : Nat := 0
  /-- Payloads of connections that are not established. -/
  dropped : Nat := 0
  deriving DecidableEq, Repr

/-- What is left to do for a packet. -/
inductive Errand where
  /-- The pair has to be announced. -/
  | announce (pair : Nat)
  /-- These writes have to be made; one may be unfinished in the buffer. -/
  | deliver (pair : Nat) (direction : Direction) (writes : List Write)
  deriving DecidableEq, Repr

/-- How many moves an errand needs beside those left in its buffer, at most. -/
def Errand.weight : Errand → Nat
  | .announce _ => 1
  | .deliver _ _ writes => 4 * writes.length + 1

/-- The tracker of all connections of a service. -/
structure Tracker where
  stream : StreamSettings
  captureResponse : Bool
  connections : Registry Flow Connection
  /-- The place of the pair of each established connection. -/
  streams : Registry Flow Nat
  /-- Every pair that was ever opened. -/
  pairs : List Pair
  /-- Where new pairs are announced, if anywhere. -/
  announcements : Option (Channel Nat)
  counts : Counts
  errand : Option Errand
  deriving DecidableEq, Repr

namespace Tracker

/-- A tracker that has seen no packet. -/
def ofSettings (s : Settings) (announcements : Option (Channel Nat)) : Tracker where
  stream := s.stream
  captureResponse := s.tracker.captureResponse
  connections := .empty
  streams := .empty
  pairs := []
  announcements
  counts := {}
  errand := none

/-- The pair of a connection that has one, and its place. -/
def pairOf? (t : Tracker) (flow : Flow) : Option (Nat × Pair) := do
  let place ← t.streams.find? flow
  let pair ← t.pairs[place]?
  return (place, pair)

/-- The phase of a connection; one that is not known yet listens. -/
def phaseOf (t : Tracker) (flow : Flow) : Phase :=
  match t.connections.find? flow with
  | some c => c.phase
  | none => .listen

def modifyPair (t : Tracker) (place : Nat) (f : Pair → Pair) : Tracker :=
  { t with pairs := t.pairs.modify place f }

/-- Replaces one buffer of the pair at one place. -/
def putBuffer (t : Tracker) (place : Nat) (direction : Direction) (b : Buffer) : Tracker :=
  t.modifyPair place (fun p => p.withBuffer b direction)

/-- Closes the pair registered for a flow, if there is one. -/
def closePairOf (t : Tracker) (flow : Flow) : Tracker :=
  match t.streams.find? flow with
  | some place => t.modifyPair place Pair.close
  | none => t

/-- Opens a pair for a connection whose handshake the packet completes.  Inbound
bytes begin behind the client's SYN, outbound bytes where the packet
acknowledges. -/
def establish (t : Tracker) (c : Connection) (p : Packet) : Tracker :=
  let inboundSeq := match c.synSeq with
    | some seq => seq.advance 1
    | none => p.seq
  let place := t.pairs.length
  let t := t.closePairOf c.flow
  { t with
    pairs := t.pairs ++ [.opened c.flow inboundSeq p.ack t.stream]
    streams := t.streams.insert c.flow place
    errand := t.announcements.map fun _ => .announce place }

/-- Forgets a connection and closes its pair. -/
def release (t : Tracker) (flow : Flow) : Tracker :=
  let t := t.closePairOf flow
  { t with
    connections := t.connections.erase flow
    streams := t.streams.erase flow }

/-- Takes note of an event that led nowhere. -/
def ignore (t : Tracker) : Tracker :=
  { t with counts := { t.counts with ignored := t.counts.ignored + 1 } }

/-- Applies an event to the connection of the packet that brought it. -/
def trigger (t : Tracker) (event : Event) (p : Packet) : Tracker :=
  match t.connections.find? p.connection with
  | none => t.ignore
  | some c =>
    match c.phase.next event with
    | none => t.ignore
    | some phase =>
      let synSeq := if event = .receiveSyn then some p.seq else c.synSeq
      let c := { c with phase, synSeq }
      let t := { t with
        connections := t.connections.insert p.connection c
        counts := { t.counts with transitions := t.counts.transitions + 1 } }
      match phase with
      | .established => t.establish c p
      | .closed => t.release p.connection
      | _ => t

/-- The bytes with which a client opens an HTTP/2 connection:
`PRI * HTTP/2.0`, an empty line, `SM`, and an empty line. -/
def preface : Bytes :=
  [0x50, 0x52, 0x49, 0x20, 0x2a, 0x20, 0x48, 0x54, 0x54, 0x50, 0x2f, 0x32, 0x2e, 0x30,
    0x0d, 0x0a, 0x0d, 0x0a, 0x53, 0x4d, 0x0d, 0x0a, 0x0d, 0x0a]

/-- Whether a payload is the preface at the very start of a stream. -/
def opensStream (b : Buffer) (seq : Seq) (payload : Bytes) : Bool :=
  preface.isPrefixOf payload && b.delivered == 0 && b.published == seq

/-- The writes by which inbound payload comes into its buffer. -/
def inboundWrites (b : Buffer) (seq : Seq) (payload : Bytes) : List Write :=
  if opensStream b seq payload then
    let after := seq.advance preface.length
    [.rebase after, .add after (payload.drop preface.length)]
  else [.add seq payload]

/-- Takes note of payload that belongs to no established connection. -/
def drop (t : Tracker) : Tracker :=
  { t with counts := { t.counts with dropped := t.counts.dropped + 1 } }

/-- Sets out to write the payload of a packet into the pair of its connection.
Outbound payload that is not wanted is passed over without being counted. -/
def route (t : Tracker) (p : Packet) : Tracker :=
  match t.pairOf? p.connection with
  | none => t.drop
  | some (place, pair) =>
    match p.direction with
    | .inbound =>
      let writes := inboundWrites pair.inbound p.seq p.payload
      { t with errand := some (.deliver place .inbound writes) }
    | .outbound =>
      if t.captureResponse then
        { t with errand := some (.deliver place .outbound [.add p.seq p.payload]) }
      else t

/-- Begins to handle a packet. -/
def accept (t : Tracker) (p : Packet) : Tracker :=
  let t := { t with
    counts := { t.counts with packets := t.counts.packets + 1 }
    connections := t.connections.ensure p.connection ⟨p.connection, .listen, none⟩ }
  if p.hasPayload then
    if t.phaseOf p.connection = .established then t.route p else t.drop
  else
    match Event.ofPacket p with
    | some event => t.trigger event p
    | none =>
      { t with counts := { t.counts with unrecognized := t.counts.unrecognized + 1 } }

/-- The smallest move of the errand, or nothing if there is no errand or it has to
wait.  A pair that nobody can be told about is closed. -/
def step (t : Tracker) : Option Tracker :=
  match t.errand with
  | none => none
  | some (.announce place) =>
    match t.announcements with
    | none => some { t with errand := none }
    | some channel =>
      match channel.send place with
      | .accepted channel => some { t with announcements := some channel, errand := none }
      | .refused => some { t.modifyPair place Pair.close with errand := none }
      | .full => none
  | some (.deliver place direction writes) => do
    let pair ← t.pairs[place]?
    let b := pair.buffer direction
    if b.sending.isSome then
      if b.canOffer then t.putBuffer place direction b.offer else none
    else
      match writes with
      | w :: rest =>
        some { t.putBuffer place direction (b.begin w) with
          errand := some (.deliver place direction rest) }
      | [] =>
        some { t with
          counts := { t.counts with routed := t.counts.routed + 1 }
          errand := none }

def moves : Nat → Tracker → Tracker
  | 0, t => t
  | n + 1, t =>
    match t.step with
    | none => t
    | some t => moves n t

/-- How many moves are left without a further packet, at most, those of readers
included. -/
def weight (t : Tracker) : Nat :=
  (t.errand.map Errand.weight).getD 0 + total Pair.weight t.pairs

/-- Moves until the errand is done or has to wait. -/
def settle (t : Tracker) : Tracker := t.moves t.weight

/-- Whether the packet at hand is done. -/
def isIdle (t : Tracker) : Bool := t.errand.isNone

/-- Handles a packet as far as possible without waiting. -/
def handle (t : Tracker) (p : Packet) : Tracker := (t.accept p).settle

/-- Ends the tracking: every registered pair is closed, everything is forgotten,
and nothing will be announced any more. -/
def shutdown (t : Tracker) : Tracker :=
  { t with
    pairs := t.streams.values.foldl (fun pairs place => pairs.modify place Pair.close) t.pairs
    connections := .empty
    streams := .empty
    announcements := t.announcements.map Channel.close }

end Tracker

end StreamTap
