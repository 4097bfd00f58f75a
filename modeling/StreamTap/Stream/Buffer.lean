import StreamTap.Channel
import StreamTap.Stream.Parked

/-!
# Reassembly buffers

A buffer rebuilds one direction of one connection.  Writers bring segments in
any order; a reader receives the bytes in order.  Between the two stand

* the *parked* segments, which wait for a predecessor, and
* the *hand-off* channel of chunks that are in order and not yet read.

A segment that starts at `expected` continues the stream.  It is **pulled** out
of the parked ones, `expected` moves behind it, and it is **offered** to the
hand-off; when that accepts it, the next one is pulled, until none continues the
stream.  Pulling and then offering until nothing moves is a **drain**.

The hand-off may be full.  Then the chunk that was pulled stays in `sending` and
the write that pulled it is unfinished: it waits for room, and no other write may
begin before it has finished.  A write is thus one `begin` and as many `offer`s as
change something, with `sending = none` before the first and after the last of
them; a reader's only move is `take`.  The calls that make these moves, wait and
take turns are in `StreamTap.Stream.Session`.

A closed buffer refuses chunks.  The chunk that was on offer is lost, and the
write ends there: nothing more is pulled, and stale segments stay parked.
Otherwise a drain that moved something ends by giving up the parked segments
that are outside the window of the new `expected`.
-/

namespace StreamTap

/-- What one call to write asks for. -/
inductive Write where
  /-- Take in a segment. -/
  | add (seq : Seq) (payload : Bytes)
  /-- Expect the stream to continue at another number from now on. -/
  | rebase (seq : Seq)
  deriving DecidableEq, Repr

/-- A segment without payload: writing it asks for nothing at all. -/
def Write.isVoid : Write → Bool
  | .add _ payload => payload.isEmpty
  | .rebase _ => false

/-- One direction of a connection while it is rebuilt. -/
structure Buffer where
  /-- How far ahead of `expected` a segment may start. -/
  window : UInt32
  /-- The number of the byte that continues the stream. -/
  expected : Seq
  /-- The segments that wait for a predecessor. -/
  parked : Parked
  /-- `expected` as it is shown to those who may not look at the parked segments. -/
  published : Seq
  /-- Chunks in order, ready for the reader. -/
  handoff : Channel Bytes
  /-- The chunk on offer to a hand-off that has no room. -/
  sending : Option Bytes
  /-- Running count of the bytes in `parked`. -/
  buffered : Nat
  /-- Running count of the bytes that were pulled and not yet read. -/
  available : Nat
  /-- How many segments were refused because they start outside the window. -/
  outOfWindow : Nat
  /-- How many segments were refused because one was parked under their number. -/
  duplicate : Nat
  /-- How many parked segments were given up because the stream left them behind. -/
  stale : Nat
  /-- How many bytes the hand-off has accepted. -/
  delivered : Nat
  deriving DecidableEq, Repr

namespace Buffer

/-- A buffer whose stream begins at `seq`, with room for `capacity` chunks in
the hand-off, or for one if `capacity` is zero. -/
def startingAt (seq : Seq) (window : UInt32) (capacity : Nat) : Buffer where
  window
  expected := seq
  parked := .empty
  published := seq
  handoff := .ofCapacity capacity
  sending := none
  buffered := 0
  available := 0
  outOfWindow := 0
  duplicate := 0
  stale := 0
  delivered := 0

/-- Whether the hand-off refuses chunks. -/
def isClosed (b : Buffer) : Bool := b.handoff.isClosed

/-- Refuses chunks from now on; those in the hand-off can still be read. -/
def close (b : Buffer) : Buffer := { b with handoff := b.handoff.close }

/-- Gives up the parked segments that start outside the window. -/
def prune (b : Buffer) : Buffer :=
  let inside := Seq.inWindow b.expected b.window
  let behind := b.parked.filter (fun s => !inside s)
  { b with
    parked := b.parked.filter inside
    buffered := b.buffered - behind.bytes
    stale := b.stale + behind.size }

/-- Pulls the parked segment that continues the stream, so that it is on offer.
If there is none the drain is over, and when it `moved` something the segments
left behind are given up. -/
def pull (b : Buffer) (moved : Bool) : Buffer :=
  match b.parked.find? b.expected with
  | some chunk =>
    let next := b.expected.advance chunk.length
    { b with
      expected := next
      parked := b.parked.erase b.expected
      published := next
      sending := some chunk
      buffered := b.buffered - chunk.length
      available := b.available + chunk.length }
  | none => if moved then b.prune else b

/-- Offers the pulled chunk to the hand-off.  Accepted, it is delivered and the
next one is pulled; refused, it is lost and the drain ends; without room nothing
changes. -/
def offer (b : Buffer) : Buffer :=
  match b.sending with
  | none => b
  | some chunk =>
    match b.handoff.send chunk with
    | .accepted handoff =>
      { b with
        handoff
        sending := none
        delivered := b.delivered + chunk.length }.pull true
    | .refused => { b with sending := none, available := b.available - chunk.length }
    | .full => b

/-- Whether an offer would change something. -/
def canOffer (b : Buffer) : Bool :=
  b.sending.isSome && (b.isClosed || b.handoff.items.length < b.handoff.capacity)

/-- The part of a write that comes before its first offer. -/
def begin (b : Buffer) : Write → Buffer
  | .add seq payload =>
    if payload.isEmpty then b
    else if !Seq.inWindow b.expected b.window seq then
      { b with outOfWindow := b.outOfWindow + 1 }
    else if (b.parked.find? seq).isSome then
      { b with duplicate := b.duplicate + 1 }
    else
      { b with
        parked := b.parked.insert seq payload
        buffered := b.buffered + payload.length }.pull false
  | .rebase seq => { b with expected := seq, published := seq }.prune.pull false

/-- What a reader meets at a buffer. -/
inductive Taken where
  /-- The oldest chunk, and the buffer without it. -/
  | chunk (chunk : Bytes) (buffer : Buffer)
  /-- Nothing to read yet. -/
  | nothing
  /-- Nothing to read ever again. -/
  | closed

/-- Takes the oldest chunk out of the hand-off. -/
def take (b : Buffer) : Taken :=
  match b.handoff.receive with
  | .item chunk handoff =>
    .chunk chunk { b with handoff, available := b.available - chunk.length }
  | .empty => .nothing
  | .finished => .closed

/-- How many moves are left in a buffer, at most: a parked segment can be pulled,
accepted by the hand-off and read, a pulled one accepted and read. -/
def weight (b : Buffer) : Nat :=
  3 * b.parked.size + (if b.sending.isSome then 2 else 0) + b.handoff.items.length

end Buffer

end StreamTap
