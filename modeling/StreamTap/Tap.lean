import StreamTap.Tracker.Consumer
import StreamTap.Wire.Datagram

/-!
# A running tap

A tap is a tracker with a queue of packets in front of it and a channel of
announcements behind it.  Capture puts packets into the queue; consumers take new
pairs from the announcements and read them.

The tracker works on its own: after every request it goes on until it has to wait,
for a packet, for room among the announcements, or for a reader.  A call that has
to wait lets the tracker work in the meantime; if that does not help the call is
given up, and its reply is `pending`.  What a call that is given up has already
done stays done: a reader has lost the chunks it took, and a `stop` has closed the
queue and does not watch over the tracker any more.

Until somebody asks for the announcements the tap keeps them itself, and the
tracker waits once they are full.
-/

namespace StreamTap

/-- Who can receive announcements. -/
inductive Holder where
  /-- The tap itself, which takes none. -/
  | tap
  | consumer
  | nobody
  deriving DecidableEq, Repr

/-- A tracker with the queues that feed and drain it. -/
structure Tap where
  settings : Settings
  tracker : Tracker
  /-- The packets on their way to the tracker. -/
  queue : Channel Packet
  holder : Holder
  /-- Whether the tap watches over its tracker, which it does until it is stopped. -/
  isRunning : Bool
  /-- Whether the tracker has done its last packet and shut down. -/
  finished : Bool
  /-- The pairs that were received. -/
  known : KnownPairs
  deriving DecidableEq, Repr

namespace Tap

/-- How a call ends. -/
inductive Reply where
  | ok
  /-- The call was given up. -/
  | pending
  | undecodable (error : DecodeError)
  /-- The queue of packets is closed. -/
  | queueClosed
  | answer (answer : Answer)
  /-- No such pair is known. -/
  | unknownPair
  /-- A pair was received; this is its number. -/
  | received (pair : Nat)
  /-- Nothing will be announced any more. -/
  | noMoreNews
  /-- The announcements are not the consumer's to receive. -/
  | noReceiver
  deriving DecidableEq, Repr

/-- Starts a tap with settings that have no flaw. -/
def start (s : Settings) : Except (List Flaw) Tap :=
  if s.flaws.isEmpty then
    .ok {
      settings := s
      tracker := .ofSettings s (some (.ofCapacity s.tracker.announceCapacity.toNat))
      queue := .ofCapacity s.tracker.queueCapacity.toNat
      holder := .tap
      isRunning := true
      finished := false
      known := [] }
  else .error s.flaws

/-- The smallest move of the tracker on its own: a move of its errand, the next
packet, or, when the queue is closed and empty, the end.  Nothing if it waits. -/
def step (tap : Tap) : Option Tap :=
  if tap.finished then none
  else
    match tap.tracker.step with
    | some tracker => some { tap with tracker }
    | none =>
      if tap.tracker.isIdle then
        match tap.queue.receive with
        | .item p queue => some { tap with queue, tracker := tap.tracker.accept p }
        | .empty => none
        | .finished => some { tap with tracker := tap.tracker.shutdown, finished := true }
      else none

/-- How many moves are left without a further request, at most, those of readers
included.  Handling a packet takes no more moves than its share. -/
def weight (tap : Tap) : Nat :=
  tap.tracker.weight + 12 * tap.queue.items.length + if tap.finished then 0 else 1

def moves : Nat → Tap → Tap
  | 0, tap => tap
  | n + 1, tap =>
    match tap.step with
    | none => tap
    | some tap => moves n tap

def settle (tap : Tap) : Tap := tap.moves tap.weight

/-- Puts a packet into the queue, if it has room. -/
def enqueue (tap : Tap) (p : Packet) : Tap × Reply :=
  match tap.queue.send p with
  | .accepted queue => ({ tap with queue }, .ok)
  | .refused => (tap, .queueClosed)
  | .full => (tap, .pending)

/-- Puts a packet into the queue and lets the tracker work. -/
def send (tap : Tap) (p : Packet) : Tap × Reply :=
  let (tap, reply) := tap.enqueue p
  (tap.settle, reply)

/-- Puts the packet in a datagram into the queue and lets the tracker work. -/
def submit (tap : Tap) (data : Bytes) : Tap × Reply :=
  match Packet.decode data tap.settings.tracker.servicePort with
  | .error e => (tap, .undecodable e)
  | .ok p => tap.send p

/-- Hands the announcements over to the consumer; says whether it could. -/
def take (tap : Tap) : Tap × Bool :=
  match tap.holder with
  | .tap => ({ tap with holder := .consumer }, true)
  | .consumer => (tap, false)
  | .nobody => (tap, false)

/-- Receives an announcement and lets the tracker work. -/
def receive (tap : Tap) : Tap × Reply :=
  if tap.holder = .consumer then
    match tap.tracker.takeNews with
    | .pair place tracker =>
      let known := tap.known.learn place
      ({ tap with tracker, known }.settle, .received (known.numberOf place))
    | .nothing => (tap, .pending)
    | .ended => (tap, .noMoreNews)
    | .unannounced => (tap, .noReceiver)
  else (tap, .noReceiver)

def dropReceiver (tap : Tap) : Tap :=
  if tap.holder = .consumer then
    { tap with tracker := tap.tracker.endNews, holder := .nobody }.settle
  else tap

/-- A task at a buffer and the tracker move in turns until the call is finished or
neither can move; at most `n` turns. -/
def readFor (place : Nat) (direction : Direction) : Nat → Tap → Task → Tap × Reply
  | 0, tap, _ => (tap, .pending)
  | n + 1, tap, task =>
    let (tracker, outcome) := tap.tracker.readTurn place direction task
    let next := { tap with tracker }.settle
    match outcome with
    | .finished a => (next, .answer a)
    | .waits task =>
      if tracker.weight < tap.tracker.weight then readFor place direction n next task
      else (next, .pending)

/-- Reads from a known pair.  Every turn but the last takes a chunk, and every chunk
that can come is counted in the weight. -/
def read (tap : Tap) (pair : Nat) (direction : Direction) (call : Call) : Tap × Reply :=
  match tap.known[pair]? with
  | none => (tap, .unknownPair)
  | some place => tap.readFor place direction (tap.weight + 1) call.task

def closeQueue (tap : Tap) : Tap := { tap with queue := tap.queue.close }

/-- Closes the queue and waits for the tracker to finish.  A tap that was stopped
before has nothing left to wait for. -/
def stop (tap : Tap) : Tap × Reply :=
  let next := { tap.closeQueue with isRunning := false }.settle
  (next, if tap.isRunning && !next.finished then .pending else .ok)

def pairs (tap : Tap) : List Pair := tap.known.pairs tap.tracker

end Tap

end StreamTap
