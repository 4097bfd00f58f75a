import StreamTap.Tracker.Consumer
import StreamTap.Wire.Datagram

/-!
# A tracker at work

A session is a tracker together with the jobs that wait for it and the calls of
the consumers that wait for something to read.

Jobs are done one at a time in the order they came.  A job is to handle one packet,
or to run through a list of packets and then stop.  A stopped tracker is gone: its
connections are forgotten and every later job is turned away.

After every request the session is brought to rest: the tracker works as far as it
can, then every waiting reader has a turn in the order of their start, and this is
repeated until nothing moves.  As in a session of a single buffer, every move
lowers the `weight`.
-/

namespace StreamTap

namespace Tracker

/-- Something the tracker is asked to do. -/
inductive Job where
  /-- Handle a packet. -/
  | handle (packet : Packet)
  /-- Handle these packets and stop. -/
  | run (packets : List Packet)

/-- What is left of the job at hand, the errand of the tracker aside. -/
inductive Work where
  | handle (flow : Flow)
  | run (rest : List Packet)
  deriving DecidableEq, Repr

/-- How a request ends. -/
inductive Reply where
  | ok
  /-- The tracker had stopped before. -/
  | stopped
  | undecodable (error : DecodeError)
  | answer (answer : Answer)
  /-- No such pair is known. -/
  | unknownPair
  /-- A pair was taken from the announcements. -/
  | announced (number : Nat) (flow : Flow)
  /-- Nothing is announced at the moment. -/
  | noNews
  /-- Nothing will be announced any more. -/
  | noMoreNews
  /-- Nobody receives the announcements. -/
  | noReceiver
  deriving DecidableEq, Repr

/-- A tracker, its jobs, and its consumers. -/
structure Session where
  tracker : Tracker
  /-- The port of the observed service. -/
  service : UInt16
  stopped : Bool
  /-- The job at hand, if there is one, and its number. -/
  work : Option (Nat × Work)
  /-- The jobs to come and their numbers. -/
  jobs : List (Nat × Job)
  readings : List Reading
  known : KnownPairs
  /-- The connections of single packets, in the order they first came up. -/
  mentioned : List Flow
  /-- Whether there is somebody to receive announcements. -/
  receiving : Bool

/-- How many moves a job takes, at most: one to begin with each packet, one to be
done, and those of the errands. -/
def Job.weight : Job → Nat
  | .handle _ => 12
  | .run packets => 12 * packets.length + 2

/-- How many moves are left of the job at hand, at most. -/
def Work.weight : Work → Nat
  | .handle _ => 1
  | .run rest => 12 * rest.length + 1

namespace Session

/-- A tracker with these settings that nobody has asked for anything.  With a
capacity for announcements somebody receives them. -/
def ofSettings (s : Settings) (announcing : Option Nat) : Session where
  tracker := .ofSettings s (announcing.map Channel.ofCapacity)
  service := s.tracker.servicePort
  stopped := false
  work := none
  jobs := []
  readings := []
  known := []
  mentioned := []
  receiving := announcing.isSome

/-- How many moves the session can make without a further request, at most. -/
def weight (s : Session) : Nat :=
  s.tracker.weight + (s.work.map (fun w => w.2.weight)).getD 0
    + total (fun j => j.2.weight) s.jobs + total Reading.weight s.readings

/-- Learns of the pair registered for a connection, if there is one. -/
def learnOf (s : Session) (flow : Flow) : Session :=
  match s.tracker.streams.find? flow with
  | some place => { s with known := s.known.learn place }
  | none => s

/-- Takes up the next job. -/
def takeUp (s : Session) (number : Nat) : Job → Session × List (Nat × Reply)
  | .handle p =>
    if s.stopped then (s, [(number, .stopped)])
    else
      ({ s with
          tracker := s.tracker.accept p
          work := some (number, .handle p.connection) }, [])
  | .run packets =>
    if s.stopped then (s, [(number, .stopped)])
    else ({ s with work := some (number, .run packets) }, [])

/-- The smallest move of the tracker, or nothing if it waits or has no job. -/
def workStep (s : Session) : Option (Session × List (Nat × Reply)) :=
  match s.tracker.step with
  | some t => some ({ s with tracker := t }, [])
  | none =>
    if s.tracker.isIdle then
      match s.work with
      | some (number, .handle flow) =>
        some ({ s.learnOf flow with work := none }, [(number, .ok)])
      | some (number, .run (p :: rest)) =>
        some ({ s with
          tracker := s.tracker.accept p
          work := some (number, .run rest) }, [])
      | some (number, .run []) =>
        some ({ s with
          tracker := s.tracker.shutdown
          stopped := true
          work := none }, [(number, .ok)])
      | none =>
        match s.jobs with
        | (number, job) :: jobs => some ({ s with jobs }.takeUp number job)
        | [] => none
    else none

def workMoves : Nat → Session → Session × List (Nat × Reply)
  | 0, s => (s, [])
  | n + 1, s =>
    match s.workStep with
    | none => (s, [])
    | some (s, replies) =>
      let (s, more) := workMoves n s
      (s, replies ++ more)

/-- Gives each reading its turn, the earliest started first. -/
def readTurns (t : Tracker) : List Reading → Tracker × List Reading × List (Nat × Reply)
  | [] => (t, [], [])
  | r :: rest =>
    match t.readTurn r.place r.direction r.task with
    | (t, .waits task) =>
      let (t, readings, replies) := readTurns t rest
      (t, { r with task } :: readings, replies)
    | (t, .finished a) =>
      let (t, readings, replies) := readTurns t rest
      (t, readings, (r.number, .answer a) :: replies)

/-- The tracker works as far as it can, then every reader has a turn. -/
def round (s : Session) : Session × List (Nat × Reply) :=
  let (s, done) := s.workMoves s.weight
  let (tracker, readings, read) := readTurns s.tracker s.readings
  ({ s with tracker, readings }, done ++ read)

def rounds : Nat → Session → Session × List (Nat × Reply)
  | 0, s => (s, [])
  | n + 1, s =>
    let (next, replies) := s.round
    if next.weight < s.weight then
      let (last, more) := rounds n next
      (last, replies ++ more)
    else (next, replies)

/-- Brings the session to rest; the replies come in the order they arose. -/
def settle (s : Session) : Session × List (Nat × Reply) := s.rounds (s.weight + 1)

/-- Puts a job behind those that wait. -/
def enqueue (s : Session) (number : Nat) (job : Job) : Session × List (Nat × Reply) :=
  { s with jobs := s.jobs ++ [(number, job)] }.settle

/-- Takes note of a connection that came up. -/
def mention (s : Session) (flow : Flow) : Session :=
  if flow ∈ s.mentioned then s else { s with mentioned := s.mentioned ++ [flow] }

def packet (s : Session) (number : Nat) (p : Packet) : Session × List (Nat × Reply) :=
  (s.mention p.connection).enqueue number (.handle p)

/-- Brings the session to rest after a request that was answered at once. -/
def replying (s : Session) (number : Nat) (reply : Reply) : Session × List (Nat × Reply) :=
  let (s, replies) := s.settle
  (s, (number, reply) :: replies)

/-- Asks for the packet in a datagram to be handled.  A datagram without one is no job
and turned away at once, even when the tracker has stopped. -/
def datagram (s : Session) (number : Nat) (data : Bytes) : Session × List (Nat × Reply) :=
  match Packet.decode data s.service with
  | .ok p => s.packet number p
  | .error e => s.replying number (.undecodable e)

/-- Asks for packets to be handled and the tracker to be stopped after them. -/
def run (s : Session) (number : Nat) (packets : List Packet) : Session × List (Nat × Reply) :=
  s.enqueue number (.run packets)

/-- Starts a call to read from a known pair. -/
def read (s : Session) (number pair : Nat) (direction : Direction) (call : Call) :
    Session × List (Nat × Reply) :=
  match s.known[pair]? with
  | none => s.replying number .unknownPair
  | some place =>
    let reading := { number, place, direction, task := call.task }
    { s with readings := s.readings ++ [reading] }.settle

def close (s : Session) (number pair : Nat) : Session × List (Nat × Reply) :=
  match s.known[pair]? with
  | none => s.replying number .unknownPair
  | some place => { s with tracker := s.tracker.modifyPair place Pair.close }.replying number .ok

/-- Takes an announcement without waiting for one. -/
def receive (s : Session) (number : Nat) : Session × List (Nat × Reply) :=
  if !s.receiving then s.replying number .noReceiver
  else
    match s.tracker.takeNews with
    | .pair place tracker =>
      let known := s.known.learn place
      let next := { s with tracker, known }
      match tracker.pairs[place]? with
      | some pair => next.replying number (.announced (known.numberOf place) pair.flow)
      | none => next.replying number .unknownPair
    | .nothing => s.replying number .noNews
    | .ended => s.replying number .noMoreNews
    | .unannounced => s.replying number .noReceiver

def dropReceiver (s : Session) (number : Nat) : Session × List (Nat × Reply) :=
  { s with tracker := s.tracker.endNews, receiving := false }.replying number .ok

/-- What can be seen of the tracker itself while no job is unfinished and it has
not stopped: each mentioned connection with its phase, if it is known, and whether
it has a pair. -/
def connections (s : Session) : List (Flow × Option Phase × Bool) :=
  s.mentioned.map fun flow =>
    (flow, (s.tracker.connections.find? flow).map (·.phase), s.tracker.streams.contains flow)

/-- Whether the tracker can be looked at. -/
def isQuiet (s : Session) : Bool := !s.stopped && s.work.isNone && s.jobs.isEmpty

def pairs (s : Session) : List Pair := s.known.pairs s.tracker

/-- The numbers of the requests that are not finished, in increasing order. -/
def pending (s : Session) : List Nat :=
  ((s.work.map (·.1)).toList ++ s.jobs.map (·.1) ++ s.readings.map (·.number)).mergeSort
    (fun a b => decide (a ≤ b))

end Session

end Tracker

end StreamTap
