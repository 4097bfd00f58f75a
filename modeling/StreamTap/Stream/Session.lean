import StreamTap.Stream.Buffer

/-!
# Calls on one buffer

A call on a buffer may have to wait: a reader for something to read, a writer for
room in the hand-off or for the writers that were started before it.  A `Session`
is a buffer together with the calls that are not finished, in the order they were
started.  What is left of a call is a `Task`, and `Task.step` is the smallest move
it can make.

Writers take turns in the order they were started.  A writer may move only if no
unfinished call before it writes too; until then it has changed nothing.  A
segment without payload asks for nothing and never waits.

After every start the session is brought to rest: all tasks are given a turn in
the order of their start, each moving as far as it can, and this is repeated until
none can move.  Every move lowers the `weight` of the session, which is why rest
is reached.
-/

namespace StreamTap

/-- A call on a buffer. -/
inductive Call where
  | write (w : Write)
  /-- Read one chunk. -/
  | read
  /-- Read whole chunks until they hold `least` bytes together. -/
  | readAtLeast (least : Nat)
  deriving DecidableEq, Repr

/-- How a call ends. -/
inductive Answer where
  /-- A write is done. -/
  | done
  /-- What a reader read. -/
  | bytes (data : Bytes)
  /-- The buffer is closed and there is nothing left to read. -/
  | closed
  deriving DecidableEq, Repr

/-- What is left of a call. -/
inductive Task where
  /-- A write that has changed nothing yet. -/
  | write (w : Write)
  /-- A write whose chunk is on offer. -/
  | draining
  /-- A reader of one chunk. -/
  | read
  /-- A reader that has taken chunks and wants `least` bytes in all. -/
  | gather (least : Nat) (got : Bytes)
  deriving DecidableEq, Repr

def Call.task : Call → Task
  | .write w => .write w
  | .read => .read
  | .readAtLeast least => .gather least []

namespace Task

/-- Whether later writers have to wait for this task. -/
def blocksWriters : Task → Bool
  | .write w => !w.isVoid
  | .draining => true
  | .read => false
  | .gather _ _ => false

/-- What comes of an attempt to move. -/
inductive Step where
  /-- The task cannot move. -/
  | stuck
  /-- The task has moved and has more to do. -/
  | moved (task : Task) (buffer : Buffer)
  /-- The task has moved and its call is finished. -/
  | finished (answer : Answer) (buffer : Buffer)

/-- After a writer's move its call goes on exactly while a chunk is on offer. -/
def Step.ofWriter (b : Buffer) : Step :=
  if b.sending.isSome then .moved .draining b else .finished .done b

/-- The smallest move of a task; `myTurn` says that no writer is before it. -/
def step (b : Buffer) (myTurn : Bool) : Task → Step
  | .write w =>
    if w.isVoid then .finished .done b
    else if myTurn then .ofWriter (b.begin w)
    else .stuck
  | .draining => if b.canOffer then .ofWriter b.offer else .stuck
  | .read =>
    match b.take with
    | .chunk chunk rest => .finished (.bytes chunk) rest
    | .nothing => .stuck
    | .closed => .finished .closed b
  | .gather least got =>
    if least ≤ got.length then .finished (.bytes got) b
    else
      match b.take with
      | .chunk chunk rest => .moved (.gather least (got ++ chunk)) rest
      | .nothing => .stuck
      | .closed => .finished (if got.isEmpty then .closed else .bytes got) b

/-- How many moves a task adds to those left in its buffer, at most: a segment
that is taken in is pulled, accepted and read later. -/
def weight : Task → Nat
  | .write _ => 5
  | .draining => 1
  | .read => 1
  | .gather _ _ => 1

/-- Where a task stands after its turn. -/
inductive Outcome where
  | waits (task : Task)
  | finished (answer : Answer)
  deriving DecidableEq, Repr

def moves (myTurn : Bool) : Nat → Buffer → Task → Buffer × Outcome
  | 0, b, t => (b, .waits t)
  | n + 1, b, t =>
    match t.step b myTurn with
    | .stuck => (b, .waits t)
    | .moved t b => moves myTurn n b t
    | .finished a b => (b, .finished a)

/-- A turn: the task moves as far as it can. -/
def turn (b : Buffer) (myTurn : Bool) (t : Task) : Buffer × Outcome :=
  t.moves myTurn (b.weight + t.weight) b

end Task

/-- A buffer and its unfinished calls, each with the number it was started under. -/
structure Session where
  buffer : Buffer
  /-- The unfinished calls in the order of their start. -/
  pending : List (Nat × Task)
  deriving DecidableEq, Repr

namespace Session

def ofBuffer (b : Buffer) : Session := ⟨b, []⟩

/-- How many moves the session can make without a further call, at most. -/
def weight (s : Session) : Nat :=
  s.buffer.weight + total (fun p => p.2.weight) s.pending

/-- Gives each task its turn, the earliest started first.  Beside the tasks that
still wait stand the answers of those that have finished. -/
def turns (b : Buffer) (myTurn : Bool) :
    List (Nat × Task) → Session × List (Nat × Answer)
  | [] => (⟨b, []⟩, [])
  | (i, t) :: rest =>
    match t.turn b myTurn with
    | (b, .finished a) =>
      let (s, answers) := turns b myTurn rest
      (s, (i, a) :: answers)
    | (b, .waits t) =>
      let (s, answers) := turns b (myTurn && !t.blocksWriters) rest
      (⟨s.buffer, (i, t) :: s.pending⟩, answers)

/-- Rounds of turns, at most `n`, while they change something. -/
def rounds : Nat → Session → Session × List (Nat × Answer)
  | 0, s => (s, [])
  | n + 1, s =>
    let (next, answers) := turns s.buffer true s.pending
    if next.weight < s.weight then
      let (last, more) := rounds n next
      (last, answers ++ more)
    else (next, answers)

/-- Brings a session to rest; the answers come in the order the calls finished. -/
def settle (s : Session) : Session × List (Nat × Answer) := s.rounds (s.weight + 1)

/-- Starts a call under a number and brings the session to rest. -/
def start (s : Session) (number : Nat) (call : Call) : Session × List (Nat × Answer) :=
  { s with pending := s.pending ++ [(number, call.task)] }.settle

/-- Closes the buffer and brings the session to rest. -/
def close (s : Session) : Session × List (Nat × Answer) :=
  { s with buffer := s.buffer.close }.settle

end Session

end StreamTap
