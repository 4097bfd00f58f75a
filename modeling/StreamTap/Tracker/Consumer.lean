import StreamTap.Stream.Session
import StreamTap.Tracker.Basic

/-!
# The consumers of a tracker

Consumers take new pairs from the announcements and read them.  They call the pairs
by the order in which they learned of them: the first pair they know is number 0.
A pair stays known, and can be read, after its connection is gone.
-/

namespace StreamTap

/-- What is left of a consumer's call to read. -/
structure Reading where
  /-- The number the call was started under. -/
  number : Nat
  /-- The place of the pair among all that were opened. -/
  place : Nat
  direction : Direction
  task : Task
  deriving DecidableEq, Repr

/-- How many moves a reading makes beside those of its buffer, at most. -/
def Reading.weight (r : Reading) : Nat := r.task.weight

namespace Tracker

/-- Gives a task its turn at one buffer of a pair. -/
def readTurn (t : Tracker) (place : Nat) (direction : Direction) (task : Task) :
    Tracker × Task.Outcome :=
  match t.pairs[place]? with
  | none => (t, .waits task)
  | some pair =>
    let (b, outcome) := task.turn (pair.buffer direction) true
    (t.putBuffer place direction b, outcome)

/-- What a consumer finds among the announcements. -/
inductive News where
  /-- A new pair, and the tracker without its announcement. -/
  | pair (place : Nat) (tracker : Tracker)
  /-- Nothing at the moment. -/
  | nothing
  /-- Nothing ever again. -/
  | ended
  /-- The tracker announces nothing to anybody. -/
  | unannounced

/-- Takes the oldest announcement. -/
def takeNews (t : Tracker) : News :=
  match t.announcements with
  | none => .unannounced
  | some channel =>
    match channel.receive with
    | .item place channel => .pair place { t with announcements := some channel }
    | .empty => .nothing
    | .finished => .ended

/-- Refuses announcements from now on: nobody is left to take them. -/
def endNews (t : Tracker) : Tracker :=
  { t with announcements := t.announcements.map Channel.close }

end Tracker

/-- The places of the pairs that consumers know, in the order they learned of
them. -/
abbrev KnownPairs := List Nat

namespace KnownPairs

/-- Learns of a pair, unless it is known. -/
def learn (known : KnownPairs) (place : Nat) : KnownPairs :=
  if place ∈ known then known else known ++ [place]

def numberOf (known : KnownPairs) (place : Nat) : Nat := known.idxOf place

def pairs (known : KnownPairs) (t : Tracker) : List Pair :=
  known.filterMap fun place => t.pairs[place]?

end KnownPairs

end StreamTap
