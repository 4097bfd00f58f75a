import StreamTap.Flow.Set
import StreamTap.Registry

/-!
# Named sets of flows

A workspace holds sets of flows under names.  A request names the set it is about
and may name a second one; a set that is named for the first time is empty.  A
request without a second set is about one set in both roles, and so is one that names
the same set twice.  The commands about two sets look at that first: a set has all its
own members already, it keeps none of them when they are taken out, and what it has in
common with itself is a copy of it.
-/

namespace StreamTap

/-- Sets of flows under names. -/
structure Workspace where
  sets : Registry String FlowSet
  deriving DecidableEq, Repr

namespace Workspace

/-- What is to be done with a set. -/
inductive Command where
  /-- Make a flow a member; says whether it was none before. -/
  | add (flow : Flow)
  /-- Take a flow out; says whether it was a member before. -/
  | remove (flow : Flow)
  | has (flow : Flow)
  | size
  | isEmpty
  | members
  /-- Make every member of the second set a member. -/
  | addAll
  /-- Take every member of the second set out. -/
  | removeAll
  /-- Store the common members of the two sets under a name, and list them. -/
  | intersection (into : String)
  /-- Store a copy of the set under a name. -/
  | clone (into : String)
  /-- Make the flows of a list the members. -/
  | collect (flows : List Flow)
  deriving DecidableEq, Repr

/-- A command and the sets it is about. -/
structure Request where
  target : String
  other : Option String
  command : Command
  deriving DecidableEq, Repr

/-- What a command tells. -/
inductive Reply where
  | nothing
  | flag (value : Bool)
  | count (n : Nat)
  | flows (texts : List String)
  deriving DecidableEq, Repr

def empty : Workspace := ⟨.empty⟩

def get (w : Workspace) (name : String) : FlowSet := (w.sets.find? name).getD .empty

def put (w : Workspace) (name : String) (s : FlowSet) : Workspace := ⟨w.sets.insert name s⟩

/-- Stores the empty set under a name that has no set yet. -/
def mention (w : Workspace) (name : String) : Workspace := ⟨w.sets.ensure name .empty⟩

def Request.second (r : Request) : String := r.other.getD r.target

/-- Whether a request is about one set in both roles. -/
def Request.isAboutOne (r : Request) : Bool := r.second == r.target

/-- Carries out a request about sets that are there. -/
def carryOut (w : Workspace) (r : Request) : Workspace × Reply :=
  let mine := w.get r.target
  let theirs := w.get r.second
  match r.command with
  | .add f => (w.put r.target (mine.insert f), .flag (!decide (f ∈ mine)))
  | .remove f => (w.put r.target (mine.erase f), .flag (decide (f ∈ mine)))
  | .has f => (w, .flag (decide (f ∈ mine)))
  | .size => (w, .count mine.size)
  | .isEmpty => (w, .flag (mine.size == 0))
  | .members => (w, .flows mine.listing)
  | .addAll =>
    (if r.isAboutOne then w else w.put r.target (mine.union theirs), .nothing)
  | .removeAll =>
    (w.put r.target (if r.isAboutOne then .empty else mine.difference theirs), .nothing)
  | .intersection into =>
    let common := if r.isAboutOne then mine else mine.intersection theirs
    (w.put into common, .flows common.listing)
  | .clone into => (w.put into mine, .nothing)
  | .collect fs => (w.put r.target (.ofList fs), .nothing)

/-- Carries out one request; the sets it names for the first time are empty. -/
def run (w : Workspace) (r : Request) : Workspace × Reply :=
  ((w.mention r.target).mention r.second).carryOut r

/-- Carries out requests one after another; the replies come in their order. -/
def runAll (w : Workspace) : List Request → Workspace × List Reply
  | [] => (w, [])
  | r :: rest =>
    let (w, reply) := w.run r
    let (w, replies) := w.runAll rest
    (w, reply :: replies)

def sizes (w : Workspace) : List (String × Nat) :=
  w.sets.entries.map fun e => (e.1, e.2.size)

end Workspace

end StreamTap
