import StreamTap.Wire.Endpoint.Text

/-!
# Flows

A flow is one direction of a TCP connection.  The two flows of a connection are
each other's reverse.
-/

namespace StreamTap

/-- One direction of a connection, from its source to its destination. -/
structure Flow where
  source : Endpoint
  destination : Endpoint
  deriving DecidableEq, Repr

namespace Flow

def reverse (f : Flow) : Flow := ⟨f.destination, f.source⟩

@[simp] theorem reverse_reverse (f : Flow) : f.reverse.reverse = f := rfl

theorem reverse_inj {f g : Flow} : f.reverse = g.reverse ↔ f = g :=
  ⟨fun h => by simpa using congrArg reverse h, congrArg reverse⟩

def text (f : Flow) : String := f.source.text ++ " -> " ++ f.destination.text

end Flow

end StreamTap
