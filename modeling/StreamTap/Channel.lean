/-!
# Bounded first-in first-out channels

A channel carries items from senders to receivers.  It holds at most `capacity`
items; a sender that finds it full has to wait, and a receiver that finds it
empty has to wait.  Closing a channel refuses every later send at once, but what
is already inside can still be received; only then does a receiver learn that
the channel is finished.

Waiting itself is not part of a channel.  `send` and `receive` say what a call
meets *now*, and whoever schedules the calls tries a waiting one again later.
-/

namespace StreamTap

/-- A queue of bounded length that can be closed. -/
structure Channel (α : Type) where
  /-- How many items fit. -/
  capacity : Nat
  /-- What is inside, the oldest item first. -/
  items : List α := []
  /-- Whether later sends are refused. -/
  isClosed : Bool := false
  /-- There is room for one item at least. -/
  capacity_pos : 0 < capacity
  deriving DecidableEq, Repr

namespace Channel

variable {α : Type}

/-- An empty open channel.  One that is asked to hold nothing holds one item. -/
def ofCapacity (n : Nat) : Channel α where
  capacity := max 1 n
  capacity_pos := by omega

/-- What a sender meets. -/
inductive Sent (α : Type) where
  /-- The item is inside now. -/
  | accepted (channel : Channel α)
  /-- The channel is open and has no room: the sender waits. -/
  | full
  /-- The channel is closed: the item is given back. -/
  | refused

/-- What a receiver meets. -/
inductive Received (α : Type) where
  /-- The oldest item, and the channel without it. -/
  | item (a : α) (channel : Channel α)
  /-- The channel is open and holds nothing: the receiver waits. -/
  | empty
  /-- The channel is closed and holds nothing any more. -/
  | finished

/-- Puts an item behind those already inside. -/
def send (c : Channel α) (a : α) : Sent α :=
  if c.isClosed then .refused
  else if c.items.length < c.capacity then .accepted { c with items := c.items ++ [a] }
  else .full

/-- Takes the oldest item out. -/
def receive (c : Channel α) : Received α :=
  match c.items with
  | a :: rest => .item a { c with items := rest }
  | [] => if c.isClosed then .finished else .empty

/-- Refuses every later send; what is inside stays. -/
def close (c : Channel α) : Channel α := { c with isClosed := true }

@[simp] theorem items_close (c : Channel α) : c.close.items = c.items := rfl

@[simp] theorem isClosed_close (c : Channel α) : c.close.isClosed = true := rfl

@[simp] theorem close_close (c : Channel α) : c.close.close = c.close := rfl

theorem send_eq_refused_iff (c : Channel α) (a : α) :
    c.send a = .refused ↔ c.isClosed = true := by
  unfold send
  split
  · simp_all
  · split <;> simp_all

theorem send_eq_full_iff (c : Channel α) (a : α) :
    c.send a = .full ↔ c.isClosed = false ∧ c.capacity ≤ c.items.length := by
  unfold send
  split
  · simp_all
  · split
    · simp_all
    · simp_all

theorem receive_eq_empty_iff (c : Channel α) :
    c.receive = .empty ↔ c.isClosed = false ∧ c.items = [] := by
  unfold receive
  split
  · simp_all
  · split <;> simp_all

theorem receive_eq_finished_iff (c : Channel α) :
    c.receive = .finished ↔ c.isClosed = true ∧ c.items = [] := by
  unfold receive
  split
  · simp_all
  · split <;> simp_all

end Channel

end StreamTap
