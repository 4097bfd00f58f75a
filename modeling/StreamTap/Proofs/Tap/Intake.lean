import StreamTap.Proofs.Tracker.Closing
import StreamTap.Tap

/-!
# What a tap has taken in

A datagram whose submission was answered with `ok` has become a packet in the queue.  From there
the tracker takes the packets one after another, and whatever else happens to the tap meanwhile,
the packets that were handled and those that are still inside are, together and in order, what is
in the datagrams that were taken in (`Intake`).

The packets that were handled are those that a course of the tracker has accepted (`handled`), so
the state of the tracker is accounted for as well: it comes from handling just these packets, and
from consumers.  When the tracker has finished the queue is closed and empty, so all packets were
handled, and every pair is closed (`Intake.drained`).
-/

namespace StreamTap

theorem Channel.of_receive_item {α : Type} {c c' : Channel α} {a : α}
    (h : c.receive = .item a c') : c.items = a :: c'.items ∧ c'.isClosed = c.isClosed := by
  unfold receive at h
  split at h
  · next hitems =>
    cases h
    exact ⟨hitems, rfl⟩
  · split at h <;> cases h

namespace Tap

variable {s : Settings} {datagrams : List Bytes} {tap tap' : Tap} {deed : Tracker.Deed}

open Tracker (Served handled)

/-! ## What was taken in -/

/-- What the tracker of a tap begins as. -/
def begun (s : Settings) : Tracker :=
  .ofSettings s (some (.ofCapacity s.tracker.announceCapacity.toNat))

/-- The packet in a datagram, as a tap with these settings decodes it. -/
def packetIn (s : Settings) (data : Bytes) : Except DecodeError Packet :=
  Packet.decode data s.tracker.servicePort

/-- A tap has taken in these datagrams: their packets were handled or are still in the queue. -/
structure Intake (s : Settings) (datagrams : List Bytes) (tap : Tap) : Prop where
  settings : tap.settings = s
  served : ∃ ps, Served (begun s) ps tap.finished tap.tracker ∧
    datagrams.map (packetIn s) = (ps ++ tap.queue.items).map .ok
  /-- The tracker finishes only when nothing is left that it could take. -/
  finished : tap.finished = true → tap.queue.isClosed = true ∧ tap.queue.items = []

/-- The tracker has handled the packets in these datagrams, one after another, and was shut down,
since when consumers may have done this and that; and all pairs are closed. -/
structure Drained (s : Settings) (datagrams : List Bytes) (tap : Tap) : Prop where
  handled : ∃ deeds more, tap.tracker = ((begun s).course deeds).shutdown.course more ∧
    ((begun s).course deeds).isIdle = true ∧ (∀ p, .accept p ∉ more) ∧
    datagrams.map (packetIn s) = (handled (begun s) deeds).map .ok
  closed : ∀ pair ∈ tap.tracker.pairs, pair.IsClosed

/-- What a submission meets: room, a closed queue, or neither. -/
theorem enqueue_cases (tap : Tap) (p : Packet) :
    (tap.queue.isClosed = false ∧
        tap.enqueue p = ({ tap with queue := tap.queue.pushed p }, .ok)) ∨
      (tap.queue.isClosed = true ∧ tap.enqueue p = (tap, .queueClosed)) ∨
      (tap.queue.isClosed = false ∧ tap.enqueue p = (tap, .pending)) := by
  unfold enqueue
  cases hsend : tap.queue.send p with
  | accepted queue =>
    obtain ⟨hopen, -, rfl⟩ := Channel.of_send_accepted hsend
    exact Or.inl ⟨hopen, rfl⟩
  | refused => exact Or.inr (Or.inl ⟨(tap.queue.send_eq_refused_iff p).1 hsend, rfl⟩)
  | full => exact Or.inr (Or.inr ⟨((tap.queue.send_eq_full_iff p).1 hsend).1, rfl⟩)

theorem isClosed_step (h : tap.step = some tap') : tap'.queue.isClosed = tap.queue.isClosed := by
  unfold Tap.step at h
  split at h
  · cases h
  split at h
  · cases h
    rfl
  split at h
  · split at h
    · next hreceive =>
      cases h
      exact (Channel.of_receive_item hreceive).2
    · cases h
    · cases h
      rfl
  · cases h

namespace Intake

theorem start (h : Tap.start s = .ok tap) : Intake s [] tap := by
  unfold Tap.start at h
  split at h
  · cases h
    exact ⟨rfl, ⟨[], .running [], rfl⟩, fun hfinished => by cases hfinished⟩
  · cases h

theorem enqueued (h : Intake s datagrams tap) (hopen : tap.queue.isClosed = false) {data : Bytes}
    {p : Packet} (hdecode : packetIn s data = .ok p) :
    Intake s (datagrams ++ [data]) { tap with queue := tap.queue.pushed p } where
  settings := h.settings
  served := by
    obtain ⟨ps, hserved, htaken⟩ := h.served
    refine ⟨ps, hserved, ?_⟩
    simp [Channel.pushed, htaken, hdecode]
  finished := by
    intro hfinished
    rw [(h.finished hfinished).1] at hopen
    cases hopen

theorem step (h : Intake s datagrams tap) (hstep : tap.step = some tap') :
    Intake s datagrams tap' := by
  obtain ⟨ps, hserved, htaken⟩ := h.served
  unfold Tap.step at hstep
  split at hstep
  · cases hstep
  next hrunning =>
  rw [Bool.not_eq_true] at hrunning
  rw [hrunning] at hserved
  split at hstep
  · next tracker hmove =>
    cases hstep
    exact ⟨h.settings, ⟨ps, hrunning.symm ▸ hserved.step hmove, htaken⟩, h.finished⟩
  split at hstep
  · next hidle =>
    split at hstep
    · next p queue hreceive =>
      cases hstep
      have hitems := (Channel.of_receive_item hreceive).1
      refine ⟨h.settings, ⟨ps ++ [p], hrunning.symm ▸ hserved.accept hidle p, ?_⟩, ?_⟩
      · rw [htaken, hitems]
        simp
      · exact fun hfinished => absurd (hrunning.symm.trans hfinished) Bool.false_ne_true
    · cases hstep
    · next hreceive =>
      cases hstep
      obtain ⟨hclosed, hitems⟩ := tap.queue.receive_eq_finished_iff.1 hreceive
      exact ⟨h.settings, ⟨ps, hserved.shutdown hidle, htaken⟩, fun _ => ⟨hclosed, hitems⟩⟩
  · cases hstep

theorem consumed (h : Intake s datagrams tap) (deeds : List Tracker.Deed)
    (hdeeds : ∀ p, .accept p ∉ deeds) (holder : Holder) (known : KnownPairs) :
    Intake s datagrams { tap with tracker := tap.tracker.course deeds, holder, known } where
  settings := h.settings
  served := by
    obtain ⟨ps, hserved, htaken⟩ := h.served
    exact ⟨ps, hserved.course hdeeds, htaken⟩
  finished := h.finished

theorem did (h : Intake s datagrams tap) (hdeed : ∀ p, deed ≠ .accept p) (holder : Holder)
    (known : KnownPairs) :
    Intake s datagrams { tap with tracker := tap.tracker.perform deed, holder, known } :=
  h.consumed [deed] (fun p hp => hdeed p (List.mem_singleton.1 hp).symm) holder known

theorem closed (h : Intake s datagrams tap) (isRunning : Bool) :
    Intake s datagrams { tap.closeQueue with isRunning } :=
  ⟨h.settings, h.served, fun hfinished => ⟨rfl, (h.finished hfinished).2⟩⟩

theorem drained (h : Intake s datagrams tap) (hfinished : tap.finished = true) :
    Drained s datagrams tap := by
  obtain ⟨ps, hserved, htaken⟩ := h.served
  rw [(h.finished hfinished).2, List.append_nil] at htaken
  rw [hfinished] at hserved
  refine ⟨?_, (hserved.lived.tended (.ofSettings s _)).2 rfl |>.closed⟩
  generalize htracker : tap.tracker = tracker at hserved
  cases hserved with
  | stopped deeds more hidle hmore => exact ⟨deeds, more, rfl, hidle, hmore, htaken⟩

theorem moves (h : Intake s datagrams tap) (n : Nat) : Intake s datagrams (tap.moves n) := by
  induction n generalizing tap with
  | zero => exact h
  | succ n ih =>
    rw [Tap.moves]
    split
    · exact h
    · next hstep => exact ih (h.step hstep)

theorem settle (h : Intake s datagrams tap) : Intake s datagrams tap.settle := h.moves _

theorem readFor (h : Intake s datagrams tap) (place : Nat) (d : Direction) (n : Nat) {task : Task}
    (htask : task.isReader = true) : Intake s datagrams (tap.readFor place d n task).1 := by
  induction n generalizing tap task with
  | zero => exact h
  | succ n ih =>
    obtain ⟨⟨k, htaken⟩, hwaits⟩ := tap.tracker.readTurn_eq place d htask
    have hnext : Intake s datagrams
        { tap with tracker := (tap.tracker.readTurn place d task).1 }.settle := by
      rw [htaken]
      exact (h.consumed _ (Tracker.accept_not_mem_takes place d k) tap.holder tap.known).settle
    simp only [Tap.readFor]
    split
    · exact hnext
    · next task' houtcome =>
      split
      · exact ih hnext (hwaits task' houtcome)
      · exact hnext

theorem read (h : Intake s datagrams tap) (pair : Nat) (d : Direction) {call : Call}
    (hcall : call.task.isReader = true) : Intake s datagrams (tap.read pair d call).1 := by
  unfold Tap.read
  split
  · exact h
  · exact h.readFor _ d _ hcall

end Intake

/-! ## Requests -/

/-- What can be asked of a tap. -/
inductive Request where
  | submit (data : Bytes)
  | take
  | receive
  | dropReceiver
  | read (pair : Nat) (direction : Direction)
  | readAtLeast (pair : Nat) (direction : Direction) (least : Nat)
  | stop
  deriving DecidableEq, Repr

def serve (tap : Tap) : Request → Tap
  | .submit data => (tap.submit data).1
  | .take => tap.take.1
  | .receive => tap.receive.1
  | .dropReceiver => tap.dropReceiver
  | .read pair direction => (tap.read pair direction .read).1
  | .readAtLeast pair direction least => (tap.read pair direction (.readAtLeast least)).1
  | .stop => tap.stop.1

def serveAll (tap : Tap) (requests : List Request) : Tap := requests.foldl serve tap

/-- The datagram that a request has the tap take in, if it does. -/
def takenBy (tap : Tap) : Request → List Bytes
  | .submit data => if (tap.submit data).2 = .ok then [data] else []
  | _ => []

/-- The datagrams whose submissions were answered with `ok`, in the order of the answers. -/
def taken : Tap → List Request → List Bytes
  | _, [] => []
  | tap, r :: requests => tap.takenBy r ++ taken (tap.serve r) requests

namespace Intake

theorem submit (h : Intake s datagrams tap) (data : Bytes) :
    Intake s (datagrams ++ tap.takenBy (.submit data)) (tap.submit data).1 := by
  have hport : Packet.decode data tap.settings.tracker.servicePort = packetIn s data := by
    rw [h.settings, packetIn]
  simp only [takenBy, Tap.submit, hport]
  cases hdecode : packetIn s data with
  | error e => simpa using h
  | ok p =>
    rcases tap.enqueue_cases p with ⟨hopen, hsend⟩ | ⟨-, hsend⟩ | ⟨-, hsend⟩ <;>
      simp only [Tap.send, hsend]
    · exact (h.enqueued hopen hdecode).settle
    · simpa using h.settle
    · simpa using h.settle

theorem receive (h : Intake s datagrams tap) : Intake s datagrams tap.receive.1 := by
  unfold Tap.receive
  split
  · split
    · next place tracker hnews =>
      have hperform : tap.tracker.perform .takeNews = tracker := by
        simp only [Tracker.perform, hnews]
      have htold : Intake s datagrams { tap with tracker, known := tap.known.learn place } :=
        hperform ▸ h.did (fun p hp => by cases hp) tap.holder (tap.known.learn place)
      exact htold.settle
    · exact h
    · exact h
    · exact h
  · exact h

theorem serve (h : Intake s datagrams tap) (r : Request) :
    Intake s (datagrams ++ tap.takenBy r) (tap.serve r) := by
  cases r with
  | submit data => exact h.submit data
  | take =>
    simp only [takenBy, List.append_nil, Tap.serve, Tap.take]
    split
    · exact h.consumed [] (fun _ => List.not_mem_nil) .consumer tap.known
    · exact h
    · exact h
  | receive => exact (List.append_nil datagrams).symm ▸ h.receive
  | dropReceiver =>
    simp only [takenBy, List.append_nil, Tap.serve, Tap.dropReceiver]
    split
    · have hleft : Intake s datagrams
          { tap with tracker := tap.tracker.perform .endNews, holder := .nobody } :=
        h.did (fun p hp => by cases hp) .nobody tap.known
      exact hleft.settle
    · exact h
  | read pair d => exact (List.append_nil datagrams).symm ▸ h.read pair d rfl
  | readAtLeast pair d least => exact (List.append_nil datagrams).symm ▸ h.read pair d rfl
  | stop => exact (List.append_nil datagrams).symm ▸ (h.closed false).settle

theorem serveAll (h : Intake s datagrams tap) (requests : List Request) :
    Intake s (datagrams ++ taken tap requests) (tap.serveAll requests) := by
  induction requests generalizing tap datagrams with
  | nil => exact (List.append_nil datagrams).symm ▸ h
  | cons r requests ih =>
    have hrest := ih (h.serve r)
    rw [List.append_assoc] at hrest
    exact hrest

end Intake

end Tap

end StreamTap
