import Mathlib.Data.List.Perm.Basic
import StreamTap.Proofs.Tap.Intake

/-!
# Stopping loses nothing

Many callers may submit datagrams at once.  A submission that finds no room waits, and when the
queue is closed in the meantime it is turned away; so between `ok` and an error everything hangs
on the moment of the close.  A `Scene` is a tap with the submissions at it, and an `Act` is the
smallest thing that can happen there: a submission begins or tries again, the tracker moves, a
consumer does something, or a stop closes the queue.  A stop returns when the tracker has finished.

In every scene each submission has ended once or still waits (`perm_submissions_run`), and those
that ended with `ok` are what the tap has taken in (`Sound`).  A submission that ends with an error
has no effect: without the datagrams that do not decode, and after the close without any
submission, the tap comes to the same state (`run_filter`).
-/

namespace StreamTap

namespace Tap

/-! ## Scenes -/

/-- A tap, the submissions that wait for room at it, and those that have ended. -/
structure Scene where
  tap : Tap
  /-- The datagrams that wait to be submitted, with the packets in them. -/
  waiting : List (Bytes × Packet)
  /-- The datagrams whose submission has ended, and how, in this order. -/
  replies : List (Bytes × Reply)
  deriving DecidableEq, Repr

/-- The smallest thing that can happen at a tap. -/
inductive Act where
  /-- A submission begins. -/
  | submit (data : Bytes)
  /-- A submission that waits tries again. -/
  | retry (i : Nat)
  /-- The tracker moves. -/
  | work
  /-- A consumer takes a chunk or an announcement, closes a pair, or drops the receiver. -/
  | consume (deed : Tracker.Deed) (h : ∀ p, deed ≠ .accept p)
  /-- A stop begins. -/
  | close

/-- The datagram whose submission begins with an act. -/
def Act.submitted : Act → List Bytes
  | .submit data => [data]
  | _ => []

namespace Scene

/-- Tries to submit a packet; without room the submission waits. -/
def offer (scene : Scene) (data : Bytes) (p : Packet) : Scene :=
  match scene.tap.enqueue p with
  | (_, .pending) => { scene with waiting := scene.waiting ++ [(data, p)] }
  | (tap, reply) => { scene with tap, replies := scene.replies ++ [(data, reply)] }

def happen (scene : Scene) : Act → Scene
  | .submit data =>
    match Packet.decode data scene.tap.settings.tracker.servicePort with
    | .error e => { scene with replies := scene.replies ++ [(data, .undecodable e)] }
    | .ok p => scene.offer data p
  | .retry i =>
    match scene.waiting[i]? with
    | some (data, p) => { scene with waiting := scene.waiting.eraseIdx i }.offer data p
    | none => scene
  | .work => { scene with tap := scene.tap.step.getD scene.tap }
  | .consume deed _ =>
    { scene with tap := { scene.tap with tracker := scene.tap.tracker.perform deed } }
  | .close => { scene with tap := { scene.tap.closeQueue with isRunning := false } }

def run (scene : Scene) (acts : List Act) : Scene := acts.foldl happen scene

/-- A tap at which nothing was submitted yet. -/
def around (tap : Tap) : Scene := ⟨tap, [], []⟩

/-- The datagrams that were submitted, whether the submission has ended or waits. -/
def submissions (scene : Scene) : List Bytes :=
  scene.replies.map Prod.fst ++ scene.waiting.map Prod.fst

/-- The datagrams whose submission has ended with `ok`. -/
def taken (scene : Scene) : List Bytes :=
  scene.replies.filterMap fun r => if r.2 = .ok then some r.1 else none

variable {scene scene' : Scene} {s : Settings} {data : Bytes} {p : Packet}

theorem offer_cases (scene : Scene) (data : Bytes) (p : Packet) :
    (scene.tap.queue.isClosed = false ∧ scene.offer data p =
        { scene with
          tap := { scene.tap with queue := scene.tap.queue.pushed p }
          replies := scene.replies ++ [(data, .ok)] }) ∨
      (scene.tap.queue.isClosed = true ∧ scene.offer data p =
        { scene with replies := scene.replies ++ [(data, .queueClosed)] }) ∨
      (scene.tap.queue.isClosed = false ∧ scene.offer data p =
        { scene with waiting := scene.waiting ++ [(data, p)] }) := by
  unfold offer
  rcases scene.tap.enqueue_cases p with ⟨hopen, hsend⟩ | ⟨hclosed, hsend⟩ | ⟨hopen, hsend⟩ <;>
    rw [hsend]
  · exact Or.inl ⟨hopen, rfl⟩
  · exact Or.inr (Or.inl ⟨hclosed, rfl⟩)
  · exact Or.inr (Or.inr ⟨hopen, rfl⟩)

/-! ## Every submission is accounted for -/

theorem perm_submissions_offer (scene : Scene) (data : Bytes) (p : Packet) :
    (scene.offer data p).submissions.Perm (scene.submissions ++ [data]) := by
  rcases scene.offer_cases data p with ⟨-, h⟩ | ⟨-, h⟩ | ⟨-, h⟩ <;> rw [h] <;>
    simp only [submissions, List.map_append, List.map_cons, List.map_nil, List.append_assoc]
  · exact List.perm_append_comm.append_left _
  · exact List.perm_append_comm.append_left _
  · exact .refl _

theorem perm_submissions_happen (scene : Scene) (act : Act) :
    (scene.happen act).submissions.Perm (scene.submissions ++ act.submitted) := by
  cases act with
  | submit data =>
    simp only [happen, Act.submitted]
    split
    · simp only [submissions, List.map_append, List.map_cons, List.map_nil, List.append_assoc]
      exact List.perm_append_comm.append_left _
    · exact scene.perm_submissions_offer data _
  | retry i =>
    simp only [happen, Act.submitted, List.append_nil]
    split
    · next data p hwaits =>
      obtain ⟨hi, hget⟩ := List.getElem?_eq_some_iff.1 hwaits
      have hback : (scene.waiting.eraseIdx i ++ [(data, p)]).Perm scene.waiting :=
        List.perm_append_comm.trans (hget ▸ List.getElem_cons_eraseIdx_perm hi)
      refine (perm_submissions_offer _ data p).trans ?_
      simp only [submissions, List.append_assoc]
      simpa using (hback.map Prod.fst).append_left (scene.replies.map Prod.fst)
    · exact .refl _
  | work => exact (List.append_nil _).symm ▸ .refl _
  | consume deed h => exact (List.append_nil _).symm ▸ .refl _
  | close => exact (List.append_nil _).symm ▸ .refl _

/-- A submission that begins ends once, or waits. -/
theorem perm_submissions_run (scene : Scene) (acts : List Act) :
    (scene.run acts).submissions.Perm (scene.submissions ++ acts.flatMap Act.submitted) := by
  induction acts generalizing scene with
  | nil => exact (List.append_nil _).symm ▸ .refl _
  | cons act acts ih =>
    refine (ih (scene.happen act)).trans ?_
    rw [List.flatMap_cons, ← List.append_assoc]
    exact (scene.perm_submissions_happen act).append_right _

/-! ## What is answered -/

/-- How the submission of a datagram ends. -/
def Answered (s : Settings) (closed : Bool) (r : Bytes × Reply) : Prop :=
  match packetIn s r.1 with
  | .error e => r.2 = .undecodable e
  | .ok _ => r.2 = .ok ∨ closed = true ∧ r.2 = .queueClosed

theorem Answered.mono {closed closed' : Bool} {r : Bytes × Reply} (h : Answered s closed r)
    (hle : closed = true → closed' = true) : Answered s closed' r := by
  unfold Answered at h ⊢
  split
  · next e he =>
    rw [he] at h
    exact h
  · next q hq =>
    rw [hq] at h
    exact h.imp_right fun ⟨hclosed, hr⟩ => ⟨hle hclosed, hr⟩

/-- The submissions at a tap have come to what the tap has done with them. -/
structure Sound (s : Settings) (scene : Scene) : Prop where
  intake : Intake s scene.taken scene.tap
  waiting : ∀ w ∈ scene.waiting, packetIn s w.1 = .ok w.2
  answered : ∀ r ∈ scene.replies, Answered s scene.tap.queue.isClosed r

theorem taken_concat (tap : Tap) (waiting : List (Bytes × Packet)) (replies : List (Bytes × Reply))
    (data : Bytes) (reply : Reply) :
    taken ⟨tap, waiting, replies ++ [(data, reply)]⟩ =
      taken ⟨tap, waiting, replies⟩ ++ if reply = .ok then [data] else [] := by
  unfold taken
  rw [List.filterMap_append]
  by_cases h : reply = .ok
  · simp [h]
  · simp [h]

namespace Sound

theorem around {tap : Tap} (h : Tap.start s = .ok tap) : Sound s (.around tap) :=
  ⟨.start h, fun _ hmem => absurd hmem List.not_mem_nil, fun _ hmem => absurd hmem List.not_mem_nil⟩

theorem replied (h : Sound s scene) (tap : Tap) {reply : Reply}
    (hintake : Intake s (scene.taken ++ if reply = .ok then [data] else []) tap)
    (hclosed : scene.tap.queue.isClosed = true → tap.queue.isClosed = true)
    (hanswered : Answered s tap.queue.isClosed (data, reply)) :
    Sound s { scene with tap, replies := scene.replies ++ [(data, reply)] } := by
  refine ⟨?_, h.waiting, fun r hr => ?_⟩
  · rw [taken_concat]
    exact hintake
  · rcases List.mem_append.1 hr with hr | hr
    · exact (h.answered r hr).mono hclosed
    · rw [List.mem_singleton.1 hr]
      exact hanswered

theorem refused (h : Sound s scene) {reply : Reply} (hreply : reply ≠ .ok)
    (hanswered : Answered s scene.tap.queue.isClosed (data, reply)) :
    Sound s { scene with replies := scene.replies ++ [(data, reply)] } := by
  refine h.replied scene.tap ?_ id hanswered
  rw [if_neg hreply, List.append_nil]
  exact h.intake

theorem offer (h : Sound s scene) (hdecode : packetIn s data = .ok p) :
    Sound s (scene.offer data p) := by
  rcases scene.offer_cases data p with ⟨hopen, hoffer⟩ | ⟨hclosed, hoffer⟩ | ⟨-, hoffer⟩ <;>
    rw [hoffer]
  · refine h.replied _ ?_ id ?_
    · exact h.intake.enqueued hopen hdecode
    · simp [Answered, hdecode]
  · refine h.refused Reply.noConfusion ?_
    simp [Answered, hdecode, hclosed]
  · refine ⟨h.intake, fun w hw => ?_, h.answered⟩
    rcases List.mem_append.1 hw with hw | hw
    · exact h.waiting w hw
    · exact List.mem_singleton.1 hw ▸ hdecode

theorem happen (h : Sound s scene) (act : Act) : Sound s (scene.happen act) := by
  cases act with
  | submit data =>
    have hport : Packet.decode data scene.tap.settings.tracker.servicePort = packetIn s data := by
      rw [h.intake.settings, packetIn]
    simp only [Scene.happen, hport]
    cases hdecode : packetIn s data with
    | error e =>
      refine h.refused Reply.noConfusion ?_
      simp only [Answered, hdecode]
    | ok p => exact h.offer hdecode
  | retry i =>
    simp only [Scene.happen]
    split
    · next data p hwaits =>
      have hothers : Sound s { scene with waiting := scene.waiting.eraseIdx i } :=
        ⟨h.intake, fun w hw => h.waiting w (List.mem_of_mem_eraseIdx hw), h.answered⟩
      exact hothers.offer (h.waiting _ (List.mem_of_getElem? hwaits))
    · exact h
  | work =>
    simp only [Scene.happen]
    cases hstep : scene.tap.step with
    | none => exact h
    | some tap =>
      refine ⟨h.intake.step hstep, h.waiting, fun r hr => (h.answered r hr).mono ?_⟩
      exact (isClosed_step hstep).trans
  | consume deed hdeed =>
    exact ⟨h.intake.did hdeed scene.tap.holder scene.tap.known, h.waiting, h.answered⟩
  | close =>
    exact ⟨h.intake.closed false, h.waiting, fun r hr => (h.answered r hr).mono fun _ => rfl⟩

theorem run (h : Sound s scene) (acts : List Act) : Sound s (scene.run acts) := by
  induction acts generalizing scene with
  | nil => exact h
  | cons act acts ih => exact ih (h.happen act)

end Sound

/-! ## Errors have no effect -/

/-- Acts that are left out without breaking a relation between two scenes can all be left out. -/
theorem run_filter {R : Scene → Scene → Prop} (keep : Act → Bool)
    (left : ∀ {a b act}, keep act = false → R a b → R (a.happen act) b)
    (both : ∀ {a b act}, R a b → R (a.happen act) (b.happen act)) {a b : Scene} (h : R a b)
    (acts : List Act) : R (a.run acts) (b.run (acts.filter keep)) := by
  induction acts generalizing a b with
  | nil => exact h
  | cons act acts ih =>
    cases hkeep : keep act with
    | true =>
      rw [List.filter_cons_of_pos hkeep]
      exact ih (both h)
    | false =>
      rw [List.filter_cons_of_neg (by simp [hkeep])]
      exact ih (left hkeep h)

/-- Whether an act is anything but the submission of a datagram that does not decode. -/
def decodes (s : Settings) : Act → Bool
  | .submit data => (packetIn s data).isOk
  | _ => true

def isOther : Act → Bool
  | .submit _ => false
  | .retry _ => false
  | _ => true

theorem happen_congr (tap : Tap) (waiting : List (Bytes × Packet))
    (replies replies' : List (Bytes × Reply)) (act : Act) :
    (happen ⟨tap, waiting, replies⟩ act).tap = (happen ⟨tap, waiting, replies'⟩ act).tap ∧
      (happen ⟨tap, waiting, replies⟩ act).waiting =
        (happen ⟨tap, waiting, replies'⟩ act).waiting := by
  have hoffer : ∀ (waiting : List (Bytes × Packet)) (data : Bytes) (p : Packet),
      (offer ⟨tap, waiting, replies⟩ data p).tap = (offer ⟨tap, waiting, replies'⟩ data p).tap ∧
        (offer ⟨tap, waiting, replies⟩ data p).waiting =
          (offer ⟨tap, waiting, replies'⟩ data p).waiting := by
    intro waiting data p
    simp only [offer]
    split <;> exact ⟨rfl, rfl⟩
  cases act with
  | submit data =>
    simp only [happen]
    split
    · exact ⟨rfl, rfl⟩
    · exact hoffer waiting data _
  | retry i =>
    simp only [happen]
    split
    · exact hoffer _ _ _
    · exact ⟨rfl, rfl⟩
  | work => exact ⟨rfl, rfl⟩
  | consume deed h => exact ⟨rfl, rfl⟩
  | close => exact ⟨rfl, rfl⟩

/-- Datagrams that do not decode can be left out. -/
theorem tap_run_decodes (h : Sound s scene) (acts : List Act) :
    (scene.run acts).tap = (scene.run (acts.filter (decodes s))).tap := by
  have hrun := run_filter (decodes s)
    (R := fun a b => Sound s a ∧ a.tap = b.tap ∧ a.waiting = b.waiting) ?_ ?_
    ⟨h, rfl, rfl⟩ acts
  · exact hrun.2.1
  · rintro a b act hskip ⟨hsound, htap, hwaiting⟩
    refine ⟨hsound.happen act, ?_⟩
    cases act with
    | submit data =>
      have hport : Packet.decode data a.tap.settings.tracker.servicePort = packetIn s data := by
        rw [hsound.intake.settings, packetIn]
      simp only [decodes] at hskip
      simp only [happen, hport]
      cases hdecode : packetIn s data with
      | error e => exact ⟨htap, hwaiting⟩
      | ok p =>
        rw [hdecode] at hskip
        cases hskip
    | _ => cases hskip
  · rintro ⟨tap, waiting, replies⟩ ⟨_, _, replies'⟩ act ⟨hsound, rfl, rfl⟩
    exact ⟨hsound.happen act, happen_congr tap waiting replies replies' act⟩

/-- With a closed queue a submission is answered with an error and changes nothing. -/
theorem offer_of_closed (hclosed : scene.tap.queue.isClosed = true) (data : Bytes) (p : Packet) :
    scene.offer data p = { scene with replies := scene.replies ++ [(data, .queueClosed)] } := by
  rcases scene.offer_cases data p with ⟨hopen, -⟩ | ⟨-, hoffer⟩ | ⟨hopen, -⟩
  · cases hclosed.symm.trans hopen
  · exact hoffer
  · cases hclosed.symm.trans hopen

theorem submission_of_closed (hclosed : scene.tap.queue.isClosed = true) {act : Act}
    (hact : isOther act = false) : (scene.happen act).tap = scene.tap ∧
      (∃ errors, (scene.happen act).replies = scene.replies ++ errors ∧
        ∀ r ∈ errors, r.2 ≠ .ok) ∧
      (scene.happen act).waiting.Sublist scene.waiting := by
  cases act with
  | submit data =>
    simp only [happen]
    split
    · exact ⟨rfl, ⟨_, rfl, by simp⟩, .refl _⟩
    · rw [offer_of_closed hclosed]
      exact ⟨rfl, ⟨_, rfl, by simp⟩, .refl _⟩
  | retry i =>
    simp only [happen]
    split
    · next data p _ =>
      have hothers :
          ({ scene with waiting := scene.waiting.eraseIdx i } : Scene).tap.queue.isClosed = true :=
        hclosed
      rw [offer_of_closed hothers]
      exact ⟨rfl, ⟨_, rfl, by simp⟩, List.eraseIdx_sublist ..⟩
    · exact ⟨rfl, ⟨[], (List.append_nil _).symm, by simp⟩, .refl _⟩
  | _ => cases hact

theorem other_of_closed (hclosed : scene.tap.queue.isClosed = true) {act : Act}
    (hact : isOther act = true) : (scene.happen act).tap.queue.isClosed = true ∧
      (scene.happen act).replies = scene.replies ∧ (scene.happen act).waiting = scene.waiting := by
  cases act with
  | submit data => cases hact
  | retry i => cases hact
  | work =>
    refine ⟨?_, rfl, rfl⟩
    simp only [happen]
    cases hstep : scene.tap.step with
    | none => exact hclosed
    | some tap => exact (isClosed_step hstep).trans hclosed
  | consume deed h => exact ⟨hclosed, rfl, rfl⟩
  | close => exact ⟨rfl, rfl, rfl⟩

theorem run_of_closed (hclosed : scene.tap.queue.isClosed = true) (acts : List Act) :
    (∃ errors, (scene.run acts).replies = scene.replies ++ errors ∧ ∀ r ∈ errors, r.2 ≠ .ok) ∧
      (scene.run acts).waiting.Sublist scene.waiting := by
  induction acts generalizing scene with
  | nil => exact ⟨⟨[], (List.append_nil _).symm, fun _ hr => absurd hr List.not_mem_nil⟩, .refl _⟩
  | cons act acts ih =>
    obtain ⟨hstill, ⟨errors, hreplies, herrors⟩, hwaiting⟩ :
        (scene.happen act).tap.queue.isClosed = true ∧
          (∃ errors, (scene.happen act).replies = scene.replies ++ errors ∧
            ∀ r ∈ errors, r.2 ≠ .ok) ∧ (scene.happen act).waiting.Sublist scene.waiting := by
      cases hact : isOther act with
      | true =>
        obtain ⟨hstill, hreplies, hwaiting⟩ := other_of_closed hclosed hact
        exact ⟨hstill, ⟨[], by rw [hreplies, List.append_nil], by simp⟩, hwaiting ▸ .refl _⟩
      | false =>
        obtain ⟨htap, hrest⟩ := submission_of_closed hclosed hact
        exact ⟨htap ▸ hclosed, hrest⟩
    obtain ⟨⟨later, hlater, hall⟩, hrest⟩ := ih hstill
    refine ⟨⟨errors ++ later, ?_, fun r hr => (List.mem_append.1 hr).elim (herrors r) (hall r)⟩,
      hrest.trans hwaiting⟩
    show ((scene.happen act).run acts).replies = _
    rw [hlater, hreplies, List.append_assoc]

theorem waiting_retry_of_closed (hclosed : scene.tap.queue.isClosed = true) :
    (scene.happen (.retry 0)).waiting = scene.waiting.tail := by
  obtain ⟨tap, waiting, replies⟩ := scene
  cases waiting with
  | nil => rfl
  | cons w rest =>
    show (Scene.offer ⟨tap, rest, replies⟩ w.1 w.2).waiting = rest
    rw [offer_of_closed (show (Scene.mk tap rest replies).tap.queue.isClosed = true from hclosed)]

/-- After the close each submission that waits ends when it tries again. -/
theorem waiting_run_retry (hclosed : scene.tap.queue.isClosed = true) {n : Nat}
    (hn : scene.waiting.length = n) : (scene.run (List.replicate n (.retry 0))).waiting = [] := by
  induction n generalizing scene with
  | zero => exact List.length_eq_zero_iff.1 hn
  | succ n ih =>
    have htap : (scene.happen (.retry 0)).tap = scene.tap := (submission_of_closed hclosed rfl).1
    have hlength : (scene.happen (.retry 0)).waiting.length = n := by
      rw [waiting_retry_of_closed hclosed, List.length_tail, hn, Nat.add_sub_cancel]
    exact ih (htap ▸ hclosed) hlength

theorem tap_run_of_closed (hclosed : scene.tap.queue.isClosed = true) (acts : List Act) :
    (scene.run acts).tap = (scene.run (acts.filter isOther)).tap := by
  have hrun := run_filter isOther
    (R := fun a b => a.tap = b.tap ∧ a.tap.queue.isClosed = true) ?_ ?_ ⟨rfl, hclosed⟩ acts
  · exact hrun.1
  · rintro a b act hskip ⟨htap, hshut⟩
    rw [(submission_of_closed hshut hskip).1]
    exact ⟨htap, hshut⟩
  · rintro ⟨tap, waiting, replies⟩ ⟨_, waiting', replies'⟩ act ⟨rfl, hshut⟩
    cases hact : isOther act with
    | false =>
      have hother : (Scene.mk tap waiting' replies').tap.queue.isClosed = true := hshut
      rw [(submission_of_closed hshut hact).1, (submission_of_closed hother hact).1]
      exact ⟨rfl, hshut⟩
    | true =>
      refine ⟨?_, (other_of_closed hshut hact).1⟩
      cases act with
      | submit data => cases hact
      | retry i => cases hact
      | _ => rfl

/-- A tap that is closed to submissions. -/
structure TurnsAway (scene : Scene) : Prop where
  /-- Whatever is answered from now on is an error. -/
  errors : ∀ acts, ∃ errors, (scene.run acts).replies = scene.replies ++ errors ∧
    ∀ r ∈ errors, r.2 ≠ .ok
  /-- Submissions have no effect. -/
  noEffect : ∀ acts, (scene.run acts).tap = (scene.run (acts.filter isOther)).tap
  /-- No submission begins to wait. -/
  nobodyNew : ∀ acts, (scene.run acts).waiting.Sublist scene.waiting
  /-- The submissions that wait end when each has tried again. -/
  allEnd : (scene.run (List.replicate scene.waiting.length (.retry 0))).waiting = []

theorem turnsAway (hclosed : scene.tap.queue.isClosed = true) : TurnsAway scene where
  errors acts := (run_of_closed hclosed acts).1
  noEffect := tap_run_of_closed hclosed
  nobodyNew acts := (run_of_closed hclosed acts).2
  allEnd := waiting_run_retry hclosed rfl

end Scene

/-! ## Stopping -/

/-- Whatever happens at a tap and in whatever order, every submission ends once or waits, and it
ends with `ok` only if the datagram decodes and the queue is open.  Datagrams that do not decode
have no effect.  When the tracker has finished, which is what a stop waits for, it has handled just
the packets in the datagrams that were answered with `ok`, in this order, and every pair is closed.
After the close submissions are turned away, those that were waiting with the others.  And a tap
that serves one request after another until a stop returns has handled just what it has answered
with `ok`. -/
theorem stopping_loses_nothing (s : Settings) (tap : Tap) (hstart : Tap.start s = .ok tap) :
    (∀ acts, let scene := (Scene.around tap).run acts
      scene.submissions.Perm (acts.flatMap Act.submitted) ∧
        (∀ r ∈ scene.replies, Scene.Answered s scene.tap.queue.isClosed r) ∧
        scene.tap = ((Scene.around tap).run (acts.filter (Scene.decodes s))).tap ∧
        (scene.tap.finished = true → Drained s scene.taken scene.tap) ∧
        (scene.tap.queue.isClosed = true → scene.TurnsAway)) ∧
      ∀ requests, let before := tap.serveAll requests
        before.isRunning = true → before.stop.2 = .ok →
          Drained s (taken tap requests) before.stop.1 := by
  constructor
  · intro acts scene
    have hsound : Scene.Sound s scene := (Scene.Sound.around hstart).run acts
    exact ⟨Scene.perm_submissions_run _ acts, hsound.answered,
      Scene.tap_run_decodes (.around hstart) acts, hsound.intake.drained, Scene.turnsAway⟩
  · intro requests before hrunning hstopped
    have hintake : Intake s (taken tap requests) before := (Intake.start hstart).serveAll requests
    have hfinished : before.stop.1.finished = true := by
      simp only [stop, hrunning, Bool.true_and] at hstopped ⊢
      split at hstopped
      · cases hstopped
      · next h => simpa using h
    exact (hintake.closed false).settle.drained hfinished

/-- A datagram between a client and the service. -/
def sent (direction : Direction) (seq ack control : UInt8) (payload : Bytes) : Bytes :=
  [0x45, 0, 0, .ofNat (40 + payload.length), 0, 0, 0, 0, 64, Packet.tcp, 0, 0]
    ++ (match direction with
      | .inbound => [10, 0, 0, 1, 10, 0, 0, 2, 0x0f, 0xa0, 0xc3, 0x83]
      | .outbound => [10, 0, 0, 2, 10, 0, 0, 1, 0xc3, 0x83, 0x0f, 0xa0])
    ++ [0, 0, 0, seq, 0, 0, 0, ack, 0x50, control, 0, 0, 0, 0, 0, 0] ++ payload

/-- A handshake in a queue with room for one packet.  Its second and third packet have to wait for
the tracker, and so has a segment behind it, which is still waiting when the queue is closed. -/
def lastCall : List Act :=
  [.submit (sent .inbound 7 0 2 []), .submit (sent .outbound 50 8 18 []), .submit [], .work,
    .retry 0, .submit (sent .inbound 8 51 16 []), .work, .retry 0,
    .submit (sent .inbound 8 51 24 [1, 2]), .work, .work, .close, .retry 0,
    .submit (sent .inbound 8 51 24 [1, 2]), .work]

/-- The settings of the tap with the small queue. -/
def cramped : Settings := { tracker := { queueCapacity := 1, announceCapacity := 1 } }

def handshake : List Bytes :=
  [sent .inbound 7 0 2 [], sent .outbound 50 8 18 [], sent .inbound 8 51 16 []]

def inTurn : List Request := handshake.map .submit ++ [.take, .receive]

theorem stopping_loses_nothing_lastCall :
    ∃ tap, Tap.start cramped = .ok tap ∧
      (let scene := (Scene.around tap).run lastCall
       scene.taken = handshake ∧ scene.waiting = [] ∧ Drained cramped handshake scene.tap) ∧
      (tap.serveAll inTurn).stop.2 = .ok ∧
      Drained cramped handshake (tap.serveAll inTurn).stop.1 := by
  obtain ⟨tap, hstart⟩ : ∃ tap, Tap.start cramped = .ok tap := ⟨_, rfl⟩
  obtain ⟨hscenes, hrequests⟩ := stopping_loses_nothing cramped tap hstart
  have htap : tap = (Tap.start cramped).toOption.get rfl := by
    simp only [hstart]
    rfl
  refine ⟨tap, hstart, ?_, ?_⟩
  · intro scene
    obtain ⟨-, -, -, hdrained, -⟩ := hscenes lastCall
    have htaken : scene.taken = handshake := by
      simp only [scene, htap]
      decide +kernel
    have hwaiting : scene.waiting = [] := by
      simp only [scene, htap]
      decide +kernel
    have hfinished : scene.tap.finished = true := by
      simp only [scene, htap]
      decide +kernel
    exact ⟨htaken, hwaiting, htaken ▸ hdrained hfinished⟩
  · have htaken : taken tap inTurn = handshake := by
      rw [htap]
      decide +kernel
    have hrunning : (tap.serveAll inTurn).isRunning = true := by
      rw [htap]
      decide +kernel
    have hstopped : (tap.serveAll inTurn).stop.2 = .ok := by
      rw [htap]
      decide +kernel
    exact ⟨hstopped, htaken ▸ hrequests inTurn hrunning hstopped⟩

end Tap

end StreamTap
