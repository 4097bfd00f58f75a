import StreamTap.Proofs.Tracker.Ageing
import StreamTap.Proofs.Tracker.Requests

/-!
# What a session does to its tracker

Everything that a session does to its tracker are deeds, whatever it is asked for: the jobs accept
packets and make moves, the readers take chunks, and the other requests close pairs and deal with
announcements.  The one thing that is no deed is the shutdown at the end of a run, and after it
only the deeds of the consumers are left (`Lived`; with the packets that were handled, `Served`).

So what holds in every state that a course leads to, and is kept by the shutdown and by
consumers after it, holds in every session that has served any requests (`lived_serveAll`).
-/

namespace StreamTap

/-- Whether a task reads; writers are not started by the consumers of a tracker. -/
def Task.isReader : Task → Bool
  | .write _ => false
  | .draining => false
  | .read => true
  | .gather _ _ => true

namespace Tracker

variable {t₀ t t' : Tracker} {stopped : Bool}

/-! ## Readers -/

theorem putBuffer_buffer {place : Nat} {pair : Pair} (hpair : t.pairs[place]? = some pair)
    (d : Direction) : t.putBuffer place d (pair.buffer d) = t := by
  have hsame : t.pairs.modify place (fun p => p.withBuffer (pair.buffer d) d) = t.pairs := by
    refine List.ext_getElem? fun n => ?_
    rw [List.getElem?_modify]
    by_cases hn : place = n
    · subst hn
      simp [hpair]
    · simp [hn]
  simp only [putBuffer, modifyPair, hsame]

theorem putBuffer_putBuffer (t : Tracker) (place : Nat) (d : Direction) (b c : Buffer) :
    (t.putBuffer place d b).putBuffer place d c = t.putBuffer place d c := by
  simp only [putBuffer, modifyPair, List.modify_modify_eq]
  congr
  funext p
  exact p.withBuffer_withBuffer b c d

def takes (place : Nat) (d : Direction) (n : Nat) : List Deed := List.replicate n (.take place d)

theorem accept_not_mem_takes (place : Nat) (d : Direction) (n : Nat) (p : Packet) :
    .accept p ∉ takes place d n := by
  intro hp
  cases (List.mem_replicate.1 hp).2

theorem readMoves {place : Nat} {d : Direction} (n : Nat) {t : Tracker} {pair : Pair} {task : Task}
    (hpair : t.pairs[place]? = some pair) (htask : task.isReader = true) :
    (∃ k, t.putBuffer place d (task.moves true n (pair.buffer d)).1 = t.course (takes place d k)) ∧
      ∀ task', (task.moves true n (pair.buffer d)).2 = .waits task' → task'.isReader = true := by
  have hstay : ∃ k, t.putBuffer place d (pair.buffer d) = t.course (takes place d k) :=
    ⟨0, putBuffer_buffer hpair d⟩
  have hwaits : ∀ task', Task.Outcome.waits task = .waits task' → task'.isReader = true := by
    rintro _ ⟨⟩
    exact htask
  have htake : ∀ {chunk b}, (pair.buffer d).take = .chunk chunk b →
      t.putBuffer place d b = t.perform (.take place d) := by
    intro chunk b hchunk
    simp only [Tracker.perform, hpair, hchunk]
  cases n with
  | zero => exact ⟨hstay, hwaits⟩
  | succ n =>
    cases task with
    | write w => cases htask
    | draining => cases htask
    | read =>
      simp only [Task.moves, Task.step]
      cases hchunk : (pair.buffer d).take with
      | chunk chunk b => exact ⟨⟨1, htake hchunk⟩, fun _ hanswer => by cases hanswer⟩
      | nothing => exact ⟨hstay, hwaits⟩
      | closed => exact ⟨hstay, fun _ hanswer => by cases hanswer⟩
    | gather least got =>
      simp only [Task.moves, Task.step]
      by_cases henough : least ≤ got.length
      · simp only [henough, if_true]
        exact ⟨hstay, fun _ hanswer => by cases hanswer⟩
      · simp only [henough, if_false]
        cases hchunk : (pair.buffer d).take with
        | chunk chunk b =>
          obtain ⟨⟨k, hrest⟩, hreader⟩ := readMoves (d := d) n (pairs_putBuffer hpair d b)
            (show (Task.gather least (got ++ chunk)).isReader = true from rfl)
          rw [putBuffer_putBuffer, Pair.buffer_withBuffer] at hrest
          rw [Pair.buffer_withBuffer] at hreader
          have hfirst := congrArg (·.course (takes place d k)) (htake hchunk)
          exact ⟨⟨k + 1, hrest.trans hfirst⟩, hreader⟩
        | nothing => exact ⟨hstay, hwaits⟩
        | closed => exact ⟨hstay, fun _ hanswer => by cases hanswer⟩

theorem readTurn_eq (t : Tracker) (place : Nat) (d : Direction) {task : Task}
    (htask : task.isReader = true) :
    (∃ k, (t.readTurn place d task).1 = t.course (takes place d k)) ∧
      ∀ task', (t.readTurn place d task).2 = .waits task' → task'.isReader = true := by
  unfold Tracker.readTurn
  cases hpair : t.pairs[place]? with
  | none =>
    refine ⟨⟨0, rfl⟩, ?_⟩
    rintro _ ⟨⟩
    exact htask
  | some pair => exact readMoves _ hpair htask

/-! ## Lives -/

/-- The packet that a deed has the tracker handle, if it does. -/
def handledBy (t : Tracker) : Deed → List Packet
  | .accept p => if t.isIdle then [p] else []
  | _ => []

/-- The packets that are handled in the course of some deeds. -/
def handled : Tracker → List Deed → List Packet
  | _, [] => []
  | t, deed :: deeds => t.handledBy deed ++ handled (t.perform deed) deeds

theorem course_concat (t : Tracker) (deeds : List Deed) (deed : Deed) :
    t.course (deeds ++ [deed]) = (t.course deeds).perform deed :=
  List.foldl_append

theorem handled_concat (t : Tracker) (deeds : List Deed) (deed : Deed) :
    handled t (deeds ++ [deed]) = handled t deeds ++ (t.course deeds).handledBy deed := by
  induction deeds generalizing t with
  | nil => simp [handled, course]
  | cons first deeds ih =>
    rw [List.cons_append, handled, ih, handled, List.append_assoc]
    rfl

theorem handledBy_of_not_accept {deed : Deed} (h : ∀ p, deed ≠ .accept p) :
    t.handledBy deed = [] := by
  cases deed with
  | accept p => exact absurd rfl (h p)
  | _ => rfl

/-- The life of a tracker that has handled these packets: a course while it runs, and after it was
shut down, which happens when it has nothing at hand, a course without packets. -/
inductive Served (t₀ : Tracker) : List Packet → Bool → Tracker → Prop
  | running (deeds : List Deed) : Served t₀ (handled t₀ deeds) false (t₀.course deeds)
  | stopped (deeds more : List Deed) : (t₀.course deeds).isIdle = true →
      (∀ p, .accept p ∉ more) →
      Served t₀ (handled t₀ deeds) true ((t₀.course deeds).shutdown.course more)

/-- The life of a tracker, whatever packets it has handled. -/
inductive Lived (t₀ : Tracker) : Bool → Tracker → Prop
  | running (deeds : List Deed) : Lived t₀ false (t₀.course deeds)
  | stopped (deeds more : List Deed) : (t₀.course deeds).isIdle = true →
      (∀ p, .accept p ∉ more) → Lived t₀ true ((t₀.course deeds).shutdown.course more)

namespace Served

variable {ps : List Packet}

theorem lived (h : Served t₀ ps stopped t) : Lived t₀ stopped t := by
  cases h with
  | running deeds => exact .running deeds
  | stopped deeds more hidle hmore => exact .stopped deeds more hidle hmore

/-- One more deed; a tracker that was shut down accepts no packet. -/
theorem perform (h : Served t₀ ps stopped t) (deed : Deed)
    (hdeed : stopped = true → ∀ p, deed ≠ .accept p) :
    Served t₀ (ps ++ t.handledBy deed) stopped (t.perform deed) := by
  cases h with
  | running deeds =>
    rw [← course_concat, ← handled_concat]
    exact running _
  | stopped deeds more hidle hmore =>
    rw [← course_concat, handledBy_of_not_accept (hdeed rfl), List.append_nil]
    refine .stopped deeds _ hidle fun p hp => ?_
    rcases List.mem_append.1 hp with hp | hp
    · exact hmore p hp
    · exact hdeed rfl p (List.mem_singleton.1 hp).symm

theorem meanwhile (h : Served t₀ ps stopped t) {deed : Deed} (hdeed : ∀ p, deed ≠ .accept p) :
    Served t₀ ps stopped (t.perform deed) := by
  have hnext := h.perform deed fun _ => hdeed
  rwa [handledBy_of_not_accept hdeed, List.append_nil] at hnext

theorem course (h : Served t₀ ps stopped t) {deeds : List Deed} (hdeeds : ∀ p, .accept p ∉ deeds) :
    Served t₀ ps stopped (t.course deeds) :=
  course_keeps_meanwhile (fun hdeed h => h.meanwhile hdeed) h hdeeds

theorem step (h : Served t₀ ps stopped t) (hstep : t.step = some t') : Served t₀ ps stopped t' := by
  have hperform : t.perform .step = t' := by simp [Tracker.perform, hstep]
  rw [← hperform]
  exact h.meanwhile fun p hp => by cases hp

theorem accept (h : Served t₀ ps false t) (hidle : t.isIdle = true) (p : Packet) :
    Served t₀ (ps ++ [p]) false (t.accept p) := by
  have hnext := h.perform (.accept p) fun hstopped => by cases hstopped
  rwa [handledBy, Tracker.perform, if_pos hidle, if_pos hidle] at hnext

theorem shutdown (h : Served t₀ ps false t) (hidle : t.isIdle = true) :
    Served t₀ ps true t.shutdown := by
  cases h with
  | running deeds => exact .stopped deeds [] hidle fun _ => List.not_mem_nil

end Served

namespace Lived

theorem begins (t₀ : Tracker) : Lived t₀ false t₀ := running []

theorem served (h : Lived t₀ stopped t) : ∃ ps, Served t₀ ps stopped t := by
  cases h with
  | running deeds => exact ⟨_, .running deeds⟩
  | stopped deeds more hidle hmore => exact ⟨_, .stopped deeds more hidle hmore⟩

theorem perform (h : Lived t₀ stopped t) (deed : Deed)
    (hdeed : stopped = true → ∀ p, deed ≠ .accept p) : Lived t₀ stopped (t.perform deed) := by
  obtain ⟨ps, hserved⟩ := h.served
  exact (hserved.perform deed hdeed).lived

theorem shutdown (h : Lived t₀ false t) (hidle : t.isIdle = true) : Lived t₀ true t.shutdown := by
  obtain ⟨ps, hserved⟩ := h.served
  exact (hserved.shutdown hidle).lived

theorem accept (h : Lived t₀ false t) (hidle : t.isIdle = true) (p : Packet) :
    Lived t₀ false (t.accept p) := by
  obtain ⟨ps, hserved⟩ := h.served
  exact (hserved.accept hidle p).lived

theorem step (h : Lived t₀ stopped t) (hstep : t.step = some t') : Lived t₀ stopped t' := by
  obtain ⟨ps, hserved⟩ := h.served
  exact (hserved.step hstep).lived

theorem course (h : Lived t₀ stopped t) {deeds : List Deed} (hdeeds : ∀ p, .accept p ∉ deeds) :
    Lived t₀ stopped (t.course deeds) := by
  obtain ⟨ps, hserved⟩ := h.served
  exact (hserved.course hdeeds).lived

end Lived

namespace Session

variable {s s' : Session} {number : Nat}

/-- The tracker of a session has lived; one that has stopped is at no job, and whoever waits
reads. -/
structure Sound (t₀ : Tracker) (s : Session) : Prop where
  lived : Lived t₀ s.stopped s.tracker
  free : s.stopped = true → s.work = none
  readers : ∀ r ∈ s.readings, r.task.isReader = true

namespace Sound

theorem running (h : Sound t₀ s) {job : Nat × Work} (hwork : s.work = some job) :
    s.stopped = false := by
  cases hstopped : s.stopped with
  | false => rfl
  | true =>
    have hfree := h.free hstopped
    rw [hwork] at hfree
    cases hfree

theorem accept (h : Sound t₀ s) (hstopped : s.stopped = false) (hidle : s.tracker.isIdle = true)
    (p : Packet) (work : Option (Nat × Work)) :
    Sound t₀ { s with tracker := s.tracker.accept p, work } := by
  refine ⟨?_, fun htrue => ?_, h.readers⟩
  · have hlived := h.lived
    simp only [hstopped] at hlived ⊢
    exact hlived.accept hidle p
  · rw [hstopped] at htrue
    cases htrue

theorem takeUp (h : Sound t₀ s) (hidle : s.tracker.isIdle = true) (number : Nat) (job : Job) :
    Sound t₀ (s.takeUp number job).1 := by
  cases hstopped : s.stopped with
  | true =>
    cases job <;> simp only [Session.takeUp, hstopped, if_true] <;> exact h
  | false =>
    have hrunning : ¬s.stopped = true := by simp [hstopped]
    cases job with
    | handle p =>
      rw [Session.takeUp, if_neg hrunning]
      exact h.accept hstopped hidle p _
    | run packets =>
      rw [Session.takeUp, if_neg hrunning]
      exact ⟨h.lived, fun htrue => absurd htrue hrunning, h.readers⟩

theorem workStep (h : Sound t₀ s) {replies : List (Nat × Reply)}
    (hmove : s.workStep = some (s', replies)) : Sound t₀ s' := by
  unfold Session.workStep at hmove
  cases hstep : s.tracker.step with
  | some t =>
    rw [hstep] at hmove
    cases hmove
    exact ⟨h.lived.step hstep, h.free, h.readers⟩
  | none =>
    rw [hstep] at hmove
    cases hidle : s.tracker.isIdle with
    | false => simp [hidle] at hmove
    | true =>
      simp only [hidle, if_true] at hmove
      split at hmove
      · next flow _ =>
        cases hmove
        obtain ⟨known, hlearn⟩ := s.learnOf_eq flow
        rw [hlearn]
        exact ⟨h.lived, fun _ => rfl, h.readers⟩
      · next p rest hwork =>
        cases hmove
        exact h.accept (h.running hwork) hidle p _
      · next hwork =>
        cases hmove
        have hlived := h.lived
        rw [h.running hwork] at hlived
        exact ⟨hlived.shutdown hidle, fun _ => rfl, h.readers⟩
      · split at hmove
        · next number job jobs _ =>
          have htaken : ({ s with jobs }.takeUp number job).1 = s' :=
            congrArg Prod.fst (Option.some.inj hmove)
          have hothers : Sound t₀ { s with jobs } := ⟨h.lived, h.free, h.readers⟩
          exact htaken ▸ hothers.takeUp hidle number job
        · cases hmove

theorem workMoves (h : Sound t₀ s) (n : Nat) : Sound t₀ (s.workMoves n).1 := by
  induction n generalizing s with
  | zero => exact h
  | succ n ih =>
    cases hmove : s.workStep with
    | none =>
      rw [workMoves_of_none hmove]
      exact h
    | some moved =>
      obtain ⟨s', replies⟩ := moved
      rw [workMoves_of_some hmove]
      exact ih (h.workStep hmove)

theorem readTurns {readings : List Reading} (h : Lived t₀ stopped t)
    (hreaders : ∀ r ∈ readings, r.task.isReader = true) :
    Lived t₀ stopped (Session.readTurns t readings).1 ∧
      ∀ r ∈ (Session.readTurns t readings).2.1, r.task.isReader = true := by
  induction readings generalizing t with
  | nil => exact ⟨h, hreaders⟩
  | cons r rest ih =>
    obtain ⟨⟨k, htaken⟩, hwaits⟩ := t.readTurn_eq r.place r.direction (hreaders r List.mem_cons_self)
    have hlived : Lived t₀ stopped (t.readTurn r.place r.direction r.task).1 :=
      htaken ▸ h.course (accept_not_mem_takes r.place r.direction k)
    obtain ⟨hrest, hall⟩ := ih hlived fun r' hr' => hreaders r' (List.mem_cons_of_mem r hr')
    rw [Session.readTurns]
    split
    · next t' task hturn =>
      rw [hturn] at hrest hall hwaits
      refine ⟨hrest, fun r' hr' => ?_⟩
      rcases List.mem_cons.1 hr' with rfl | hr'
      · exact hwaits task rfl
      · exact hall r' hr'
    · next t' a hturn =>
      rw [hturn] at hrest hall
      exact ⟨hrest, hall⟩

theorem round (h : Sound t₀ s) : Sound t₀ s.round.1 := by
  have hworked := h.workMoves s.weight
  obtain ⟨hlived, hreaders⟩ := readTurns hworked.lived hworked.readers
  exact ⟨hlived, hworked.free, hreaders⟩

theorem rounds (h : Sound t₀ s) (n : Nat) : Sound t₀ (s.rounds n).1 := by
  induction n generalizing s with
  | zero => exact h
  | succ n ih =>
    simp only [Session.rounds]
    split
    · exact ih h.round
    · exact h.round

theorem settle (h : Sound t₀ s) : Sound t₀ s.settle.1 := h.rounds _

theorem replying (h : Sound t₀ s) (number : Nat) (reply : Reply) :
    Sound t₀ (s.replying number reply).1 := h.settle

theorem enqueue (h : Sound t₀ s) (number : Nat) (job : Job) :
    Sound t₀ (s.enqueue number job).1 :=
  settle (s := { s with jobs := s.jobs ++ [(number, job)] }) ⟨h.lived, h.free, h.readers⟩

theorem packet (h : Sound t₀ s) (number : Nat) (p : Packet) : Sound t₀ (s.packet number p).1 := by
  obtain ⟨mentioned, hmention⟩ := s.mention_eq p.connection
  rw [Session.packet, hmention]
  exact enqueue (s := { s with mentioned }) ⟨h.lived, h.free, h.readers⟩ number _

theorem deed (h : Sound t₀ s) {t' : Tracker} (deed : Deed) (hdeed : ∀ p, deed ≠ .accept p)
    (heq : s.tracker.perform deed = t') (known : KnownPairs) (receiving : Bool) :
    Sound t₀ { s with tracker := t', known, receiving } :=
  ⟨heq ▸ h.lived.perform deed fun _ => hdeed, h.free, h.readers⟩

theorem read (h : Sound t₀ s) (number pair : Nat) (d : Direction) {call : Call}
    (hcall : call.task.isReader = true) : Sound t₀ (s.read number pair d call).1 := by
  unfold Session.read
  split
  · exact h.replying number _
  · next place _ =>
    refine settle (s := { s with
      readings := s.readings ++ [{ number, place, direction := d, task := call.task }] })
      ⟨h.lived, h.free, fun r hr => ?_⟩
    rcases List.mem_append.1 hr with hr | hr
    · exact h.readers r hr
    · cases List.mem_singleton.1 hr
      exact hcall

theorem close (h : Sound t₀ s) (number pair : Nat) : Sound t₀ (s.close number pair).1 := by
  unfold Session.close
  split
  · exact h.replying number _
  · next place _ =>
    exact (h.deed (.close place) (fun p hp => by cases hp) rfl s.known s.receiving).replying number _

theorem receive (h : Sound t₀ s) (number : Nat) : Sound t₀ (s.receive number).1 := by
  unfold Session.receive
  split
  · exact h.replying number _
  · split
    · next place tracker hnews =>
      have htaken : Sound t₀ { s with tracker, known := s.known.learn place } :=
        h.deed .takeNews (fun p hp => by cases hp) (by simp only [Tracker.perform, hnews]) _
          s.receiving
      simp only
      split
      · exact htaken.replying number _
      · exact htaken.replying number _
    · exact h.replying number _
    · exact h.replying number _
    · exact h.replying number _

theorem dropReceiver (h : Sound t₀ s) (number : Nat) : Sound t₀ (s.dropReceiver number).1 :=
  (h.deed .endNews (fun p hp => by cases hp) rfl s.known false).replying number _

end Sound

/-! ## Requests -/

inductive Request where
  | packet (p : Packet)
  | datagram (data : Bytes)
  | run (packets : List Packet)
  | read (pair : Nat) (direction : Direction)
  | readAtLeast (pair : Nat) (direction : Direction) (least : Nat)
  | close (pair : Nat)
  | receive
  | dropReceiver
  deriving DecidableEq, Repr

def serve (s : Session) (number : Nat) : Request → Session
  | .packet p => (s.packet number p).1
  | .datagram data => (s.datagram number data).1
  | .run packets => (s.run number packets).1
  | .read pair direction => (s.read number pair direction .read).1
  | .readAtLeast pair direction least => (s.read number pair direction (.readAtLeast least)).1
  | .close pair => (s.close number pair).1
  | .receive => (s.receive number).1
  | .dropReceiver => (s.dropReceiver number).1

def serveAll (s : Session) (requests : List (Nat × Request)) : Session :=
  requests.foldl (fun s r => s.serve r.1 r.2) s

theorem Sound.serve (h : Sound t₀ s) (number : Nat) (r : Request) : Sound t₀ (s.serve number r) := by
  cases r with
  | packet p => exact h.packet number p
  | datagram data =>
    simp only [Session.serve, Session.datagram]
    split
    · exact h.packet number _
    · exact h.replying number _
  | run packets => exact h.enqueue number _
  | read pair direction => exact h.read number pair direction rfl
  | readAtLeast pair direction least => exact h.read number pair direction rfl
  | close pair => exact h.close number pair
  | receive => exact h.receive number
  | dropReceiver => exact h.dropReceiver number

/-- Whatever a session is asked for, its tracker has come to where it is by a course, and by
nothing else but the shutdown when a run has ended. -/
theorem lived_serveAll (s : Settings) (announcing : Option Nat) (requests : List (Nat × Request)) :
    let session := (ofSettings s announcing).serveAll requests
    Lived (.ofSettings s (announcing.map Channel.ofCapacity)) session.stopped session.tracker := by
  intro session
  have hall : ∀ begun, Sound (.ofSettings s (announcing.map Channel.ofCapacity)) begun →
      Sound (.ofSettings s (announcing.map Channel.ofCapacity)) (begun.serveAll requests) := by
    induction requests with
    | nil => exact fun _ h => h
    | cons r rest ih => exact fun _ h => ih _ (h.serve r.1 r.2)
  exact (hall _ ⟨.begins _, fun _ => rfl, fun _ hr => absurd hr List.not_mem_nil⟩).lived

end Session

end Tracker

end StreamTap
