import StreamTap.Proofs.Tracker.Course
import StreamTap.Tracker.Session

/-!
# A session handles its packets

A session that is at rest, with nobody waiting for anything, and is asked to handle a packet
ends with the tracker that has handled it (`packet_handled`), and a session that is asked for
many with the tracker that has handled them all (`packets_handled`).

A session makes at most as many moves as it weighs.  That these are enough is the reason for
the weight of a job: accepting a packet makes a tracker heavier by less than that
(`weight_accept_le`).
-/

namespace StreamTap

namespace Tracker

variable {t : Tracker} {p : Packet}

/-! ## What a packet weighs -/

theorem weight_of_errand_none (h : t.errand = none) :
    t.weight = total Pair.weight t.pairs := by
  simp [weight, h]

theorem weight_pairs_closePairOf (t : Tracker) (flow : Flow) :
    total Pair.weight (t.closePairOf flow).pairs = total Pair.weight t.pairs := by
  rcases t.closePairOf_cases flow with ⟨place, -, hclose⟩ | ⟨-, hclose⟩
  · rw [hclose]
    exact total_modify_close t.pairs place
  · rw [hclose]

theorem weight_establish_le (c : Connection) :
    (t.establish c p).weight ≤ total Pair.weight t.pairs + 1 := by
  have hopened : ∀ flow i o, (Pair.opened flow i o t.stream).weight = 0 := fun _ _ _ => rfl
  have hpairs : total Pair.weight (t.establish c p).pairs = total Pair.weight t.pairs := by
    have hstream : (t.closePairOf c.flow).stream = t.stream := by
      obtain ⟨_, hbesides⟩ := t.closePairOf_besides c.flow
      exact hbesides.stream
    simp only [establish, total_append, total_cons, total_nil, hstream, hopened,
      weight_pairs_closePairOf, Nat.add_zero]
  rw [weight, hpairs]
  cases hnews : (t.closePairOf c.flow).announcements with
  | none => simp [establish, hnews]
  | some channel => simp [establish, hnews, Errand.weight, Nat.add_comm]

theorem weight_release (h : t.errand = none) (flow : Flow) :
    (t.release flow).weight = t.weight := by
  rw [weight_of_errand_none h, ← weight_pairs_closePairOf t flow]
  exact weight_of_errand_none ((t.errand_closePairOf flow).trans h)

theorem length_inboundWrites_le (b : Buffer) (seq : Seq) (payload : Bytes) :
    (inboundWrites b seq payload).length ≤ 2 := by
  unfold inboundWrites
  split
  · exact Nat.le_refl 2
  · exact Nat.le_succ 1

theorem weight_route_le (h : t.errand = none) : (t.route p).weight ≤ t.weight + 9 := by
  rw [weight_of_errand_none h]
  unfold route
  cases t.pairOf? p.connection with
  | none => simp [weight, drop, h]
  | some found =>
    obtain ⟨place, pair⟩ := found
    cases p.direction with
    | inbound =>
      have hlength := length_inboundWrites_le pair.inbound p.seq p.payload
      simp only [weight, Option.map_some, Option.getD_some, Errand.weight]
      omega
    | outbound =>
      simp only
      split
      · simp only [weight, Option.map_some, Option.getD_some, Errand.weight, List.length_singleton]
        omega
      · simp [weight, h]

theorem weight_trigger_le (h : t.errand = none) (event : Event) :
    (t.trigger event p).weight ≤ t.weight + 9 := by
  have hweight := weight_of_errand_none h
  rcases t.trigger_cases event p with ⟨-, htrigger⟩ | ⟨c, phase, -, -, hways⟩
  · rw [htrigger]
    exact Nat.le_add_right t.weight 9
  · rcases hways with ⟨-, htrigger⟩ | ⟨-, htrigger⟩ | ⟨-, -, htrigger⟩ <;> rw [htrigger]
    · refine Nat.le_trans (weight_establish_le _) ?_
      have hpairs : (t.transited p (c.after event p phase)).pairs = t.pairs := rfl
      rw [hpairs]
      omega
    · rw [weight_release (t := t.transited p (c.after event p phase)) h]
      exact Nat.le_add_right t.weight 9
    · exact Nat.le_add_right t.weight 9

theorem weight_accept_le (h : t.errand = none) (p : Packet) :
    (t.accept p).weight ≤ t.weight + 9 := by
  have hnoticed : (t.noticed p).errand = none := h
  rw [accept_eq]
  split
  · split
    · exact weight_route_le hnoticed
    · exact Nat.le_add_right t.weight 9
  · split
    · exact weight_trigger_le hnoticed _
    · exact Nat.le_add_right t.weight 9

theorem weight_settle_le (t : Tracker) : t.settle.weight ≤ t.weight := by
  suffices h : ∀ (n : Nat) (t : Tracker), (t.moves n).weight ≤ t.weight from h t.weight t
  intro n
  induction n with
  | zero => exact fun t => Nat.le_refl t.weight
  | succ n ih =>
    intro t
    cases hstep : t.step with
    | none => exact Nat.le_of_eq (congrArg weight (moves_of_step_none hstep (n + 1)))
    | some t' =>
      rw [moves_of_step_some hstep]
      exact Nat.le_trans (ih t') (Nat.le_of_lt (weight_step_lt hstep))

/-- More moves than the tracker weighs lead no further. -/
theorem moves_eq_moves {n m : Nat} (hn : t.weight ≤ n) (hm : t.weight ≤ m) :
    t.moves n = t.moves m := by
  induction n generalizing t m with
  | zero =>
    cases hstep : t.step with
    | none => rw [moves_of_step_none hstep, moves_of_step_none hstep]
    | some t' =>
      have hlt := weight_step_lt hstep
      omega
  | succ n ih =>
    cases hstep : t.step with
    | none => rw [moves_of_step_none hstep, moves_of_step_none hstep]
    | some t' =>
      have hlt := weight_step_lt hstep
      obtain ⟨k, rfl⟩ : ∃ k, m = k + 1 := ⟨m - 1, by omega⟩
      rw [moves_of_step_some hstep, moves_of_step_some hstep]
      exact ih (by omega) (by omega)

theorem settle_of_step_some {t' : Tracker} (h : t.step = some t') : t.settle = t'.settle := by
  have hlt := weight_step_lt h
  obtain ⟨k, hk⟩ : ∃ k, t.weight = k + 1 := ⟨t.weight - 1, by omega⟩
  unfold settle
  rw [hk, moves_of_step_some h]
  exact moves_eq_moves (by omega) (Nat.le_refl _)

/-! ## A session at work on a packet -/

namespace Session

variable {s s' : Session} {number : Nat} {flow : Flow}

theorem workMoves_of_none (h : s.workStep = none) (n : Nat) : s.workMoves n = (s, []) := by
  cases n with
  | zero => rfl
  | succ n => rw [workMoves, h]

theorem workMoves_of_some {replies : List (Nat × Reply)} (h : s.workStep = some (s', replies))
    (n : Nat) : s.workMoves (n + 1) = ((s'.workMoves n).1, replies ++ (s'.workMoves n).2) := by
  rw [workMoves, h]

theorem workStep_of_work_none (hwork : s.work = none) (hjobs : s.jobs = [])
    (hstep : s.tracker.step = none) : s.workStep = none := by
  simp [workStep, hwork, hjobs, hstep]

theorem workStep_of_jobs {job : Job} {jobs : List (Nat × Job)} (hwork : s.work = none)
    (hjobs : s.jobs = (number, job) :: jobs) (hidle : s.tracker.isIdle = true) :
    s.workStep = some ({ s with jobs }.takeUp number job) := by
  have hstep := step_of_errand_none (Option.isNone_iff_eq_none.1 hidle)
  simp [workStep, hwork, hjobs, hidle, hstep]

/-- What becomes of a session whose last job is to handle a packet. -/
def handled (s : Session) (number : Nat) (flow : Flow) : Session × List (Nat × Reply) :=
  if s.tracker.settle.isIdle then
    ({ { s with tracker := s.tracker.settle }.learnOf flow with work := none }, [(number, .ok)])
  else ({ s with tracker := s.tracker.settle }, [])

theorem learnOf_eq (s : Session) (flow : Flow) : ∃ known, s.learnOf flow = { s with known } := by
  unfold learnOf
  split
  · exact ⟨_, rfl⟩
  · exact ⟨s.known, rfl⟩

theorem workMoves_handle (n : Nat) (hn : s.tracker.weight < n)
    (hwork : s.work = some (number, .handle flow)) (hjobs : s.jobs = []) :
    s.workMoves n = s.handled number flow := by
  induction n generalizing s with
  | zero => omega
  | succ n ih =>
    cases hstep : s.tracker.step with
    | some t' =>
      have hlt := weight_step_lt hstep
      have hmove : s.workStep = some ({ s with tracker := t' }, []) := by simp [workStep, hstep]
      rw [workMoves_of_some hmove, ih (s := { s with tracker := t' }) (by simp only; omega) hwork
        hjobs, handled, handled, settle_of_step_some hstep]
      rfl
    | none =>
      have hsettle : s.tracker.settle = s.tracker := moves_of_step_none hstep _
      rw [handled, hsettle]
      cases hidle : s.tracker.isIdle with
      | true =>
        have hdone : s.workStep = some ({ s.learnOf flow with work := none }, [(number, .ok)]) := by
          simp [workStep, hstep, hidle, hwork]
        obtain ⟨known, hlearn⟩ := s.learnOf_eq flow
        rw [workMoves_of_some hdone, workMoves_of_none, if_pos rfl]
        · rfl
        · rw [hlearn]
          exact workStep_of_work_none rfl hjobs hstep
      | false =>
        have hwaits : s.workStep = none := by simp [workStep, hstep, hidle]
        rw [workMoves_of_none hwaits, if_neg Bool.false_ne_true]

theorem round_of_readings_nil {done : List (Nat × Reply)}
    (h : s.workMoves s.weight = (s', done)) (hreadings : s'.readings = []) :
    s.round = (s', done) := by
  cases s'
  cases hreadings
  simp [round, h, readTurns]

/-- A round that ends with nothing left to do brings the session to rest. -/
theorem settle_of_workMoves {done : List (Nat × Reply)}
    (h : s.workMoves s.weight = (s', done)) (hreadings : s'.readings = [])
    (hstep : s'.workStep = none) (hweight : s'.weight < s.weight) : s.settle = (s', done) := by
  have hagain : s'.round = (s', []) :=
    round_of_readings_nil (workMoves_of_none hstep s'.weight) hreadings
  obtain ⟨k, hk⟩ : ∃ k, s.weight = k + 1 := ⟨s.weight - 1, by omega⟩
  rw [settle, rounds, round_of_readings_nil h hreadings]
  simp only [hweight, if_true]
  rw [hk, rounds, hagain]
  simp only [Nat.lt_irrefl, if_false, List.append_nil]

theorem settle_of_handled {begun : Session} (hwork : begun.work = some (number, .handle flow))
    (hjobs : begun.jobs = []) (hreadings : begun.readings = [])
    (h : s.workMoves s.weight = begun.handled number flow)
    (hweight : begun.tracker.weight + 1 < s.weight) : s.settle = begun.handled number flow := by
  have hsettle := weight_settle_le begun.tracker
  have hrest := step_settle begun.tracker
  unfold handled at h ⊢
  split at h
  · next hidle =>
    obtain ⟨known, hlearn⟩ := learnOf_eq { begun with tracker := begun.tracker.settle } flow
    rw [hlearn] at h
    rw [if_pos hidle, hlearn]
    refine settle_of_workMoves h hreadings (workStep_of_work_none rfl hjobs hrest) ?_
    simp only [weight, hjobs, hreadings, Option.map_none, Option.getD_none, total_nil] at hweight ⊢
    omega
  · next hidle =>
    rw [if_neg hidle]
    refine settle_of_workMoves h hreadings ?_ ?_
    · simp [workStep, hrest, hidle]
    · simp only [weight, hwork, hjobs, hreadings, Option.map_some, Option.getD_some, total_nil,
        Work.weight] at hweight ⊢
      omega

/-! ## Requests for packets -/

/-- The session has nothing to do and nobody waits for anything. -/
structure AtRest (s : Session) : Prop where
  running : s.stopped = false
  work : s.work = none
  jobs : s.jobs = []
  readings : s.readings = []
  idle : s.tracker.isIdle = true

theorem AtRest.ofSettings (s : Settings) (announcing : Option Nat) :
    (ofSettings s announcing).AtRest :=
  ⟨rfl, rfl, rfl, rfl, rfl⟩

theorem mention_eq (s : Session) (flow : Flow) :
    ∃ mentioned, s.mention flow = { s with mentioned } := by
  unfold mention
  split
  · exact ⟨s.mentioned, rfl⟩
  · exact ⟨_, rfl⟩

theorem packet_eq_handled (h : s.AtRest) (number : Nat) (p : Packet) :
    ∃ begun : Session, begun.stopped = false ∧ begun.jobs = [] ∧ begun.readings = [] ∧
      begun.tracker = s.tracker.accept p ∧
      s.packet number p = begun.handled number p.connection := by
  have haccept := weight_accept_le (Option.isNone_iff_eq_none.1 h.idle) p
  obtain ⟨mentioned, hmention⟩ := s.mention_eq p.connection
  -- The session with the job to come, and with the job at hand.
  let asked : Session := { s with mentioned, jobs := [(number, .handle p)] }
  let begun : Session := { s with
    mentioned, jobs := [], tracker := s.tracker.accept p
    work := some (number, .handle p.connection) }
  have hasked : s.packet number p = asked.settle := by
    rw [packet, enqueue, hmention, h.jobs]
    rfl
  have hweight : asked.weight = s.tracker.weight + 11 + 1 := by
    simp [asked, weight, h.work, h.readings, Job.weight]
  have hbegun : asked.workStep = some (begun, []) := by
    rw [workStep_of_jobs (s := asked) h.work rfl h.idle]
    simp only [takeUp, asked, h.running, Bool.false_eq_true, if_false, begun]
  have hmoves : asked.workMoves asked.weight = begun.handled number p.connection := by
    rw [hweight, workMoves_of_some hbegun, workMoves_handle _ (by simp only [begun]; omega) rfl rfl]
    rfl
  have hsettle : asked.settle = begun.handled number p.connection :=
    settle_of_handled rfl rfl h.readings hmoves (by rw [hweight]; simp only [begun]; omega)
  exact ⟨begun, h.running, rfl, h.readings, rfl, hasked.trans hsettle⟩

/-- A session at rest that is asked for a packet ends with the tracker that has handled it.
When the packet did not have to wait, the session has answered and is at rest again. -/
theorem packet_handled (h : s.AtRest) (number : Nat) (p : Packet) :
    (s.packet number p).1.tracker = s.tracker.handle p ∧
      ((s.tracker.handle p).isIdle = true →
        (s.packet number p).1.AtRest ∧ (s.packet number p).2 = [(number, .ok)]) := by
  obtain ⟨begun, hrunning, hjobs, hreadings, htracker, hpacket⟩ := packet_eq_handled h number p
  rw [hpacket, handled, htracker, handle]
  split
  · next hidle =>
    obtain ⟨known, hlearn⟩ :=
      learnOf_eq { begun with tracker := (s.tracker.accept p).settle } p.connection
    rw [hlearn]
    exact ⟨rfl, fun _ => ⟨⟨hrunning, rfl, hjobs, hreadings, hidle⟩, rfl⟩⟩
  · next hidle => exact ⟨rfl, fun hother => absurd hother hidle⟩

/-- A session at rest that is asked for packets, none of which has to wait, ends with the
tracker that has handled them all. -/
theorem packets_handled (ps : List (Nat × Packet)) (h : s.AtRest)
    (hnowait : ∀ k, (((ps.map Prod.snd).take k).foldl handle s.tracker).isIdle = true) :
    (ps.foldl (fun s p => (s.packet p.1 p.2).1) s).AtRest ∧
      (ps.foldl (fun s p => (s.packet p.1 p.2).1) s).tracker =
        (ps.map Prod.snd).foldl handle s.tracker := by
  induction ps generalizing s with
  | nil => exact ⟨h, rfl⟩
  | cons p ps ih =>
    obtain ⟨htracker, hrest⟩ := packet_handled h p.1 p.2
    have hfirst : (s.tracker.handle p.2).isIdle = true := hnowait 1
    obtain ⟨hlast, hsame⟩ := ih (hrest hfirst).1 fun k => by
      rw [htracker]
      exact hnowait (k + 1)
    rw [htracker] at hsame
    exact ⟨hlast, hsame⟩

end Session

end Tracker

end StreamTap
