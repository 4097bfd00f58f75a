import StreamTap.Proofs.Stream.History

/-!
# A session makes a history

A session answers one request after another and brings itself to rest in between: it gives
every unfinished call a turn, and repeats that while something changes.  All it does in this
is to let calls make their smallest moves, one at a time.  So whatever requests it serves,
there is a schedule in which the same calls are started and which leads to the same session
with the same answers (`exists_schedule_serve`), and what holds of every history holds of
every session.
-/

namespace StreamTap

namespace Task.Outcome

/-- What stands in the place of a call after its turn. -/
def rest (number : Nat) : Outcome → List (Nat × Task)
  | .waits task => [(number, task)]
  | .finished _ => []

/-- The answer of a call that its turn has finished. -/
def answers (number : Nat) : Outcome → List (Nat × Answer)
  | .waits _ => []
  | .finished answer => [(number, answer)]

end Task.Outcome

namespace History

/-- One history leads to another by moves of the unfinished calls alone. -/
def Leads (h h' : History) : Prop := ∃ places : List Nat, h.run (places.map .move) = h'

theorem Leads.refl (h : History) : Leads h h := ⟨[], rfl⟩

theorem Leads.trans {h h' h'' : History} (hleads : Leads h h') (hleads' : Leads h' h'') :
    Leads h h'' := by
  obtain ⟨places, rfl⟩ := hleads
  obtain ⟨places', rfl⟩ := hleads'
  exact ⟨places ++ places', by rw [List.map_append, run_append]⟩

section Turns

variable (before after : List (Nat × Task)) (number : Nat) (task : Task) (b : Buffer)
  (r : Record) (done : List (Nat × Answer))

theorem leads_resume :
    Leads ⟨⟨b, before ++ (number, task) :: after⟩, r, done⟩
      (resume ⟨⟨b, before ++ (number, task) :: after⟩, r, done⟩ before after number
        task (task.step b (before.all fun p => !p.2.blocksWriters))) := by
  refine ⟨[before.length], ?_⟩
  simp [happen, buffer]

theorem leads_moves (n : Nat) :
    ∃ r', Leads ⟨⟨b, before ++ (number, task) :: after⟩, r, done⟩
      ⟨⟨(task.moves (before.all fun p => !p.2.blocksWriters) n b).1, before ++
          (task.moves (before.all fun p => !p.2.blocksWriters) n b).2.rest number ++ after⟩, r',
        done ++ (task.moves (before.all fun p => !p.2.blocksWriters) n b).2.answers number⟩ := by
  induction n generalizing task b r with
  | zero =>
    refine ⟨r, ?_⟩
    simp only [Task.moves, Task.Outcome.rest, Task.Outcome.answers, List.append_nil,
      List.append_assoc, List.singleton_append]
    exact .refl _
  | succ n ih =>
    have hmove := leads_resume before after number task b r done
    cases hstep : task.step b (before.all fun p => !p.2.blocksWriters) with
    | stuck =>
      refine ⟨r, ?_⟩
      simp only [Task.moves, hstep, Task.Outcome.rest, Task.Outcome.answers, List.append_nil,
        List.append_assoc, List.singleton_append]
      exact .refl _
    | moved task' b' =>
      rw [hstep] at hmove
      simp only [Task.moves, hstep]
      obtain ⟨r', hrest⟩ := ih task' b' (r.note b number task (.moved task' b'))
      refine ⟨r', hmove.trans ?_⟩
      simpa [resume, buffer] using hrest
    | finished answer b' =>
      rw [hstep] at hmove
      simp only [Task.moves, hstep]
      exact ⟨_, hmove⟩

theorem leads_turns (pending : List (Nat × Task)) :
    ∃ r', Leads ⟨⟨b, before ++ pending⟩, r, done⟩
      ⟨⟨(Session.turns b (before.all fun p => !p.2.blocksWriters) pending).1.buffer,
          before ++ (Session.turns b (before.all fun p => !p.2.blocksWriters) pending).1.pending⟩,
        r', done ++ (Session.turns b (before.all fun p => !p.2.blocksWriters) pending).2⟩ := by
  induction pending generalizing before b r done with
  | nil =>
    refine ⟨r, ?_⟩
    simp only [Session.turns, List.append_nil]
    exact .refl _
  | cons first pending ih =>
    obtain ⟨number, task⟩ := first
    obtain ⟨r', hturn⟩ := leads_moves before pending number task b r done (b.weight + task.weight)
    have hmoves : task.moves (before.all fun p => !p.2.blocksWriters) (b.weight + task.weight) b
        = task.turn b (before.all fun p => !p.2.blocksWriters) := rfl
    rw [hmoves] at hturn
    rw [Session.turns]
    cases hout : task.turn b (before.all fun p => !p.2.blocksWriters) with
    | mk b' outcome =>
      rw [hout] at hturn
      cases outcome with
      | waits task' =>
        obtain ⟨r'', hothers⟩ := ih (before ++ [(number, task')]) b' r' done
        refine ⟨r'', hturn.trans ?_⟩
        simpa [Task.Outcome.rest, Task.Outcome.answers] using hothers
      | finished answer =>
        obtain ⟨r'', hothers⟩ := ih before b' r' (done ++ [(number, answer)])
        refine ⟨r'', hturn.trans ?_⟩
        simpa [Task.Outcome.rest, Task.Outcome.answers] using hothers

end Turns

theorem leads_rounds (n : Nat) (s : Session) (r : Record) (done : List (Nat × Answer)) :
    ∃ r', Leads ⟨s, r, done⟩ ⟨(s.rounds n).1, r', done ++ (s.rounds n).2⟩ := by
  induction n generalizing s r done with
  | zero =>
    refine ⟨r, ?_⟩
    simp only [Session.rounds, List.append_nil]
    exact .refl _
  | succ n ih =>
    obtain ⟨r', hturns⟩ := leads_turns [] s.buffer r done s.pending
    simp only [List.nil_append, List.all_nil] at hturns
    rw [Session.rounds]
    cases hout : Session.turns s.buffer true s.pending with
    | mk next answers =>
      rw [hout] at hturns
      simp only
      split
      · obtain ⟨r'', hothers⟩ := ih next r' (done ++ answers)
        refine ⟨r'', hturns.trans ?_⟩
        rw [← List.append_assoc]
        exact hothers
      · exact ⟨r', hturns⟩

theorem leads_settle (s : Session) (r : Record) (done : List (Nat × Answer)) :
    ∃ r', Leads ⟨s, r, done⟩ ⟨s.settle.1, r', done ++ s.settle.2⟩ :=
  leads_rounds (s.weight + 1) s r done

end History

/-! ## Requests -/

/-- What a session is asked for. -/
inductive Request where
  /-- To start a call under a number. -/
  | start (number : Nat) (call : Call)
  /-- To close the buffer. -/
  | close
  deriving DecidableEq, Repr

def Request.occurrence : Request → Occurrence
  | .start number call => .start number call
  | .close => .close

def Occurrence.isRequest : Occurrence → Bool
  | .start _ _ => true
  | .close => true
  | .move _ => false

namespace Session

def grant (s : Session) : Request → Session × List (Nat × Answer)
  | .start number call => s.start number call
  | .close => s.close

/-- Grants requests one after another; the answers come in the order the calls finished. -/
def serve (s : Session) : List Request → Session × List (Nat × Answer)
  | [] => (s, [])
  | q :: qs =>
    let (s, answers) := s.grant q
    let (s, more) := s.serve qs
    (s, answers ++ more)

end Session

namespace History

theorem exists_schedule_grant (s : Session) (r : Record) (done : List (Nat × Answer))
    (q : Request) :
    ∃ places : List Nat, ∃ r', run ⟨s, r, done⟩ (q.occurrence :: places.map .move) =
      ⟨(s.grant q).1, r', done ++ (s.grant q).2⟩ := by
  cases q with
  | start number call =>
    obtain ⟨r', places, hplaces⟩ :=
      leads_settle ⟨s.buffer, s.pending ++ [(number, call.task)]⟩ r done
    exact ⟨places, r', hplaces⟩
  | close =>
    obtain ⟨r', places, hplaces⟩ := leads_settle ⟨s.buffer.close, s.pending⟩ r done
    exact ⟨places, r', hplaces⟩

/-- Whatever requests a session serves, a schedule in which the same requests occur leads to
the same session with the same answers. -/
theorem exists_schedule_serve (h : History) (qs : List Request) :
    ∃ schedule, schedule.filter Occurrence.isRequest = qs.map Request.occurrence ∧
      (h.run schedule).session = (h.session.serve qs).1 ∧
      (h.run schedule).answers = h.answers ++ (h.session.serve qs).2 := by
  induction qs generalizing h with
  | nil => exact ⟨[], rfl, rfl, (List.append_nil _).symm⟩
  | cons q qs ih =>
    obtain ⟨places, r', hgrant⟩ := exists_schedule_grant h.session h.record h.answers q
    obtain ⟨schedule, hsame, hsession, hanswers⟩ :=
      ih ⟨(h.session.grant q).1, r', h.answers ++ (h.session.grant q).2⟩
    refine ⟨q.occurrence :: places.map .move ++ schedule, ?_, ?_, ?_⟩
    · have hmoves : (places.map Occurrence.move).filter Occurrence.isRequest = [] := by
        simp [Occurrence.isRequest]
      have hrequest : q.occurrence.isRequest = true := by cases q <;> rfl
      rw [List.cons_append, List.filter_cons_of_pos hrequest, List.filter_append, hmoves,
        List.nil_append, hsame, List.map_cons]
    · rw [run_append]
      exact (congrArg (fun h => (run h schedule).session) hgrant).trans hsession
    · rw [run_append]
      refine (congrArg (fun h => (run h schedule).answers) hgrant).trans (hanswers.trans ?_)
      rw [List.append_assoc]
      rfl

end History

end StreamTap
