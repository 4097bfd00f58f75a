import Mathlib.Data.List.Nodup
import StreamTap.Proofs.Stream.AfterClose

/-!
# Every segment has one fate

A segment that is taken in is refused because it starts outside the window or because one is
parked under its number, or it is parked.  A parked one is given up when the stream leaves it
behind, or it is pulled; then it is on offer until it goes into the hand-off or is lost.  No path
leads past these fates and none meets two of them, so that their number is the number of the
calls that have brought a segment (`every_segment_one_fate`).

The counts of the buffer know nothing of calls.  The link is that the writes begin in the order
in which they were started (`inTurn_run`), so that what has not begun can be counted among the
unfinished calls.  To count calls and not writes, each must be found again by its number
(`Numbered`).

A call whose segment is empty brings nothing.  A schedule without these calls leads to the same
buffer and gives readers the same answers (`SameBesidesVoid`).
-/

namespace StreamTap

/-- Whether a write brings a segment that is not empty. -/
def Write.bringsSegment (w : Write) : Bool := w.isAdd && !w.isVoid

def Call.bringsSegment : Call → Bool
  | .write w => w.bringsSegment
  | .read => false
  | .readAtLeast _ => false

def Task.bringsSegment : Task → Bool
  | .write w => w.bringsSegment
  | .draining => false
  | .read => false
  | .gather _ _ => false

theorem Task.blocks_of_bringsSegment {task : Task} (h : task.bringsSegment = true) :
    task.blocksWriters = true := by
  cases task with
  | write w => exact (Bool.and_eq_true_iff.1 h).2
  | draining => rfl
  | read => cases h
  | gather least got => cases h

theorem Task.bringsSegment_task (call : Call) : call.task.bringsSegment = call.bringsSegment := by
  cases call <;> rfl

/-! ## Segments that have begun and segments that wait -/

theorem countP_startedWrites (schedule : List Occurrence) :
    (startedWrites schedule).countP Write.bringsSegment =
      (startedCalls schedule).countP fun c => c.2.bringsSegment := by
  induction schedule with
  | nil => rfl
  | cons o schedule ih =>
    have hwrites : startedWrites (o :: schedule) = startedWrites [o] ++ startedWrites schedule :=
      List.filterMap_append (l := [o])
    rw [hwrites, startedCalls_cons, List.countP_append, List.countP_append, ih]
    congr 1
    cases o with
    | start number call => cases call <;> rfl
    | close => rfl
    | move place => rfl

namespace History

/-- The unfinished calls that have yet to bring a segment are the waiting writes that do. -/
theorem countP_pending {s : Session} {waiting : List Write} (hturn : InTurn s waiting) :
    s.pending.countP (fun p => p.2.bringsSegment) = waiting.countP Write.bringsSegment := by
  have hwriters : s.pending.countP (fun p => p.2.bringsSegment) =
      (writersAmong s.pending).countP Task.bringsSegment := by
    rw [writersAmong, List.countP_filter, List.countP_map]
    refine List.countP_congr fun p _ => ?_
    simp only [Function.comp, Bool.and_eq_true]
    exact ⟨fun h => ⟨h, Task.blocks_of_bringsSegment h⟩, And.left⟩
  have hoffer : List.countP Task.bringsSegment
      (if s.buffer.sending.isSome then [Task.draining] else []) = 0 := by
    split <;> rfl
  rw [hwriters, hturn.writers, List.countP_append, hoffer, Nat.zero_add, List.countP_map]
  rfl

/-- Those whose segment has a fate and those whose segment waits are all that bring one. -/
theorem fates_add_waiting {b : Buffer} (hsending : b.sending = none) (haccounts : Accounts b {})
    (schedule : List Occurrence) :
    fates ((ofBuffer b).run schedule).buffer ((ofBuffer b).run schedule).record +
        ((ofBuffer b).run schedule).session.pending.countP (fun p => p.2.bringsSegment) =
      (startedCalls schedule).countP fun c => c.2.bringsSegment := by
  obtain ⟨waiting, hturn, hbegun⟩ := inTurn_run hsending schedule
  have hbrings : ∀ {l : List Write}, (∀ w ∈ l, w.isVoid = false) →
      l.countP Write.bringsSegment = l.countP Write.isAdd := by
    intro l hl
    refine List.countP_congr fun w hw => ?_
    simp [Write.bringsSegment, hl w hw]
  have hall : ∀ w ∈ ((ofBuffer b).run schedule).record.begun ++ waiting, w.isVoid = false := by
    rw [hbegun]
    intro w hw
    simpa using (List.mem_filter.1 hw).2
  calc fates _ _ + _
      = ((ofBuffer b).run schedule).record.begun.countP Write.isAdd
          + waiting.countP Write.isAdd := by
        rw [(accounts_run hsending haccounts schedule).fates, ← List.countP_eq_length_filter,
          countP_pending hturn, hbrings fun w hw => hall w (List.mem_append_right _ hw)]
    _ = (((ofBuffer b).run schedule).record.begun ++ waiting).countP Write.bringsSegment := by
        rw [hbrings hall, List.countP_append]
    _ = (startedWrites schedule).countP Write.bringsSegment := by
        rw [hbegun, List.countP_filter]
        refine List.countP_congr fun w _ => ?_
        simp [Write.bringsSegment]
    _ = _ := countP_startedWrites schedule

end History

/-! ## Calls and their numbers -/

/-- What can be left of a call. -/
inductive LeftOf : Call → Task → Prop
  | fresh (call : Call) : LeftOf call call.task
  | draining (w : Write) : w.isVoid = false → LeftOf (.write w) .draining
  | gathering (least : Nat) (got : Bytes) : LeftOf (.readAtLeast least) (.gather least got)

theorem LeftOf.moved {call : Call} {task rest : Task} {b b' : Buffer} {myTurn : Bool}
    (hleft : LeftOf call task) (hstep : task.step b myTurn = .moved rest b') :
    LeftOf call rest := by
  rcases Task.moved_cases hstep with ⟨rfl, hblocks⟩ | ⟨least, got, chunk, rfl, rfl⟩
  · cases hleft with
    | fresh =>
      cases call with
      | write w => exact .draining w (by simpa [Call.task, Task.blocksWriters] using hblocks)
      | read => cases hblocks
      | readAtLeast least => cases hblocks
    | draining w hw => exact .draining w hw
    | gathering least got => cases hblocks
  · generalize htask : Task.gather least got = task at hleft
    cases hleft with
    | fresh =>
      cases call with
      | write w => cases htask
      | read => cases htask
      | readAtLeast least' =>
        cases htask
        exact .gathering least _
    | draining w _ => cases htask
    | gathering least' got' =>
      cases htask
      exact .gathering least _

theorem LeftOf.eq_task_of_bringsSegment {call : Call} {task : Task} (hleft : LeftOf call task)
    (h : task.bringsSegment = true) : task = call.task := by
  cases hleft with
  | fresh => rfl
  | draining w _ => cases h
  | gathering least got => cases h

theorem LeftOf.eq_task_or_draining {call : Call} {task : Task} (hleft : LeftOf call task)
    (h : call.bringsSegment = true) : task = call.task ∨ task = .draining := by
  cases hleft with
  | fresh => exact Or.inl rfl
  | draining w _ => exact Or.inr rfl
  | gathering least got => cases h

namespace History

/-- The calls that were started are those that have been answered and the unfinished ones. -/
structure Numbered (calls : List (Nat × Call)) (h : History) : Prop where
  numbers : (calls.map Prod.fst).Perm
    (h.answers.map Prod.fst ++ h.session.pending.map Prod.fst)
  left : ∀ p ∈ h.session.pending, ∃ call, (p.1, call) ∈ calls ∧ LeftOf call p.2

theorem Numbered.resume {calls : List (Nat × Call)} {h : History} (hnumbered : h.Numbered calls)
    {before after : List (Nat × Task)} {number : Nat} {task : Task}
    (hpending : h.session.pending = before ++ (number, task) :: after)
    {myTurn : Bool} :
    (h.resume before after number task (task.step h.buffer myTurn)).Numbered calls := by
  obtain ⟨hnumbers, hleft⟩ := hnumbered
  rw [hpending] at hnumbers hleft
  have hbefore : ∀ p ∈ before, ∃ call, (p.1, call) ∈ calls ∧ LeftOf call p.2 :=
    fun p hp => hleft p (List.mem_append_left _ hp)
  have hafter : ∀ p ∈ after, ∃ call, (p.1, call) ∈ calls ∧ LeftOf call p.2 :=
    fun p hp => hleft p (List.mem_append_right _ (List.mem_cons_of_mem _ hp))
  cases hstep : task.step h.buffer myTurn with
  | stuck => exact ⟨by simpa only [History.resume, hpending] using hnumbers,
      by simpa only [History.resume, hpending] using hleft⟩
  | moved rest b =>
    refine ⟨by simpa [History.resume] using hnumbers, ?_⟩
    intro p hp
    simp only [History.resume, List.mem_append, List.mem_singleton] at hp
    rcases hp with (hp | rfl) | hp
    · exact hbefore p hp
    · obtain ⟨call, hcall, hrest⟩ := hleft (number, task) List.mem_append_cons_self
      exact ⟨call, hcall, hrest.moved hstep⟩
    · exact hafter p hp
  | finished answer b =>
    refine ⟨hnumbers.trans ?_, ?_⟩
    · simp only [History.resume, List.map_append, List.map_cons, List.map_nil, List.append_nil,
        List.append_assoc]
      exact List.perm_middle.append_left _
    · intro p hp
      simp only [History.resume, List.append_nil, List.mem_append] at hp
      exact hp.elim (hbefore p) (hafter p)

theorem numbered_run (b : Buffer) (schedule : List Occurrence) :
    ((ofBuffer b).run schedule).Numbered (startedCalls schedule) := by
  refine prefix_induction (motive := fun done =>
    ((ofBuffer b).run done).Numbered (startedCalls done)) ⟨.refl _, by simp [ofBuffer,
      Session.ofBuffer]⟩ ?_
  intro done o _ hnumbered
  rw [run_snoc, startedCalls_append]
  cases o with
  | start number call =>
    constructor
    · simp only [happen, List.map_append, ← List.append_assoc]
      exact hnumbered.numbers.append_right _
    · intro p hp
      rcases List.mem_append.1 hp with hp | hp
      · obtain ⟨call', hcall, hleft⟩ := hnumbered.left p hp
        exact ⟨call', List.mem_append_left _ hcall, hleft⟩
      · rw [List.mem_singleton.1 hp]
        exact ⟨call, List.mem_append_right _ List.mem_cons_self, .fresh call⟩
  | close =>
    rw [show startedCalls [.close] = [] from rfl, List.append_nil]
    exact ⟨hnumbered.numbers, hnumbered.left⟩
  | move place =>
    rw [show startedCalls [.move place] = [] from rfl, List.append_nil]
    generalize (ofBuffer b).run done = h at hnumbered ⊢
    rcases h.happen_move_cases place with hstay | ⟨before, number, task, after, hpending, hmove⟩
    · rw [hstay]
      exact hnumbered
    · rw [hmove]
      exact hnumbered.resume hpending

/-- Whether the call under a number is finished or in the middle of its drain. -/
def hasBegun (h : History) (number : Nat) : Bool :=
  (h.answers.map Prod.fst).contains number || h.session.pending.contains (number, .draining)

theorem hasBegun_eq_false_iff {h : History} {number : Nat} :
    h.hasBegun number = false ↔
      number ∉ h.answers.map Prod.fst ∧ (number, .draining) ∉ h.session.pending := by
  simp [hasBegun]

/-- Where no number is given twice, the calls that bring a segment and have not begun are those
that have yet to bring it. -/
theorem Numbered.perm_waiting {calls : List (Nat × Call)} {h : History}
    (hnumbered : h.Numbered calls) (hnodup : (calls.map Prod.fst).Nodup) :
    ((calls.filter fun c => c.2.bringsSegment && !h.hasBegun c.1).map
        fun c => (c.1, c.2.task)).Perm
      (h.session.pending.filter fun p => p.2.bringsSegment) := by
  have hboth := hnumbered.numbers.nodup_iff.1 hnodup
  obtain ⟨-, hpending, happart⟩ := List.nodup_append.1 hboth
  refine (List.perm_ext_iff_of_nodup ?_ (hpending.of_map.filter _)).2 ?_
  · refine List.Nodup.of_map Prod.fst ?_
    rw [List.map_map]
    exact hnodup.sublist (List.filter_sublist.map _)
  · rintro ⟨number, task⟩
    rw [List.mem_map, List.mem_filter]
    simp only [List.mem_filter, Bool.and_eq_true, Bool.not_eq_true', hasBegun_eq_false_iff]
    constructor
    · rintro ⟨⟨n, call⟩, ⟨hcall, hbrings, hanswers, hdraining⟩, heq⟩
      cases heq
      have hnumber : n ∈ h.answers.map Prod.fst ++ h.session.pending.map Prod.fst :=
        hnumbered.numbers.mem_iff.1 (List.mem_map.2 ⟨_, hcall, rfl⟩)
      have hunfinished := (List.mem_append.1 hnumber).resolve_left hanswers
      obtain ⟨⟨_, task⟩, hp, rfl⟩ := List.mem_map.1 hunfinished
      obtain ⟨call', hcall', hleft⟩ := hnumbered.left _ hp
      obtain rfl : call' = call :=
        (Prod.mk.inj (List.inj_on_of_nodup_map hnodup hcall' hcall rfl)).2
      obtain rfl := (hleft.eq_task_or_draining hbrings).resolve_right
        fun heq => hdraining (heq ▸ hp)
      exact ⟨hp, (Task.bringsSegment_task call').trans hbrings⟩
    · rintro ⟨hp, hbrings⟩
      obtain ⟨call, hcall, hleft⟩ := hnumbered.left _ hp
      have htask := hleft.eq_task_of_bringsSegment hbrings
      refine ⟨(number, call), ⟨hcall, ?_, ?_, ?_⟩, Prod.ext rfl htask.symm⟩
      · rw [← Task.bringsSegment_task, ← htask]
        exact hbrings
      · intro hanswers
        exact happart number hanswers number (List.mem_map.2 ⟨_, hp, rfl⟩) rfl
      · intro hdraining
        have hsame := List.inj_on_of_nodup_map hpending hp hdraining rfl
        cases hsame
        cases hbrings

theorem countP_hasBegun {b : Buffer} (hsending : b.sending = none) (haccounts : Accounts b {})
    {schedule : List Occurrence} (hnodup : ((startedCalls schedule).map Prod.fst).Nodup) :
    (startedCalls schedule).countP
        (fun c => c.2.bringsSegment && ((ofBuffer b).run schedule).hasBegun c.1) =
      fates ((ofBuffer b).run schedule).buffer ((ofBuffer b).run schedule).record := by
  have hwaiting := ((numbered_run b schedule).perm_waiting hnodup).length_eq
  rw [List.length_map, ← List.countP_eq_length_filter, ← List.countP_eq_length_filter] at hwaiting
  have hall := fates_add_waiting hsending haccounts schedule
  have hsplit := (startedCalls schedule).countP_eq_countP_filter_add
    (fun c => c.2.bringsSegment) fun c => ((ofBuffer b).run schedule).hasBegun c.1
  rw [List.countP_filter, List.countP_filter] at hsplit
  omega

end History

/-! ## Calls that bring nothing -/

def Task.isVoid : Task → Bool
  | .write w => w.isVoid
  | .draining => false
  | .read => false
  | .gather _ _ => false

def Call.isVoid (call : Call) : Bool := call.task.isVoid

theorem Task.not_isVoid_of_moved {b b' : Buffer} {myTurn : Bool} {task rest : Task}
    (h : task.step b myTurn = .moved rest b') : rest.isVoid = false := by
  rcases moved_cases h with ⟨rfl, -⟩ | ⟨_, _, _, -, rfl⟩
  · rfl
  · rfl

theorem Task.step_of_isVoid {b : Buffer} {myTurn : Bool} {task : Task} (h : task.isVoid = true) :
    task.step b myTurn = .finished .done b := by
  cases task with
  | write w => exact if_pos h
  | draining => cases h
  | read => cases h
  | gather least got => cases h

theorem Task.not_blocks_of_isVoid {task : Task} (h : task.isVoid = true) :
    task.blocksWriters = false := by
  cases task with
  | write w => exact congrArg not h
  | draining => cases h
  | read => cases h
  | gather least got => cases h

theorem Record.note_of_isVoid (r : Record) (b : Buffer) (number : Nat) {task : Task}
    (h : task.isVoid = true) : r.note b number task (.finished .done b) = r := by
  have hreceived : task.received (.finished .done b) = [] := by
    cases task with
    | write w => rfl
    | draining => rfl
    | read => rfl
    | gather least got => rfl
  exact r.note_nothing number b (Task.not_blocks_of_isVoid h) rfl hreceived

namespace History

/-- What is left of an occurrence when the calls that ask for nothing are not made. -/
def withoutVoidOnce (h : History) : Occurrence → List Occurrence
  | .start number call => if call.isVoid then [] else [.start number call]
  | .close => [.close]
  | .move place =>
    match h.session.pending[place]? with
    | none => []
    | some (_, task) =>
      if task.isVoid then []
      else [.move ((h.session.pending.take place).filter fun p => !p.2.isVoid).length]

def withoutVoid (h : History) : List Occurrence → List Occurrence
  | [] => []
  | o :: schedule => h.withoutVoidOnce o ++ (h.happen o).withoutVoid schedule

theorem startedCalls_withoutVoid (h : History) (schedule : List Occurrence) :
    startedCalls (h.withoutVoid schedule) =
      (startedCalls schedule).filter fun c => !c.2.isVoid := by
  induction schedule generalizing h with
  | nil => rfl
  | cons o schedule ih =>
    rw [withoutVoid, startedCalls_append, ih, startedCalls_cons, List.filter_append]
    congr 1
    cases o with
    | start number call =>
      cases hvoid : call.isVoid with
      | true => simp [withoutVoidOnce, startedCalls, Occurrence.call?, hvoid]
      | false => simp [withoutVoidOnce, startedCalls, Occurrence.call?, hvoid]
    | close => rfl
    | move place =>
      simp only [withoutVoidOnce]
      split
      · rfl
      · split <;> rfl

/-- Two histories that differ in calls that ask for nothing: those of the first are not among the
calls of the second. -/
structure SameBesidesVoid (h h' : History) : Prop where
  buffer : h'.buffer = h.buffer
  record : h'.record = h.record
  pending : h'.session.pending = h.session.pending.filter fun p => !p.2.isVoid
  answers : h'.answers.Sublist h.answers
  readers : h'.readerAnswers = h.readerAnswers

theorem SameBesidesVoid.resume {h h' : History} (hsame : SameBesidesVoid h h')
    (before after : List (Nat × Task)) (number : Nat) (task : Task)
    (myTurn : Bool) :
    SameBesidesVoid (h.resume before after number task (task.step h.buffer myTurn))
      (h'.resume (before.filter fun p => !p.2.isVoid) (after.filter fun p => !p.2.isVoid) number
        task (task.step h.buffer myTurn)) := by
  cases hstep : task.step h.buffer myTurn with
  | stuck => exact hsame
  | moved rest b =>
    have hrest := Task.not_isVoid_of_moved hstep
    refine ⟨rfl, ?_, ?_, hsame.answers, hsame.readers⟩
    · simp only [History.resume, hsame.record, hsame.buffer]
    · simp [History.resume, hrest]
  | finished answer b =>
    refine ⟨rfl, ?_, ?_, hsame.answers.append (List.Sublist.refl _), ?_⟩
    · simp only [History.resume, hsame.record, hsame.buffer]
    · simp [History.resume]
    · have hreaders := hsame.readers
      simp only [readerAnswers] at hreaders
      simp only [History.resume, readerAnswers, List.filter_append, hreaders]

theorem SameBesidesVoid.happen {h h' : History} (hsame : SameBesidesVoid h h')
    (o : Occurrence) : SameBesidesVoid (h.happen o) (h'.run (h.withoutVoidOnce o)) := by
  cases o with
  | close =>
    exact ⟨congrArg Buffer.close hsame.buffer, hsame.record, hsame.pending, hsame.answers,
      hsame.readers⟩
  | start number call =>
    cases hvoid : call.isVoid with
    | true =>
      have htask : call.task.isVoid = true := hvoid
      simp only [withoutVoidOnce, hvoid, if_true, run_nil]
      refine ⟨hsame.buffer, hsame.record, ?_, hsame.answers, hsame.readers⟩
      simp [History.happen, htask, hsame.pending]
    | false =>
      have htask : call.task.isVoid = false := hvoid
      simp only [withoutVoidOnce, hvoid, Bool.false_eq_true, if_false, run_cons, run_nil]
      refine ⟨hsame.buffer, hsame.record, ?_, hsame.answers, hsame.readers⟩
      simp [History.happen, htask, hsame.pending]
  | move place =>
    cases hplace : h.session.pending[place]? with
    | none =>
      have hstay : h.happen (.move place) = h := by simp only [History.happen, hplace]
      simp only [withoutVoidOnce, hplace, run_nil, hstay]
      exact hsame
    | some p =>
      obtain ⟨number, task⟩ := p
      obtain ⟨before, after, hpending, rfl⟩ := split_of_place hplace
      have hbefore : h.session.pending.take before.length = before := by simp [hpending]
      simp only [withoutVoidOnce, hplace, hbefore]
      rw [happen_move hpending]
      cases hvoid : task.isVoid with
      | true =>
        rw [Task.step_of_isVoid hvoid]
        simp only [if_true, run_nil]
        refine ⟨hsame.buffer, ?_, ?_, ?_, ?_⟩
        · rw [hsame.record, History.resume, h.record.note_of_isVoid _ _ hvoid]
        · simp [History.resume, hsame.pending, hpending, hvoid]
        · exact hsame.answers.trans (List.sublist_append_left ..)
        · simpa [History.resume, readerAnswers, Answer.isReading] using hsame.readers
      | false =>
        have hpending' : h'.session.pending =
            (before.filter fun p => !p.2.isVoid) ++ (number, task) ::
              after.filter fun p => !p.2.isVoid := by
          simp [hsame.pending, hpending, hvoid]
        have hturn : ((before.filter fun p => !p.2.isVoid).all fun p => !p.2.blocksWriters) =
            before.all fun p => !p.2.blocksWriters := by
          rw [List.all_filter]
          refine List.all_congr rfl fun p => ?_
          cases hp : p.2.isVoid with
          | true => simp [Task.not_blocks_of_isVoid hp]
          | false => simp
        simp only [Bool.false_eq_true, if_false, run_cons, run_nil]
        rw [happen_move hpending', hturn, hsame.buffer]
        exact hsame.resume before after number task _

theorem SameBesidesVoid.run {h h' : History} (hsame : SameBesidesVoid h h')
    (schedule : List Occurrence) :
    SameBesidesVoid (h.run schedule) (h'.run (h.withoutVoid schedule)) := by
  induction schedule generalizing h h' with
  | nil => exact hsame
  | cons o schedule ih =>
    rw [withoutVoid, run_append, run_cons]
    exact ih (hsame.happen o)

/-- Whatever was called on a buffer, each call that brings a segment waits for its turn or has
given its segment one fate: as many segments were refused as outside the window or as duplicates,
were given up as stale, are parked or on offer, or went into the hand-off or were lost, as there
are calls that bring one and are finished or in the middle of their drain.  The chunks that went
into the hand-off are those that calls received and those that are still in it.  The calls that
bring nothing change nothing: without them the schedule leads to the same buffer, the same
unfinished calls and the same answers for readers. -/
theorem every_segment_one_fate (s : Seq) (window : UInt32) (capacity : Nat)
    (schedule : List Occurrence) :
    let start := ofBuffer (.startingAt s window capacity)
    let h := start.run schedule
    h.record.handed = h.record.taken ++ h.buffer.handoff.items ∧
      fates h.buffer h.record + h.session.pending.countP (fun p => p.2.bringsSegment) =
        (startedCalls schedule).countP (fun c => c.2.bringsSegment) ∧
      (((startedCalls schedule).map Prod.fst).Nodup →
        (startedCalls schedule).countP (fun c => c.2.bringsSegment && h.hasBegun c.1) =
          fates h.buffer h.record) ∧
      startedCalls (start.withoutVoid schedule) =
        (startedCalls schedule).filter (fun c => !c.2.isVoid) ∧
      SameBesidesVoid h (start.run (start.withoutVoid schedule)) := by
  intro start h
  have haccounts : Accounts (.startingAt s window capacity) {} := .startingAt s window capacity
  have hsame : SameBesidesVoid start start := ⟨rfl, rfl, rfl, .refl _, rfl⟩
  refine ⟨(accounts_run rfl haccounts schedule).queue, fates_add_waiting rfl haccounts schedule,
    ?_, startedCalls_withoutVoid start schedule, hsame.run schedule⟩
  exact countP_hasBegun rfl haccounts

/-- One segment for each fate, one that waits, an empty one and a rebase. -/
def eachFate : List Occurrence :=
  [.start 0 (.write (.add 500 [1])), .move 0, .start 1 (.write (.add 20 [1])), .move 0,
    .start 2 (.write (.add 20 [2])), .move 0, .start 3 (.write (.add 12 [])),
    .start 4 (.write (.add 10 [1, 2])), .move 1, .move 1, .start 5 (.write (.rebase 21)), .move 1,
    .start 6 (.write (.add 30 [9])), .move 1, .start 7 (.write (.add 21 [5])), .move 1, .close,
    .move 1, .start 8 (.write (.add 22 [6])), .move 1, .start 9 (.write (.add 40 [7]))]

theorem every_segment_one_fate_each :
    let h := (ofBuffer (.startingAt 10 100 1)).run eachFate
    h.buffer.outOfWindow = 1 ∧ h.buffer.duplicate = 1 ∧ h.buffer.stale = 1 ∧
      h.buffer.parked.size = 1 ∧ h.buffer.sending = some [6] ∧ h.record.handed = [[1, 2]] ∧
      h.record.handed = h.record.taken ++ h.buffer.handoff.items ∧ h.record.lost = [[5]] ∧
      ((startedCalls eachFate).map Prod.fst).Nodup ∧
      (startedCalls eachFate).countP (fun c => c.2.bringsSegment && h.hasBegun c.1) = 7 := by
  intro h
  obtain ⟨hqueue, -, hbegun, -, -⟩ := every_segment_one_fate 10 100 1 eachFate
  have hnodup : ((startedCalls eachFate).map Prod.fst).Nodup := by decide
  have hfates : fates h.buffer h.record = 7 := by decide
  exact ⟨by decide, by decide, by decide, by decide, by decide, by decide, hqueue, by decide,
    hnodup, (hbegun hnodup).trans hfates⟩

end History

end StreamTap
