import StreamTap.Proofs.Stream.Accounts
import StreamTap.Proofs.Stream.Waiting

/-!
# What readers see after a close

A *reading* is what comes of a look into the hand-off: its oldest chunk, or the word that the
buffer is closed.  A call to read makes one reading, and a call to read at least so many bytes
makes one after another until it has them.

While a buffer is open its writers decide what the next reading is.  The close takes this from
them.  The readings after it are the chunks that it found in the hand-off, in their order, and
then nothing but the word that the buffer is closed (`close_fixes_reads`).  The writers that are
still under way go on, and each that has a chunk on offer loses it and ends: a closed hand-off
accepts nothing, even when readers have made room in it.
-/

namespace StreamTap

/-- Whether an answer is what a reader gets. -/
def Answer.isReading : Answer → Bool
  | .done => false
  | .bytes _ => true
  | .closed => true

def Task.collects : Task → Bool
  | .gather _ _ => true
  | .write _ => false
  | .draining => false
  | .read => false

/-- The first `n` readings of a closed hand-off. -/
def readingsOf (items : List Bytes) (n : Nat) : List Answer :=
  (items.map Answer.bytes ++ List.replicate n Answer.closed).take n

theorem readingsOf_nil (n : Nat) : readingsOf [] n = List.replicate n Answer.closed := by
  simp [readingsOf]

theorem readingsOf_cons (chunk : Bytes) (items : List Bytes) (n : Nat) :
    readingsOf (chunk :: items) (n + 1) = .bytes chunk :: readingsOf items n := by
  have hleft : min (n - items.length) (n + 1) = min (n - items.length) n := by omega
  simp [readingsOf, List.take_append, List.take_replicate, hleft]

/-! ## What a move does to a closed hand-off -/

namespace Task

variable {b : Buffer} {myTurn : Bool} {task : Task}

theorem leaves_step_of_items (hwants : task.wantsChunk = true) {chunk : Bytes} {rest : List Bytes}
    (htake : b.take = .chunk chunk (b.taken chunk rest)) :
    (task.step b myTurn).leaves b = b.taken chunk rest := by
  cases task with
  | write w => cases hwants
  | draining => cases hwants
  | read => simp only [step, htake, Step.leaves]
  | gather least got =>
    have hmore : ¬least ≤ got.length := by simpa [wantsChunk] using hwants
    simp only [step, hmore, if_false, htake, Step.leaves]

theorem leaves_step_of_closed (hwants : task.wantsChunk = true) (htake : b.take = .closed) :
    (task.step b myTurn).leaves b = b := by
  cases task with
  | write w => cases hwants
  | draining => cases hwants
  | read => simp only [step, htake, Step.leaves]
  | gather least got =>
    have hmore : ¬least ≤ got.length := by simpa [wantsChunk] using hwants
    simp only [step, hmore, if_false, htake, Step.leaves]

/-- Nobody else touches a hand-off that is closed. -/
theorem handoff_step_of_closed (hclosed : b.isClosed = true) (hwants : task.wantsChunk = false) :
    ((task.step b myTurn).leaves b).handoff = b.handoff := by
  cases task with
  | write w =>
    cases hvoid : w.isVoid with
    | true => simp [step, hvoid, Step.leaves]
    | false =>
      cases myTurn with
      | false => simp [step, hvoid, Step.leaves]
      | true =>
        simp only [step, hvoid, Bool.false_eq_true, if_false, if_true, Step.leaves_ofWriter]
        exact (b.sameFront_begin hvoid).handoff
  | draining =>
    cases hoffer : b.canOffer with
    | false => simp [step, hoffer, Step.leaves]
    | true =>
      simp only [step, hoffer, if_true, Step.leaves_ofWriter]
      refine b.offer_elim (P := fun b' => b'.handoff = b.handoff) hoffer ?_ fun _ _ _ => rfl
      intro _ _ hopen _
      exact absurd (hclosed.symm.trans hopen) (by simp)
  | read => cases hwants
  | gather least got =>
    have henough : least ≤ got.length := by simpa [wantsChunk] using hwants
    simp only [step, henough, if_true, Step.leaves]

theorem collects_moved {b' : Buffer} {rest : Task} (h : task.step b myTurn = .moved rest b') :
    rest.collects = task.collects := by
  rcases moved_cases h with ⟨rfl, hblocks⟩ | ⟨least, got, chunk, rfl, rfl⟩
  · cases task with
    | write w => rfl
    | draining => rfl
    | read => rfl
    | gather least got => cases hblocks
  · rfl

end Task

namespace History

theorem buffer_resume (h : History) (before after : List (Nat × Task)) (number : Nat)
    (task : Task) (step : Task.Step) :
    (h.resume before after number task step).buffer = step.leaves h.buffer := by
  cases step <;> rfl

/-! ## Readings -/

/-- The reading that an occurrence makes, with the number of the call that makes it. -/
def reading (h : History) : Occurrence → List (Nat × Answer)
  | .start _ _ => []
  | .close => []
  | .move place =>
    match h.session.pending[place]? with
    | none => []
    | some (number, task) =>
      if task.wantsChunk then
        match h.buffer.take with
        | .chunk chunk _ => [(number, .bytes chunk)]
        | .nothing => []
        | .closed => [(number, .closed)]
      else []

def readings (h : History) : List Occurrence → List (Nat × Answer)
  | [] => []
  | o :: schedule => h.reading o ++ (h.happen o).readings schedule

/-- An occurrence on a closed buffer makes no reading and leaves the hand-off as it is, or it
reads the oldest chunk, or it reads that there is none. -/
theorem reading_cases {h : History} (hclosed : h.buffer.isClosed = true) (o : Occurrence) :
    (h.reading o = [] ∧ (h.happen o).buffer.handoff = h.buffer.handoff) ∨
      (∃ number chunk rest, h.reading o = [(number, .bytes chunk)] ∧
        h.buffer.handoff.items = chunk :: rest ∧
        (h.happen o).buffer.handoff = { h.buffer.handoff with items := rest }) ∨
      ∃ number, h.reading o = [(number, .closed)] ∧ h.buffer.handoff.items = [] ∧
        (h.happen o).buffer.handoff = h.buffer.handoff := by
  cases o with
  | start number call => exact Or.inl ⟨rfl, rfl⟩
  | close =>
    refine Or.inl ⟨rfl, ?_⟩
    show { h.buffer.handoff with isClosed := true } = h.buffer.handoff
    rw [← (show h.buffer.handoff.isClosed = true from hclosed)]
  | move place =>
    cases hplace : h.session.pending[place]? with
    | none => exact Or.inl ⟨by simp only [reading, hplace], by simp only [happen, hplace]⟩
    | some p =>
      obtain ⟨number, task⟩ := p
      simp only [reading, happen, hplace, buffer_resume]
      cases hwants : task.wantsChunk with
      | false => exact Or.inl ⟨rfl, Task.handoff_step_of_closed hclosed hwants⟩
      | true =>
        rcases h.buffer.take_cases with ⟨chunk, rest, hitems, htake⟩ | ⟨-, hopen, -⟩ |
          ⟨hitems, -, htake⟩
        · refine Or.inr (Or.inl ⟨number, chunk, rest, ?_, hitems, ?_⟩)
          · simp only [htake, if_true]
          · rw [Task.leaves_step_of_items hwants htake]
            rfl
        · exact absurd (hclosed.symm.trans hopen) (by simp)
        · refine Or.inr (Or.inr ⟨number, ?_, hitems, ?_⟩)
          · simp only [htake, if_true]
          · rw [Task.leaves_step_of_closed hwants htake]

theorem isClosed_happen {h : History} (hclosed : h.buffer.isClosed = true) (o : Occurrence) :
    (h.happen o).buffer.isClosed = true := by
  rcases reading_cases hclosed o with ⟨-, hsame⟩ | ⟨_, _, _, -, -, hrest⟩ | ⟨_, -, -, hsame⟩
  · exact (congrArg Channel.isClosed hsame).trans hclosed
  · exact (congrArg Channel.isClosed hrest).trans hclosed
  · exact (congrArg Channel.isClosed hsame).trans hclosed

theorem isClosed_run {h : History} (hclosed : h.buffer.isClosed = true)
    (schedule : List Occurrence) : (h.run schedule).buffer.isClosed = true := by
  induction schedule generalizing h with
  | nil => exact hclosed
  | cons o schedule ih => exact ih (isClosed_happen hclosed o)

/-- The readings of a closed buffer are the chunks in its hand-off, and then nothing but the word
that it is closed.  What they have not reached is still in the hand-off. -/
theorem readings_of_closed {h : History} (hclosed : h.buffer.isClosed = true)
    (schedule : List Occurrence) :
    (h.readings schedule).map Prod.snd =
        readingsOf h.buffer.handoff.items (h.readings schedule).length ∧
      (h.run schedule).buffer.handoff.items =
        h.buffer.handoff.items.drop (h.readings schedule).length := by
  induction schedule generalizing h with
  | nil => exact ⟨rfl, rfl⟩
  | cons o schedule ih =>
    obtain ⟨hreadings, hleft⟩ := ih (isClosed_happen hclosed o)
    rw [run_cons, readings]
    rcases reading_cases hclosed o with ⟨hnone, hsame⟩ |
      ⟨number, chunk, rest, hread, hitems, hrest⟩ | ⟨number, hread, hitems, hsame⟩
    · rw [hnone, List.nil_append, ← hsame]
      exact ⟨hreadings, hleft⟩
    · rw [hrest] at hreadings hleft
      rw [hread, hitems, List.singleton_append, List.map_cons, List.length_cons, readingsOf_cons,
        hreadings, hleft]
      exact ⟨rfl, rfl⟩
    · rw [hsame, hitems, readingsOf_nil] at hreadings
      rw [hsame, hitems, List.drop_nil] at hleft
      rw [hread, hitems, List.singleton_append, List.map_cons, List.length_cons, readingsOf_nil,
        List.replicate_succ, List.drop_nil, hreadings]
      exact ⟨rfl, hleft⟩

/-! ## Readings and answers -/

theorem answers_happen_read {h : History} {place number : Nat}
    (hplace : h.session.pending[place]? = some (number, .read)) :
    (h.happen (.move place)).answers = h.answers ++ h.reading (.move place) := by
  simp only [happen, reading, hplace, Task.wantsChunk, if_true, Task.step]
  cases h.buffer.take with
  | chunk chunk rest => rfl
  | nothing => simp [resume]
  | closed => rfl

/-- What becomes of a call that has collected `got` and looks for more: its reading is a chunk
and is added to what it has, or its reading is that the buffer is closed and it is answered by
what it has, if it has anything. -/
inductive Collected (h : History) (place number least : Nat) (got : Bytes) : Prop
  | more (chunk : Bytes) : h.reading (.move place) = [(number, .bytes chunk)] →
      (h.happen (.move place)).session.pending =
        h.session.pending.set place (number, .gather least (got ++ chunk)) →
      Collected h place number least got
  | ended : h.reading (.move place) = [(number, .closed)] →
      (h.happen (.move place)).answers =
        h.answers ++ [(number, if got.isEmpty then .closed else .bytes got)] →
      Collected h place number least got

theorem collected_of_closed {h : History} (hclosed : h.buffer.isClosed = true)
    {place number least : Nat} {got : Bytes}
    (hplace : h.session.pending[place]? = some (number, .gather least got))
    (hmore : got.length < least) : h.Collected place number least got := by
  have hlacks : ¬least ≤ got.length := Nat.not_le_of_lt hmore
  have hinside : place < h.session.pending.length := (List.getElem?_eq_some_iff.1 hplace).1
  rcases h.buffer.take_cases with ⟨chunk, rest, hitems, htake⟩ | ⟨-, hopen, -⟩ | ⟨hitems, -, htake⟩
  · refine .more chunk ?_ ?_
    · simp [reading, hplace, Task.wantsChunk, hmore, htake]
    · simp only [happen, hplace, Task.step, hlacks, if_false, htake, resume, List.append_assoc,
        List.singleton_append]
      exact (List.set_eq_take_append_cons_drop ..).symm ▸ by simp [hinside]
  · exact absurd (hclosed.symm.trans hopen) (by simp)
  · refine .ended ?_ ?_
    · simp [reading, hplace, Task.wantsChunk, hmore, htake]
    · simp only [happen, hplace, Task.step, hlacks, if_false, htake, resume]

def readerAnswers (h : History) : List (Nat × Answer) := h.answers.filter fun a => a.2.isReading

theorem readerAnswers_resume_ofWriter (h : History) (before after : List (Nat × Task))
    (number : Nat) (task : Task) (b : Buffer) :
    (h.resume before after number task (.ofWriter b)).readerAnswers = h.readerAnswers := by
  unfold Task.Step.ofWriter
  split
  · rfl
  · simp [resume, readerAnswers, Answer.isReading]

/-- Where no call collects chunks, what readers are told are the readings. -/
theorem readerAnswers_happen {h : History} (hnone : ∀ p ∈ h.session.pending, p.2.collects = false)
    (o : Occurrence) :
    (h.happen o).readerAnswers = h.readerAnswers ++ h.reading o := by
  cases o with
  | start number call => exact (List.append_nil _).symm
  | close => exact (List.append_nil _).symm
  | move place =>
    cases hplace : h.session.pending[place]? with
    | none => simp [happen, reading, hplace]
    | some p =>
      obtain ⟨number, task⟩ := p
      have hmem : (number, task) ∈ h.session.pending := List.mem_of_getElem? hplace
      have hquiet : task.wantsChunk = false → h.reading (.move place) = [] := by
        intro hwants
        simp [reading, hplace, hwants]
      cases task with
      | write w =>
        rw [hquiet rfl, List.append_nil]
        simp only [happen, hplace, Task.step]
        split
        · simp [resume, readerAnswers, Answer.isReading]
        · split
          · exact readerAnswers_resume_ofWriter ..
          · rfl
      | draining =>
        rw [hquiet rfl, List.append_nil]
        simp only [happen, hplace, Task.step]
        split
        · exact readerAnswers_resume_ofWriter ..
        · rfl
      | read =>
        have hreading : ∀ a ∈ h.reading (.move place), a.2.isReading = true := by
          intro a ha
          simp only [reading, hplace, Task.wantsChunk, if_true] at ha
          split at ha
          · exact List.mem_singleton.1 ha ▸ rfl
          · cases ha
          · exact List.mem_singleton.1 ha ▸ rfl
        rw [readerAnswers, answers_happen_read hplace, List.filter_append,
          List.filter_eq_self.2 hreading]
        rfl
      | gather least got => exact absurd (hnone _ hmem) (by simp [Task.collects])

theorem collects_happen {h : History} (hnone : ∀ p ∈ h.session.pending, p.2.collects = false)
    {o : Occurrence} (ho : ∀ c ∈ startedCalls [o], c.2.task.collects = false) :
    ∀ p ∈ (h.happen o).session.pending, p.2.collects = false := by
  cases o with
  | start number call =>
    intro p hp
    rcases List.mem_append.1 hp with hp | hp
    · exact hnone p hp
    · rw [List.mem_singleton.1 hp]
      exact ho (number, call) List.mem_cons_self
  | close => exact hnone
  | move place =>
    rcases h.happen_move_cases place with hstay | ⟨before, number, task, after, hpending, hmove⟩
    · rw [hstay]
      exact hnone
    · rw [hmove]
      rw [hpending] at hnone
      cases hstep : task.step h.buffer (before.all fun p => !p.2.blocksWriters) with
      | stuck => simpa only [resume, hpending] using hnone
      | finished answer b =>
        intro p hp
        simp only [resume, List.append_nil, List.mem_append] at hp
        refine hnone p (List.mem_append.2 ?_)
        exact hp.imp_right (List.mem_cons_of_mem _)
      | moved rest b =>
        intro p hp
        simp only [resume, List.mem_append, List.mem_singleton] at hp
        rcases hp with (hp | rfl) | hp
        · exact hnone p (List.mem_append_left _ hp)
        · exact (Task.collects_moved hstep).trans (hnone _ List.mem_append_cons_self)
        · exact hnone p (List.mem_append_right _ (List.mem_cons_of_mem _ hp))

theorem readerAnswers_run {h : History} (hnone : ∀ p ∈ h.session.pending, p.2.collects = false)
    {schedule : List Occurrence}
    (hstarted : ∀ c ∈ startedCalls schedule, c.2.task.collects = false) :
    (h.run schedule).readerAnswers = h.readerAnswers ++ h.readings schedule := by
  induction schedule generalizing h with
  | nil => exact (List.append_nil _).symm
  | cons o schedule ih =>
    rw [startedCalls_cons] at hstarted
    have hnext := collects_happen hnone fun c hc => hstarted c (List.mem_append_left _ hc)
    rw [run_cons, ih hnext fun c hc => hstarted c (List.mem_append_right _ hc),
      readerAnswers_happen hnone, List.append_assoc]
    rfl

end History

/-! ## Drains of a closed buffer -/

namespace Change

variable {closing : Prop} {b b' : Buffer} {r r' : Record}

/-- A closed hand-off accepts nothing. -/
theorem delivered_of_closed (hchange : Change closing b r b' r')
    (hclosed : b.isClosed = true) :
    b'.isClosed = true ∧ b'.delivered = b.delivered ∧ r'.handed = r.handed := by
  cases hchange with
  | begun w _ hw =>
    have hfront := b.sameFront_begin hw
    exact ⟨hfront.isClosed.trans hclosed, hfront.delivered, rfl⟩
  | handed chunk _ hopen _ => exact absurd (hclosed.symm.trans hopen) (by simp)
  | lost chunk _ _ => exact ⟨hclosed, rfl, rfl⟩
  | taken chunk rest _ => exact ⟨hclosed, rfl, rfl⟩
  | closed _ => exact ⟨rfl, rfl, rfl⟩

/-- On a closed buffer a chunk stays on offer until it is lost, and no other one is lost before. -/
theorem caught_of_closed (hchange : Change closing b r b' r') (hclosed : b.isClosed = true)
    {chunk : Bytes} {lost : List Bytes}
    (hcaught : b.sending = some chunk ∧ r.lost = lost ∨ lost ++ [chunk] <+: r.lost) :
    b'.sending = some chunk ∧ r'.lost = lost ∨ lost ++ [chunk] <+: r'.lost := by
  rcases hcaught with ⟨hsending, hlost⟩ | hlost
  · cases hchange with
    | begun w hnone _ => exact absurd (hsending.symm.trans hnone) (by simp)
    | handed other _ hopen _ => exact absurd (hclosed.symm.trans hopen) (by simp)
    | lost other hother _ =>
      obtain rfl := Option.some.inj (hother.symm.trans hsending)
      subst hlost
      exact Or.inr (List.prefix_refl _)
    | taken other rest _ => exact Or.inl ⟨hsending, hlost⟩
    | closed _ => exact Or.inl ⟨hsending, hlost⟩
  · right
    cases hchange with
    | begun w _ _ => exact hlost
    | handed other _ _ _ => exact hlost
    | lost other _ _ => exact hlost.trans (List.prefix_append _ _)
    | taken other rest _ => exact hlost
    | closed _ => exact hlost

end Change

namespace History

theorem sending_of_draining {h : History} {waiting : List Write} (hturn : InTurn h.session waiting)
    {number : Nat} (hmem : (number, Task.draining) ∈ h.session.pending) :
    ∃ chunk, h.buffer.sending = some chunk := by
  have hwriter : Task.draining ∈ writersAmong h.session.pending :=
    List.mem_filter.2 ⟨List.mem_map.2 ⟨_, hmem, rfl⟩, rfl⟩
  rw [hturn.writers] at hwriter
  cases hsending : h.buffer.sending with
  | some chunk => exact ⟨chunk, rfl⟩
  | none =>
    have hnone : h.session.buffer.sending = none := hsending
    simp [hnone] at hwriter

/-- On a closed buffer a writer in the middle of its drain loses its chunk, and its call ends. -/
theorem happen_draining_of_closed {h : History} {waiting : List Write}
    (hturn : InTurn h.session waiting) (hclosed : h.buffer.isClosed = true) {place number : Nat}
    (hplace : h.session.pending[place]? = some (number, .draining)) :
    ∃ chunk, h.buffer.sending = some chunk ∧
      h.happen (.move place) =
        ⟨⟨h.buffer.lost chunk, h.session.pending.eraseIdx place⟩,
          { h.record with lost := h.record.lost ++ [chunk] }, h.answers ++ [(number, .done)]⟩ := by
  obtain ⟨chunk, hsending⟩ := sending_of_draining hturn (List.mem_of_getElem? hplace)
  have hoffer := h.buffer.canOffer_iff.2 ⟨⟨chunk, hsending⟩, Or.inl hclosed⟩
  refine ⟨chunk, hsending, ?_⟩
  have hstep : Task.Step.ofWriter (h.buffer.lost chunk) = .finished .done (h.buffer.lost chunk) :=
    rfl
  have hnote := h.record.note_lost number hsending hclosed
  rw [hstep] at hnote
  simp only [happen, hplace, Task.step, hoffer, if_true, h.buffer.offer_of_closed hsending hclosed,
    hstep, resume, List.append_nil, List.eraseIdx_eq_take_drop_succ, ← hnote]

/-- The readings after a close at the moment `h`, when a schedule has led from there to `later`. -/
structure ReadsFixed (h : History) (schedule : List Occurrence) (later : History) : Prop where
  /-- They are the chunks that the close has found, and then the word that it is closed. -/
  inOrder : ((h.happen .close).readings schedule).map Prod.snd =
    readingsOf h.buffer.handoff.items ((h.happen .close).readings schedule).length
  /-- What they have not reached is left. -/
  left : later.buffer.handoff.items =
    h.buffer.handoff.items.drop ((h.happen .close).readings schedule).length
  /-- Nobody waits for a reading. -/
  prompt : ∀ p ∈ later.session.pending, p.2.wantsChunk = true →
    ∀ myTurn, p.2.step later.buffer myTurn ≠ .stuck
  /-- A call to read is answered by its reading. -/
  answered : ∀ place number, later.session.pending[place]? = some (number, .read) →
    (later.happen (.move place)).answers = later.answers ++ later.reading (.move place)
  /-- A call that collects chunks adds its reading, or ends when it reads of the close. -/
  collected : ∀ place number least got,
    later.session.pending[place]? = some (number, .gather least got) → got.length < least →
      later.Collected place number least got
  /-- Where no call collects chunks, the answers that readers get are the readings. -/
  told : (∀ p ∈ h.session.pending, p.2.collects = false) →
    (∀ c ∈ startedCalls schedule, c.2.task.collects = false) →
      later.readerAnswers = h.readerAnswers ++ (h.happen .close).readings schedule

/-- The drains after a close at the moment `h`, at some moment `later`. -/
structure DrainsEnd (h later : History) : Prop where
  /-- No byte more is delivered. -/
  delivered : later.buffer.delivered = h.buffer.delivered
  /-- No chunk more goes into the hand-off. -/
  handed : later.record.handed = h.record.handed
  /-- The chunk on offer at the close is still on offer, or it is the first that is lost. -/
  caught : ∀ chunk, h.buffer.sending = some chunk →
    (later.buffer.sending = some chunk ∧ later.record.lost = h.record.lost) ∨
      h.record.lost ++ [chunk] <+: later.record.lost
  /-- The call of a drain ends with its next move.  It has lost its chunk then, which is no more
  counted as available. -/
  ends : ∀ place number, later.session.pending[place]? = some (number, .draining) →
    ∃ chunk, later.buffer.sending = some chunk ∧ chunk.length ≤ later.buffer.available ∧
      later.happen (.move place) =
        ⟨⟨later.buffer.lost chunk, later.session.pending.eraseIdx place⟩,
          { later.record with lost := later.record.lost ++ [chunk] },
          later.answers ++ [(number, .done)]⟩

theorem readsFixed (h : History) (schedule : List Occurrence) :
    h.ReadsFixed schedule ((h.happen .close).run schedule) := by
  have hclosed : (h.happen .close).buffer.isClosed = true := rfl
  have hlater := isClosed_run hclosed schedule
  obtain ⟨hreadings, hleft⟩ := readings_of_closed hclosed schedule
  refine ⟨hreadings, hleft, ?_, ?_, ?_, ?_⟩
  · intro p _ hwants myTurn hstuck
    have hopen := ((Task.step_eq_stuck_iff hwants).1 hstuck).1
    exact absurd (hlater.symm.trans hopen) (by simp)
  · intro place number hplace
    exact answers_happen_read hplace
  · intro place number least got hplace hmore
    exact collected_of_closed hlater hplace hmore
  · intro hnone hstarted
    exact readerAnswers_run (h := h.happen .close) hnone hstarted

theorem drainsEnd {b : Buffer} (hsending : b.sending = none) (haccounts : Accounts b {})
    (before schedule : List Occurrence) :
    ((ofBuffer b).run before).DrainsEnd
      ((((ofBuffer b).run before).happen .close).run schedule) := by
  generalize hh : (ofBuffer b).run before = h
  have hclose : (ofBuffer b).run (before ++ [.close]) = h.happen .close := by rw [run_snoc, hh]
  have hlater : (ofBuffer b).run (before ++ .close :: schedule) =
      (h.happen .close).run schedule := by rw [run_append, hh, run_cons]
  have hkept := run_keeps_from hsending (before ++ [.close]) schedule
    (P := fun b r => b.isClosed = true ∧ b.delivered = h.buffer.delivered ∧
      r.handed = h.record.handed)
  rw [hclose] at hkept
  obtain ⟨hclosed, hdelivered, hhanded⟩ := hkept ⟨rfl, rfl, rfl⟩ fun ⟨hc, hd, hr⟩ hchange => by
    obtain ⟨hc', hd', hr'⟩ := hchange.delivered_of_closed hc
    exact ⟨hc', hd'.trans hd, hr'.trans hr⟩
  refine ⟨hdelivered, hhanded, ?_, ?_⟩
  · intro chunk hchunk
    have hcaught := run_keeps_from hsending (before ++ [.close]) schedule
      (P := fun b r => b.isClosed = true ∧
        (b.sending = some chunk ∧ r.lost = h.record.lost ∨ h.record.lost ++ [chunk] <+: r.lost))
    rw [hclose] at hcaught
    refine (hcaught ⟨rfl, Or.inl ⟨hchunk, rfl⟩⟩ fun ⟨hc, hold⟩ hchange => ?_).2
    exact ⟨(hchange.delivered_of_closed hc).1, hchange.caught_of_closed hc hold⟩
  · intro place number hplace
    obtain ⟨waiting, hturn, -⟩ := inTurn_run hsending (before ++ .close :: schedule)
    have hright := accounts_run hsending haccounts (before ++ .close :: schedule)
    rw [hlater] at hturn hright
    obtain ⟨chunk, hchunk, hmove⟩ := happen_draining_of_closed hturn hclosed hplace
    have havailable := hright.available
    simp only [hchunk, Option.toList_some, total_cons, total_nil] at havailable
    exact ⟨chunk, hchunk, by omega, hmove⟩

/-- Whatever was called on a buffer before it is closed, and whatever is called on it later: the
readings after the close are the chunks that were in the hand-off, in their order, and then
nothing but the word that the buffer is closed, and nobody waits for them.  Nothing more is
delivered, and each drain that finds the buffer closed loses the one chunk that it has on offer
and ends. -/
theorem close_fixes_reads (s : Seq) (window : UInt32) (capacity : Nat)
    (before schedule : List Occurrence) :
    let h := (ofBuffer (.startingAt s window capacity)).run before
    let later := (h.happen .close).run schedule
    h.ReadsFixed schedule later ∧ h.DrainsEnd later :=
  ⟨readsFixed _ schedule, drainsEnd rfl (.startingAt s window capacity) before schedule⟩

/-- Two readers come after the close, and the drain that it has caught makes its last move. -/
def lateReaders : List Occurrence := [.start 4 .read, .move 3, .start 5 .read, .move 3, .move 0]

theorem close_fixes_reads_crowded :
    let h := (ofBuffer (.startingAt 4294967294 10 1)).run crowded
    let later := (h.happen .close).run lateReaders
    h.buffer.handoff.items = [[1, 2]] ∧ h.buffer.sending = some [3] ∧
      (h.happen .close).readings lateReaders = [(4, .bytes [1, 2]), (5, .closed)] ∧
      later.readerAnswers = h.readerAnswers ++ [(4, .bytes [1, 2]), (5, .closed)] ∧
      later.record.lost = [[3]] := by
  intro h later
  obtain ⟨hreads, -⟩ := close_fixes_reads 4294967294 10 1 crowded lateReaders
  have hreadings : (h.happen .close).readings lateReaders =
      [(4, .bytes [1, 2]), (5, .closed)] := by decide
  have htold := hreads.told (by decide) (by decide)
  exact ⟨by decide, by decide, hreadings, htold.trans (congrArg _ hreadings), by decide⟩

end History

end StreamTap
