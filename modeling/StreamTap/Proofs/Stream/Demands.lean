import StreamTap.Proofs.Stream.AfterClose
import StreamTap.Proofs.Stream.Conservation
import StreamTap.Proofs.Stream.Rebase

/-!
# What a single reader gets

A call to read at least so many bytes takes whole chunks, one after another, until they hold as
many.  In between it may have to wait, writers put new chunks into the hand-off, and the buffer
may be closed.  None of this shows in what it gets: where no other call reads, it gets the
shortest sufficient prefix of the chunks that were in the hand-off when it came and were put
there since, or all of them when the buffer is closed before there are enough (`demands_met`).

Nothing is lost between the calls.  What the calls of a single reader were given, followed by what
its unfinished call has taken and by what is in the hand-off, is all that was ever handed over.

Everything rests on one fact about the readers of a history (`readers_happen`).  An occurrence that
starts no reader leaves them as they are, or it is the move of one of them.
-/

namespace StreamTap

def Task.reads : Task → Bool
  | .write _ => false
  | .draining => false
  | .read => true
  | .gather _ _ => true

theorem Task.step_of_writer {b : Buffer} {task : Task} (h : task.reads = false) (myTurn : Bool) :
    task.step b myTurn = .stuck ∨ (∃ b', task.step b myTurn = .finished .done b') ∨
      ∃ b', task.step b myTurn = .moved .draining b' := by
  have hwriter : ∀ a : Buffer, Step.ofWriter a = .finished .done a ∨
      Step.ofWriter a = .moved .draining a := by
    intro a
    unfold Step.ofWriter
    split
    · exact Or.inr rfl
    · exact Or.inl rfl
  cases task with
  | write w =>
    simp only [step]
    split
    · exact Or.inr (Or.inl ⟨b, rfl⟩)
    · split
      · exact Or.inr ((hwriter _).imp (fun h => ⟨_, h⟩) fun h => ⟨_, h⟩)
      · exact Or.inl rfl
  | draining =>
    simp only [step]
    split
    · exact Or.inr ((hwriter _).imp (fun h => ⟨_, h⟩) fun h => ⟨_, h⟩)
    · exact Or.inl rfl
  | read => cases h
  | gather least got => cases h

theorem Task.received_of_writer {task : Task} (h : task.reads = false) (step : Step) :
    task.received step = [] := by
  cases task with
  | write w => rfl
  | draining => rfl
  | read => cases h
  | gather least got => cases h

theorem Task.gather_moved {b b' : Buffer} {myTurn : Bool} {least : Nat} {got : Bytes} {rest : Task}
    (h : (Task.gather least got).step b myTurn = .moved rest b') :
    ∃ chunk items, b.handoff.items = chunk :: items ∧ rest = .gather least (got ++ chunk) ∧
      b' = b.taken chunk items := by
  simp only [step] at h
  split at h
  · cases h
  · rcases b.take_cases with ⟨chunk, items, hitems, htake⟩ | ⟨-, -, htake⟩ | ⟨-, -, htake⟩
    · rw [htake] at h
      cases h
      exact ⟨chunk, items, hitems, rfl, rfl⟩
    · rw [htake] at h
      cases h
    · rw [htake] at h
      cases h

theorem Task.step_of_reader (b : Buffer) {task : Task} (h : task.reads = true) (myTurn : Bool) :
    match task.step b myTurn with
    | .stuck => True
    | .moved rest _ => rest.reads = true
    | .finished answer _ => answer.isReading = true := by
  cases task with
  | write w => cases h
  | draining => cases h
  | read => cases htake : b.take <;> simp [step, htake, Answer.isReading]
  | gather least got =>
    by_cases henough : least ≤ got.length
    · simp [step, henough, Answer.isReading]
    · cases htake : b.take with
      | chunk chunk rest => simp [step, henough, htake, reads]
      | nothing => simp [step, henough, htake]
      | closed =>
        simp only [step, henough, if_false, htake]
        split <;> rfl

def Occurrence.startsReader : Occurrence → Bool
  | .start _ call => call.task.reads
  | .close => false
  | .move _ => false

/-- The readers among unfinished calls. -/
def readersAmong (pending : List (Nat × Task)) : List (Nat × Task) :=
  pending.filter fun p => p.2.reads

@[simp] theorem readersAmong_nil : readersAmong [] = [] := rfl

@[simp] theorem readersAmong_append (l l' : List (Nat × Task)) :
    readersAmong (l ++ l') = readersAmong l ++ readersAmong l' := List.filter_append ..

theorem readersAmong_cons (p : Nat × Task) (l : List (Nat × Task)) :
    readersAmong (p :: l) = readersAmong [p] ++ readersAmong l := readersAmong_append [p] l

theorem readersAmong_reader {number : Nat} {task : Task} (h : task.reads = true) :
    readersAmong [(number, task)] = [(number, task)] := by simp [readersAmong, h]

theorem readersAmong_writer {number : Nat} {task : Task} (h : task.reads = false) :
    readersAmong [(number, task)] = [] := by simp [readersAmong, h]

namespace History

def readers (h : History) : List (Nat × Task) := readersAmong h.session.pending

/-- Two moments between which nothing has happened to the readers. -/
structure SameReaders (h h' : History) : Prop where
  readers : h'.readers = h.readers
  answers : h'.readerAnswers = h.readerAnswers
  taken : h'.record.taken = h.record.taken

theorem SameReaders.refl (h : History) : SameReaders h h := ⟨rfl, rfl, rfl⟩

/-! ## One occurrence -/

section Occurrence

variable {h : History} {before after : List (Nat × Task)} {number : Nat} {task : Task}

theorem sameReaders_of_writer (htask : task.reads = false)
    (hpending : h.session.pending = before ++ (number, task) :: after) (myTurn : Bool) :
    SameReaders h (h.resume before after number task
      (task.step h.buffer myTurn)) := by
  have hreaders : h.readers = readersAmong before ++ readersAmong after := by
    rw [readers, hpending, readersAmong_append, readersAmong_cons, readersAmong_writer htask,
      List.nil_append]
  have htaken : ∀ step, (h.record.note h.buffer number task step).taken = h.record.taken := by
    intro step
    rw [Record.taken_note, Task.received_of_writer htask, List.append_nil]
  rcases Task.step_of_writer (b := h.buffer) htask myTurn with hstuck | ⟨b, hdone⟩ | ⟨b, hmoved⟩
  · rw [hstuck]
    exact .refl h
  · rw [hdone]
    refine ⟨?_, by simp [resume, readerAnswers, Answer.isReading], htaken _⟩
    rw [hreaders, resume, readers, List.append_nil, readersAmong_append]
  · rw [hmoved]
    have hdraining : readersAmong [(number, Task.draining)] = [] := readersAmong_writer rfl
    refine ⟨?_, rfl, htaken _⟩
    rw [hreaders, resume, readers, readersAmong_append, readersAmong_append, hdraining,
      List.append_nil]

/-- What starts no reader leaves the readers as they are, or it is the move of one of them. -/
theorem readers_happen (h : History) {o : Occurrence} (ho : o.startsReader = false) :
    SameReaders h (h.happen o) ∨
      ∃ before number task after myTurn, task.reads = true ∧
        h.session.pending = before ++ (number, task) :: after ∧
        h.happen o = h.resume before after number task
          (task.step h.buffer myTurn) := by
  cases o with
  | close => exact Or.inl ⟨rfl, rfl, rfl⟩
  | start number call =>
    refine Or.inl ⟨?_, rfl, rfl⟩
    have htask : call.task.reads = false := ho
    simp only [readers, happen, readersAmong_append, readersAmong_writer htask, List.append_nil]
  | move place =>
    rcases h.happen_move_cases place with hstay | ⟨before, number, task, after, hpending, hmove⟩
    · rw [hstay]
      exact Or.inl (.refl h)
    · rw [hmove]
      cases htask : task.reads with
      | false => exact Or.inl (sameReaders_of_writer htask hpending _)
      | true => exact Or.inr ⟨before, number, task, after, _, htask, hpending, rfl⟩

theorem sameReaders_of_none (hnone : h.readers = []) {o : Occurrence}
    (ho : o.startsReader = false) : SameReaders h (h.happen o) := by
  rcases h.readers_happen ho with hsame | ⟨before, number, task, after, _, htask, hpending, -⟩
  · exact hsame
  · rw [readers, hpending, readersAmong_append, readersAmong_cons,
      readersAmong_reader htask] at hnone
    simp at hnone

theorem move_of_sole (hsole : h.readers = [(number, task)]) {o : Occurrence}
    (ho : o.startsReader = false) :
    SameReaders h (h.happen o) ∨
      ∃ before after myTurn, readersAmong before = [] ∧ readersAmong after = [] ∧
        h.happen o = h.resume before after number task (task.step h.buffer myTurn) := by
  rcases h.readers_happen ho with
    hsame | ⟨before, number', task', after, myTurn, htask, hpending, hmove⟩
  · exact Or.inl hsame
  · rw [readers, hpending, readersAmong_append, readersAmong_cons, readersAmong_reader htask,
      List.append_eq_singleton_iff] at hsole
    rcases hsole with ⟨hbefore, hsole⟩ | ⟨-, hsole⟩
    · rw [List.singleton_append, List.cons.injEq] at hsole
      obtain ⟨heq, hafter⟩ := hsole
      cases heq
      exact Or.inr ⟨before, after, myTurn, hbefore, hafter, hmove⟩
    · cases hsole

end Occurrence

end History

/-! ## The shortest sufficient prefix -/

/-- The first of the chunks that hold `least` bytes, and no more of them than it takes. -/
structure Shortest (least : Nat) (chunks first : List Bytes) : Prop where
  comesFirst : first <+: chunks
  enough : least ≤ total List.length first
  needed : ∀ fewer, fewer <+: chunks → least ≤ total List.length fewer →
    first.length ≤ fewer.length

/-- Chunks of which one less would not be enough. -/
def NoneSpare (least : Nat) (chunks : List Bytes) : Prop :=
  ∀ fewer, fewer <+: chunks → fewer ≠ chunks → total List.length fewer < least

theorem NoneSpare.nil (least : Nat) : NoneSpare least [] := by
  intro fewer hfewer hne
  exact absurd (List.prefix_nil.1 hfewer) hne

theorem NoneSpare.concat {least : Nat} {chunks : List Bytes} (h : NoneSpare least chunks)
    (hless : total List.length chunks < least) (chunk : Bytes) :
    NoneSpare least (chunks ++ [chunk]) := by
  intro fewer hfewer hne
  have hfewer' := (List.prefix_concat_iff.1 hfewer).resolve_left hne
  by_cases hall : fewer = chunks
  · rw [hall]
    exact hless
  · exact h fewer hfewer' hall

theorem NoneSpare.shortest {least : Nat} {chunks : List Bytes} (h : NoneSpare least chunks)
    (henough : least ≤ total List.length chunks) (others : List Bytes) :
    Shortest least (chunks ++ others) chunks where
  comesFirst := List.prefix_append ..
  enough := henough
  needed := by
    intro fewer hfewer hsuffices
    apply Nat.le_of_not_lt
    intro hlt
    have hinside : fewer <+: chunks :=
      List.prefix_of_prefix_length_le hfewer (List.prefix_append ..) (Nat.le_of_lt hlt)
    have hshort := h fewer hinside (by rintro rfl; exact Nat.lt_irrefl _ hlt)
    omega

namespace History

/-! ## One demand -/

/-- What becomes of the demand of a single reader that was made under a number at the moment `h`,
when it has taken some chunks since. -/
inductive Demand (h : History) (number least : Nat) (taken : List Bytes) (later : History) : Prop
  /-- It needs more. -/
  | waits : later.readers = [(number, .gather least taken.flatten)] →
      later.readerAnswers = h.readerAnswers → NoneSpare least taken →
      Demand h number least taken later
  /-- It has got enough. -/
  | enough : later.readers = [] →
      later.readerAnswers = h.readerAnswers ++ [(number, .bytes taken.flatten)] →
      NoneSpare least taken → least ≤ total List.length taken →
      Demand h number least taken later
  /-- The buffer was closed before. -/
  | ended : later.readers = [] →
      later.readerAnswers =
        h.readerAnswers ++ [(number, if taken = [] then .closed else .bytes taken.flatten)] →
      total List.length taken < least → later.buffer.isClosed = true →
      later.record.handed = later.record.taken → Demand h number least taken later

/-- A demand that has come to something after a number of chunks. -/
def Demanded (h : History) (number least : Nat) (later : History) : Prop :=
  ∃ taken, later.record.taken = h.record.taken ++ taken ∧ Demand h number least taken later

section Demand

variable {h later : History} {number least : Nat} {taken : List Bytes}

theorem Demand.same (hdemand : Demand h number least taken later) {next : History}
    (hsame : SameReaders later next)
    (hclosed : later.buffer.isClosed = true → later.record.handed = later.record.taken →
      next.buffer.isClosed = true ∧ next.record.handed = next.record.taken) :
    Demand h number least taken next := by
  cases hdemand with
  | waits hreaders hanswers hspare =>
    exact .waits (hsame.readers.trans hreaders) (hsame.answers.trans hanswers) hspare
  | enough hreaders hanswers hspare henough =>
    exact .enough (hsame.readers.trans hreaders) (hsame.answers.trans hanswers) hspare henough
  | ended hreaders hanswers hless hend hall =>
    obtain ⟨hend', hall'⟩ := hclosed hend hall
    exact .ended (hsame.readers.trans hreaders) (hsame.answers.trans hanswers) hless hend' hall'

/-- The reader moves: it has enough, or takes a chunk, or learns that there will be no more. -/
theorem demanded_move (hanswers : later.readerAnswers = h.readerAnswers)
    (hspare : NoneSpare least taken) (htaken : later.record.taken = h.record.taken ++ taken)
    (hreader : later.readers = [(number, .gather least taken.flatten)])
    (hqueue : later.record.handed = later.record.taken ++ later.buffer.handoff.items)
    (hsolid : ∀ chunk ∈ later.record.handed, chunk ≠ []) {before after : List (Nat × Task)}
    (hbefore : readersAmong before = []) (hafter : readersAmong after = []) (myTurn : Bool) :
    Demanded h number least (later.resume before after number (.gather least taken.flatten)
      (Task.step later.buffer myTurn (.gather least taken.flatten))) := by
  by_cases henough : least ≤ taken.flatten.length
  · simp only [Task.step, henough, if_true, resume]
    rw [later.record.note_nothing number later.buffer rfl rfl rfl]
    refine ⟨taken, htaken, .enough ?_ ?_ hspare (by rw [total_length_eq]; exact henough)⟩
    · simp only [readers, readersAmong_append, hbefore, hafter, List.append_nil]
    · rw [← hanswers]
      simp [readerAnswers, Answer.isReading]
  have hless : total List.length taken < least := by
    rw [total_length_eq]
    exact Nat.lt_of_not_le henough
  simp only [Task.step, henough, if_false]
  rcases later.buffer.take_cases with ⟨chunk, rest, hitems, htake⟩ | ⟨-, -, htake⟩ |
    ⟨hitems, hclosed, htake⟩
  · simp only [htake, resume]
    refine ⟨taken ++ [chunk], ?_, .waits ?_ hanswers (hspare.concat hless chunk)⟩
    · simp [Record.taken_note, Task.received, htaken]
    simp only [readers, readersAmong_append, hbefore, hafter, List.append_nil, List.nil_append]
    rw [readersAmong_reader rfl, List.flatten_append]
    simp
  · simp only [htake, resume]
    exact ⟨taken, htaken, .waits hreader hanswers hspare⟩
  · simp only [htake, resume]
    rw [later.record.note_nothing number later.buffer rfl rfl rfl]
    -- Chunks have bytes, so the reader has none exactly when it has taken none.
    have hnone : taken.flatten.isEmpty = true ↔ taken = [] := by
      rw [List.isEmpty_iff, List.flatten_eq_nil_iff]
      constructor
      · intro hnil
        rw [List.eq_nil_iff_forall_not_mem]
        intro chunk hchunk
        refine hsolid chunk ?_ (hnil chunk hchunk)
        rw [hqueue, htaken]
        exact List.mem_append_left _ (List.mem_append_right _ hchunk)
      · rintro rfl chunk hchunk
        cases hchunk
    refine ⟨taken, htaken, .ended ?_ ?_ hless hclosed ?_⟩
    · simp only [readers, readersAmong_append, hbefore, hafter, List.append_nil]
    · rw [← hanswers]
      simp only [readerAnswers, List.filter_append, hnone]
      congr 1
      split <;> rfl
    · rw [hqueue, hitems, List.append_nil]

theorem Demanded.happen (hdemanded : Demanded h number least later) {waiting : List Write}
    (hturn : InTurn later.session waiting)
    (hqueue : later.record.handed = later.record.taken ++ later.buffer.handoff.items)
    (hsolid : ∀ chunk ∈ later.record.handed, chunk ≠ []) {o : Occurrence}
    (ho : o.startsReader = false) : Demanded h number least (later.happen o) := by
  obtain ⟨taken, htaken, hdemand⟩ := hdemanded
  have hsame : SameReaders later (later.happen o) → Demanded h number least (later.happen o) := by
    intro hsame
    refine ⟨taken, hsame.taken.trans htaken, hdemand.same hsame fun hclosed hall => ?_⟩
    rw [hsame.taken, ← hall]
    rcases (follows_happen hturn o).changed with ⟨hbuffer, hrecord⟩ | hchange
    · rw [hbuffer, hrecord]
      exact ⟨hclosed, rfl⟩
    · obtain ⟨hend, -, hhanded⟩ := hchange.delivered_of_closed hclosed
      exact ⟨hend, hhanded⟩
  cases hdemand with
  | waits hreader hanswers hspare =>
    rcases move_of_sole hreader ho with hstill | ⟨before, after, myTurn, hbefore, hafter, hmove⟩
    · exact hsame hstill
    · rw [hmove]
      exact demanded_move hanswers hspare htaken hreader hqueue hsolid hbefore hafter myTurn
  | enough hreaders => exact hsame (sameReaders_of_none hreaders ho)
  | ended hreaders => exact hsame (sameReaders_of_none hreaders ho)

end Demand

/-! ## When the reader can do no more -/

def ReadersRest (h : History) : Prop :=
  ∀ (place : Nat) (hplace : place < h.session.pending.length),
    h.session.pending[place].2.reads = true → h.happen (.move place) = h

instance (h : History) : Decidable h.ReadersRest := by
  unfold ReadersRest
  infer_instance

theorem readersRest_of_none {h : History} (hnone : h.readers = []) : h.ReadersRest := by
  intro place hplace hreads
  have hmem : h.session.pending[place] ∈ h.readers :=
    List.mem_filter.2 ⟨List.getElem_mem hplace, hreads⟩
  rw [hnone] at hmem
  cases hmem

theorem ReadersRest.empty {h : History} {waiting : List Write} (hrest : h.ReadersRest)
    (hturn : InTurn h.session waiting) {number least : Nat} {got : Bytes}
    (hreader : h.readers = [(number, .gather least got)]) :
    got.length < least ∧ h.buffer.isClosed = false ∧ h.buffer.handoff.items = [] := by
  have hmem : (number, Task.gather least got) ∈ h.session.pending :=
    (List.mem_filter.1 (hreader ▸ List.mem_cons_self : _ ∈ h.readers)).1
  obtain ⟨before, after, hpending⟩ := List.append_of_mem hmem
  have hplace : before.length < h.session.pending.length := by simp [hpending]
  have hsame := hrest before.length hplace (by simp [hpending, Task.reads])
  rw [happen_move hpending] at hsame
  have hstuck : (Task.gather least got).step h.buffer (before.all fun p => !p.2.blocksWriters) =
      .stuck := by
    apply Classical.byContradiction
    intro hmoves
    have hlt := weight_resume_lt hturn hpending hmoves
    rw [hsame] at hlt
    exact Nat.lt_irrefl _ hlt
  have hless : got.length < least := by
    apply Nat.lt_of_not_le
    intro henough
    simp only [Task.step, henough, if_true] at hstuck
    cases hstuck
  have hwants : (Task.gather least got).wantsChunk = true := by simpa [Task.wantsChunk] using hless
  exact ⟨hless, (Task.step_eq_stuck_iff hwants).1 hstuck⟩

section Own

variable {h : History} {before : List (Nat × Task)} {number least : Nat} {got : Bytes}

theorem readersRest_of_stuck
    (hpending : h.session.pending = before ++ [(number, .gather least got)])
    (hbefore : readersAmong before = [])
    (hstuck : (Task.gather least got).step h.buffer (before.all fun p => !p.2.blocksWriters) =
      .stuck) : h.ReadersRest := by
  intro place hplace hreads
  have hmem : h.session.pending[place] ∈ h.session.pending := List.getElem_mem hplace
  by_cases hlast : place = before.length
  · subst hlast
    rw [happen_move hpending, hstuck]
    rfl
  · have hinside : place < before.length := by
      rw [hpending, List.length_append, List.length_singleton] at hplace
      omega
    simp only [hpending, List.getElem_append_left hinside] at hreads
    have hreader : before[place] ∈ readersAmong before :=
      List.mem_filter.2 ⟨List.getElem_mem hinside, hreads⟩
    rw [hbefore] at hreader
    cases hreader

theorem readersRest_of_finished
    (hpending : h.session.pending = before ++ [(number, .gather least got)])
    (hbefore : readersAmong before = []) {answer : Answer} {b : Buffer}
    (hfinished : (Task.gather least got).step h.buffer (before.all fun p => !p.2.blocksWriters) =
      .finished answer b) : (h.happen (.move before.length)).ReadersRest := by
  apply readersRest_of_none
  rw [happen_move hpending, hfinished, resume, readers, List.append_nil, List.append_nil, hbefore]

/-- A reader comes to the end of what it can do by moves of its own, one for each chunk in the
hand-off at most, and one to finish. -/
theorem exists_readersRest (hpending : h.session.pending = before ++ [(number, .gather least got)])
    (hbefore : readersAmong before = []) :
    ∃ k ≤ h.buffer.handoff.items.length + 1,
      (h.run (List.replicate k (.move before.length))).ReadersRest := by
  induction hn : h.buffer.handoff.items.length using Nat.strongRecOn generalizing h got with
  | ind n ih =>
    subst hn
    cases hstep : (Task.gather least got).step h.buffer (before.all fun p => !p.2.blocksWriters) with
    | stuck => exact ⟨0, Nat.zero_le _, readersRest_of_stuck hpending hbefore hstep⟩
    | finished answer b =>
      exact ⟨1, Nat.le_add_left .., readersRest_of_finished hpending hbefore hstep⟩
    | moved rest b =>
      obtain ⟨chunk, items, hitems, rfl, rfl⟩ := Task.gather_moved hstep
      have hmove := happen_move hpending
      rw [hstep, resume, List.append_nil] at hmove
      obtain ⟨k, hk, hrest⟩ := ih items.length (by rw [hitems]; exact Nat.lt_succ_self _)
        (h := h.happen (.move before.length)) (by rw [hmove]) (by rw [hmove]; rfl)
      refine ⟨k + 1, ?_, hrest⟩
      rw [hitems, List.length_cons]
      exact Nat.succ_le_succ hk

end Own

/-- The chunks that are in the hand-off at one moment and those that are put there up to a later
one. -/
def sentSince (h later : History) : List Bytes :=
  h.buffer.handoff.items ++ later.record.handed.drop h.record.handed.length

/-- What the demand of a single reader has come to that was made at the moment `h`, when the reader
can do no more. -/
structure DemandMet (h : History) (number least : Nat) (later : History) : Prop where
  /-- With enough chunks it gets no more of them than it needs, and the others are left. -/
  enough : least ≤ total List.length (h.sentSince later) →
    ∃ first, Shortest least (h.sentSince later) first ∧ later.readers = [] ∧
      later.readerAnswers = h.readerAnswers ++ [(number, .bytes first.flatten)] ∧
      later.buffer.handoff.items = (h.sentSince later).drop first.length
  /-- When the buffer was closed before there were enough it gets all there are, if any. -/
  closed : total List.length (h.sentSince later) < least → later.buffer.isClosed = true →
    later.readers = [] ∧ later.buffer.handoff.items = [] ∧
      later.readerAnswers = h.readerAnswers ++
        [(number, if h.sentSince later = [] then .closed else .bytes (h.sentSince later).flatten)]
  /-- Otherwise it waits and keeps what it has. -/
  waits : total List.length (h.sentSince later) < least → later.buffer.isClosed = false →
    later.readers = [(number, .gather least (h.sentSince later).flatten)] ∧
      later.buffer.handoff.items = [] ∧ later.readerAnswers = h.readerAnswers

/-- What a reader has taken comes first among the chunks that were sent, and the others are in the
hand-off. -/
theorem sentSince_eq {h later : History} {taken : List Bytes}
    (hqueue : h.record.handed = h.record.taken ++ h.buffer.handoff.items)
    (hlater : later.record.handed = later.record.taken ++ later.buffer.handoff.items)
    (hgrows : h.record.handed <+: later.record.handed)
    (htaken : later.record.taken = h.record.taken ++ taken) :
    h.sentSince later = taken ++ later.buffer.handoff.items := by
  obtain ⟨more, hmore⟩ := hgrows
  rw [sentSince, ← hmore, List.drop_left]
  rw [hlater, htaken, hqueue, List.append_assoc, List.append_assoc] at hmore
  exact List.append_cancel_left hmore

theorem Demanded.met {h later : History} {number least : Nat} {waiting : List Write}
    (hdemanded : Demanded h number least later)
    (hsent : ∀ taken, later.record.taken = h.record.taken ++ taken →
      h.sentSince later = taken ++ later.buffer.handoff.items)
    (hqueue : later.record.handed = later.record.taken ++ later.buffer.handoff.items)
    (hturn : InTurn later.session waiting) (hrest : later.ReadersRest) :
    h.DemandMet number least later := by
  obtain ⟨taken, htaken, hdemand⟩ := hdemanded
  have hsent := hsent taken htaken
  cases hdemand with
  | waits hreaders hanswers hspare =>
    obtain ⟨hless, hopen, hitems⟩ := hrest.empty hturn hreaders
    rw [hitems, List.append_nil] at hsent
    rw [← total_length_eq, ← hsent] at hless
    refine ⟨fun henough => absurd hless (Nat.not_lt_of_le henough),
      fun _ hclosed => ?_, fun _ _ => ?_⟩
    · rw [hopen] at hclosed
      cases hclosed
    · rw [hsent]
      exact ⟨hreaders, hitems, hanswers⟩
  | enough hreaders hanswers hspare henough =>
    have hless : ¬total List.length (h.sentSince later) < least := by
      rw [hsent, total_append]
      omega
    refine ⟨fun _ => ?_, fun h => absurd h hless, fun h => absurd h hless⟩
    rw [hsent]
    exact ⟨taken, hspare.shortest henough _, hreaders, hanswers, List.drop_left.symm⟩
  | ended hreaders hanswers hless hclosed hall =>
    have hitems : later.buffer.handoff.items = [] := by
      rw [hall] at hqueue
      exact List.self_eq_append_right.1 hqueue
    rw [hitems, List.append_nil] at hsent
    rw [← hsent] at hless hanswers
    refine ⟨fun henough => absurd hless (Nat.not_lt_of_le henough),
      fun _ _ => ?_, fun _ hopen => ?_⟩
    · exact ⟨hreaders, hitems, hanswers⟩
    · rw [hopen] at hclosed
      cases hclosed

/-! ## A single reader -/

/-- Whether a schedule starts a reader only where no other one is unfinished. -/
def OneReader : History → List Occurrence → Prop
  | _, [] => True
  | h, o :: schedule => (o.startsReader = true → h.readers = []) ∧ OneReader (h.happen o) schedule

instance decidableOneReader : (h : History) → (schedule : List Occurrence) →
    Decidable (h.OneReader schedule)
  | _, [] => .isTrue trivial
  | h, o :: schedule =>
    have := decidableOneReader (h.happen o) schedule
    inferInstanceAs (Decidable ((o.startsReader = true → h.readers = []) ∧ _))

/-- What readers have, in their answers and with the one that is unfinished, is what was taken. -/
structure InHand (h : History) : Prop where
  sole : h.readers = [] ∨ ∃ number task, task.reads = true ∧ h.readers = [(number, task)]
  bytes : h.readerAnswers.flatMap (fun a => a.2.data) ++ h.readers.flatMap (fun p => p.2.held) =
    h.record.taken.flatten

theorem InHand.same {h h' : History} (hhand : InHand h) (hsame : SameReaders h h') : InHand h' where
  sole := by
    rw [hsame.readers]
    exact hhand.sole
  bytes := by
    rw [hsame.readers, hsame.answers, hsame.taken]
    exact hhand.bytes

theorem InHand.move {h : History} (hhand : InHand h) {number : Nat} {task : Task}
    (htask : task.reads = true) (hreader : h.readers = [(number, task)])
    {before after : List (Nat × Task)} (hbefore : readersAmong before = [])
    (hafter : readersAmong after = []) (myTurn : Bool) :
    InHand (h.resume before after number task (task.step h.buffer myTurn)) := by
  have hbytes := hhand.bytes
  rw [hreader, List.flatMap_singleton] at hbytes
  have hreads := Task.step_of_reader h.buffer htask myTurn
  have hkept := task.kept_step h.buffer myTurn
  cases hstep : task.step h.buffer myTurn with
  | stuck => exact hhand
  | moved rest b =>
    rw [hstep] at hreads hkept
    have hheld : rest.held = _ := hkept (by simp)
    have hreaders : (h.resume before after number task (.moved rest b)).readers =
        [(number, rest)] := by
      simp only [resume, readers, readersAmong_append, hbefore, hafter, List.append_nil,
        List.nil_append]
      exact readersAmong_reader hreads
    refine ⟨Or.inr ⟨number, rest, hreads, hreaders⟩, ?_⟩
    have hanswers : (h.resume before after number task (.moved rest b)).readerAnswers =
        h.readerAnswers := rfl
    rw [hreaders, hanswers, List.flatMap_singleton, hheld, resume, Record.taken_note,
      List.flatten_append, ← hbytes, List.append_assoc]
  | finished answer b =>
    rw [hstep] at hreads hkept
    have hdata : answer.data = _ := hkept (by simp)
    have hreading : answer.isReading = true := hreads
    have hreaders : (h.resume before after number task (.finished answer b)).readers = [] := by
      simp only [resume, readers, readersAmong_append, hbefore, hafter, List.append_nil]
    refine ⟨Or.inl hreaders, ?_⟩
    have hanswers : (h.resume before after number task (.finished answer b)).readerAnswers =
        h.readerAnswers ++ [(number, answer)] := by
      simp [resume, readerAnswers, hreading]
    rw [hreaders, hanswers, List.flatMap_append, List.flatMap_singleton, hdata, resume,
      Record.taken_note, List.flatten_append, ← hbytes, List.flatMap_nil, List.append_nil,
      List.append_assoc]

theorem InHand.happen {h : History} (hhand : InHand h) {o : Occurrence}
    (ho : o.startsReader = true → h.readers = []) : InHand (h.happen o) := by
  cases hstarts : o.startsReader with
  | true =>
    cases o with
    | close => cases hstarts
    | move place => cases hstarts
    | start number call =>
      have htask : call.task.reads = true := hstarts
      have hreaders : (h.happen (.start number call)).readers = [(number, call.task)] := by
        have hnone : readersAmong h.session.pending = [] := ho hstarts
        simp only [readers, History.happen, readersAmong_append, hnone, List.nil_append]
        exact readersAmong_reader htask
      have hheld : call.task.held = [] := by cases call <;> rfl
      refine ⟨Or.inr ⟨number, call.task, htask, hreaders⟩, ?_⟩
      have hbytes := hhand.bytes
      rw [ho hstarts, List.flatMap_nil] at hbytes
      rw [hreaders, List.flatMap_singleton, hheld]
      exact hbytes
  | false =>
    rcases hhand.sole with hnone | ⟨number, task, htask, hreader⟩
    · exact hhand.same (sameReaders_of_none hnone hstarts)
    · rcases move_of_sole hreader hstarts with hsame | ⟨_, _, myTurn, hbefore, hafter, hmove⟩
      · exact hhand.same hsame
      · rw [hmove]
        exact hhand.move htask hreader hbefore hafter myTurn

theorem InHand.run {h : History} (hhand : InHand h) {schedule : List Occurrence}
    (hone : h.OneReader schedule) : InHand (h.run schedule) := by
  induction schedule generalizing h with
  | nil => exact hhand
  | cons o schedule ih => exact ih (hhand.happen hone.1) hone.2

end History

/-! ## Whole histories -/

theorem Change.handed_grows {closing : Prop} {b b' : Buffer} {r r' : Record}
    (hchange : Change closing b r b' r') : r.handed <+: r'.handed := by
  cases hchange with
  | begun w _ _ => exact List.prefix_rfl
  | handed chunk _ _ _ => exact List.prefix_append ..
  | lost chunk _ _ => exact List.prefix_rfl
  | taken chunk rest _ => exact List.prefix_rfl
  | closed _ => exact List.prefix_rfl

theorem Accounts.available_of_taken {closing : Prop} {b b' : Buffer} {r r' : Record}
    (haccounts : Accounts b r) (hchange : Change closing b r b' r') {chunk : Bytes}
    (htaken : r'.taken = r.taken ++ [chunk]) : b'.available + chunk.length = b.available := by
  have hnot : r.taken ≠ r.taken ++ [chunk] := by simp
  cases hchange with
  | begun w _ _ => exact absurd htaken hnot
  | handed _ _ _ _ => exact absurd htaken hnot
  | lost _ _ _ => exact absurd htaken hnot
  | closed _ => exact absurd htaken hnot
  | taken first rest hitems =>
    obtain rfl : first = chunk := by simpa [Record.taken] using htaken
    have havailable := haccounts.available
    rw [hitems, total_cons] at havailable
    show b.available - first.length + first.length = b.available
    omega

namespace History

section Run

variable (s : Seq) (window : UInt32) (capacity : Nat)

theorem demanded_run (before : List Occurrence) (number least : Nat) {after : List Occurrence}
    (hnone : ((ofBuffer (.startingAt s window capacity)).run before).readers = [])
    (hsole : ∀ o ∈ after, o.startsReader = false) :
    Demanded ((ofBuffer (.startingAt s window capacity)).run before) number least
      ((ofBuffer (.startingAt s window capacity)).run
        (before ++ .start number (.readAtLeast least) :: after)) := by
  refine prefix_induction (motive := fun done =>
    Demanded ((ofBuffer (.startingAt s window capacity)).run before) number least
      ((ofBuffer (.startingAt s window capacity)).run
        (before ++ .start number (.readAtLeast least) :: done))) ?_ ?_
  · rw [run_snoc]
    refine ⟨[], (List.append_nil _).symm, .waits ?_ rfl (.nil least)⟩
    have hreaders : readersAmong _ = [] := hnone
    simp only [readers, happen, readersAmong_append, hreaders, List.nil_append]
    rfl
  · intro done o hupto hdemanded
    rw [← List.cons_append, ← List.append_assoc, run_snoc]
    obtain ⟨waiting, hturn, -⟩ := inTurn_run (b := .startingAt s window capacity) rfl
      (before ++ .start number (.readAtLeast least) :: done)
    refine hdemanded.happen hturn ?_ ?_ ?_
    · exact (accounts_run rfl (.startingAt s window capacity) _).queue
    · exact (solid_run s window capacity _).1.handed
    · exact hsole o (hupto.subset (List.mem_append_right _ List.mem_cons_self))

/-- A new buffer at any moment of any history.  Where no reader is unfinished, a demand for no
bytes is answered by none, before anything else.  A demand for any number of bytes comes to the end
of what it can do by moves of its own; and however it comes there, with writers and a close in
between, it is met by the shortest sufficient prefix of what was sent, or by all of it if the
buffer was closed too early, or it waits.  In a history with a single reader all that was given to
it, what it has taken and what is in the hand-off are together, and in this order, what was sent.
Whoever takes a chunk, the count of what waits to be read goes down by its length. -/
theorem demands_met (before : List Occurrence) :
    let h := (ofBuffer (.startingAt s window capacity)).run before
    (h.readers = [] → ∀ number least,
      let asked := h.happen (.start number (.readAtLeast least))
      (least = 0 → asked.happen (.move h.session.pending.length) =
        { h with answers := h.answers ++ [(number, .bytes [])] }) ∧
      (∃ k ≤ h.buffer.handoff.items.length + 1,
        (asked.run (List.replicate k (.move h.session.pending.length))).ReadersRest) ∧
      ∀ after, (∀ o ∈ after, o.startsReader = false) → (asked.run after).ReadersRest →
        h.DemandMet number least (asked.run after)) ∧
    ((ofBuffer (.startingAt s window capacity)).OneReader before →
      h.readerAnswers.flatMap (fun a => a.2.data) ++ h.readers.flatMap (fun p => p.2.held) ++
        h.buffer.handoff.items.flatten = h.record.handed.flatten) ∧
    ∀ o chunk, (h.happen o).record.taken = h.record.taken ++ [chunk] →
      (h.happen o).buffer.available + chunk.length = h.buffer.available := by
  intro h
  have haccounts : Accounts h.buffer h.record :=
    accounts_run rfl (.startingAt s window capacity) before
  refine ⟨fun hnone number least => ⟨?_, ?_, ?_⟩, fun hone => ?_, ?_⟩
  · rintro rfl
    have hpending : (h.happen (.start number (.readAtLeast 0))).session.pending =
        h.session.pending ++ (number, .gather 0 []) :: [] := rfl
    rw [happen_move hpending]
    simp only [Task.step, List.length_nil, Nat.le_refl, if_true, resume]
    rw [Record.note_nothing _ number _ rfl rfl rfl]
    simp [happen, buffer]
  · exact exists_readersRest (h := h.happen (.start number (.readAtLeast least))) rfl hnone
  · intro after hsole hrest
    have hlater : (h.happen (.start number (.readAtLeast least))).run after =
        (ofBuffer (.startingAt s window capacity)).run
          (before ++ .start number (.readAtLeast least) :: after) := by
      rw [run_append, run_cons]
    have hdemanded := demanded_run s window capacity before number least hnone hsole
    obtain ⟨waiting, hturn, -⟩ := inTurn_run (b := .startingAt s window capacity) rfl
      (before ++ .start number (.readAtLeast least) :: after)
    have hqueue := (accounts_run (b := .startingAt s window capacity) rfl
      (.startingAt s window capacity) (before ++ .start number (.readAtLeast least) :: after)).queue
    rw [← hlater] at hdemanded hturn hqueue
    refine hdemanded.met (fun taken => ?_) hqueue hturn hrest
    refine sentSince_eq haccounts.queue hqueue ?_
    rw [hlater, run_append]
    exact run_keeps_from (P := fun _ r => h.record.handed <+: r.handed) rfl before _
      List.prefix_rfl fun hsofar hchange => hsofar.trans hchange.handed_grows
  · have hhand : InHand h := InHand.run ⟨Or.inl rfl, rfl⟩ hone
    rw [hhand.bytes, haccounts.queue, List.flatten_append]
  · intro o chunk htaken
    obtain ⟨waiting, hturn, -⟩ := inTurn_run (b := .startingAt s window capacity) rfl before
    rcases (follows_happen hturn o).changed with ⟨-, hrecord⟩ | hchange
    · have hsame : (h.happen o).record.taken = h.record.taken := congrArg Record.taken hrecord
      rw [hsame] at htaken
      simp at htaken
    · exact haccounts.available_of_taken hchange htaken

/-- Two segments are drained into a hand-off with room for one. -/
def halfSent : List Occurrence :=
  [.start 0 (.write (.add 2 [3])), .move 0, .start 1 (.write (.add 0 [1, 2])), .move 0, .move 0]

/-- The reader makes room for the second one and takes it too.  A third one comes. -/
def refill : List Occurrence :=
  [.move 1, .move 0, .move 0, .move 0, .start 3 (.write (.add 3 [4, 5])), .move 0, .move 0]

/-- The reader comes again and asks for more than there is, and the buffer is closed. -/
def cutShort : List Occurrence :=
  halfSent ++ .start 2 (.readAtLeast 3) ::
    (refill ++ [.start 4 (.readAtLeast 9), .move 0, .close, .move 0])

theorem demands_met_refill :
    let h := (ofBuffer (.startingAt 0 10 1)).run halfSent
    let asked := (ofBuffer (.startingAt 0 10 1)).run (halfSent ++ [.start 2 (.readAtLeast 3)])
    let later := (h.happen (.start 2 (.readAtLeast 3))).run refill
    let last := (ofBuffer (.startingAt 0 10 1)).run cutShort
    h.buffer.handoff.items = [[1, 2]] ∧ h.sentSince later = [[1, 2], [3], [4, 5]] ∧
      (∃ first, Shortest 3 (h.sentSince later) first ∧ later.readers = [] ∧
        later.readerAnswers = h.readerAnswers ++ [(2, .bytes first.flatten)] ∧
        later.buffer.handoff.items = (h.sentSince later).drop first.length) ∧
      last.readerAnswers = [(2, .bytes [1, 2, 3]), (4, .bytes [4, 5])] ∧
      last.readerAnswers.flatMap (fun a => a.2.data) ++ last.readers.flatMap (fun p => p.2.held) ++
        last.buffer.handoff.items.flatten = last.record.handed.flatten ∧
      (asked.happen (.move 1)).buffer.available + [1, 2].length = asked.buffer.available := by
  intro h asked later last
  obtain ⟨hdemand, -, -⟩ := demands_met 0 10 1 halfSent
  obtain ⟨-, -, hmet⟩ := hdemand (by decide) 2 3
  have hmet : h.DemandMet 2 3 later := hmet refill (by decide) (by decide)
  obtain ⟨-, hone, -⟩ := demands_met 0 10 1 cutShort
  obtain ⟨-, -, htaken⟩ := demands_met 0 10 1 (halfSent ++ [.start 2 (.readAtLeast 3)])
  exact ⟨by decide, by decide, hmet.enough (by decide), by decide, hone (by decide),
    htaken (.move 1) [1, 2] (by decide)⟩

end Run

end History

end StreamTap
