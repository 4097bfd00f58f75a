import StreamTap.Proofs.Stream.Moves
import StreamTap.Stream.Session

/-!
# Histories of a buffer

A session's own scheduler gives the unfinished calls their turns in one fixed order.
Here they may move in any order.  A *schedule* lists what happens: a call is started,
the buffer is closed, or one of the unfinished calls makes its smallest move.  Every
interleaving of calls is a schedule, for a move that is not possible changes nothing.

`Record` keeps what cannot be read off a buffer later: which writes have begun, which
chunks have gone into the hand-off or were refused by it, and which call received which.
It is read off what a move has done, and nothing is foretold: what went in from the
hand-off before and after the move, what was received from the answer of the call or
from what it holds.

Two facts carry everything that is said about histories.

* Writers take turns (`InTurn`): at most one of them is in the middle of its drain,
  it is the earliest, and the others have changed nothing.
* So each occurrence either leaves buffer and record as they are or makes one of five
  changes (`Change`), whatever calls there are.  An invariant of a buffer therefore
  has five cases (`run_keeps`).
-/

namespace StreamTap

/-- Something that happens on a buffer with calls. -/
inductive Occurrence where
  /-- A call is started under a number. -/
  | start (number : Nat) (call : Call)
  /-- The buffer is closed. -/
  | close
  /-- The unfinished call at a place, in the order of the starts, makes a move. -/
  | move (place : Nat)
  deriving DecidableEq, Repr

namespace Occurrence

def write? : Occurrence → Option Write
  | .start _ (.write w) => some w
  | _ => none

end Occurrence

def startedWrites (schedule : List Occurrence) : List Write :=
  schedule.filterMap Occurrence.write?

/-- What writers and readers have done to a buffer so far. -/
structure Record where
  /-- The writes that have begun, in this order; those that ask for nothing never do. -/
  begun : List Write := []
  /-- The chunks that went into the hand-off. -/
  handed : List Bytes := []
  /-- The chunks that the hand-off refused because it was closed. -/
  lost : List Bytes := []
  /-- The chunks that calls received, each with the number of the call. -/
  receipts : List (Nat × Bytes) := []
  deriving DecidableEq, Repr

/-- The chunks that calls received. -/
def Record.taken (r : Record) : List Bytes := r.receipts.map Prod.snd

/-! ## What is noted of a move -/

namespace Task

/-- The write that begins with a move of a call. -/
def begins : Task → List Write
  | .write w => if w.isVoid then [] else [w]
  | .draining => []
  | .read => []
  | .gather _ _ => []

/-- The chunk that a call receives by a move: its answer, or what it holds more than before. -/
def received : Task → Step → List Bytes
  | .read, .finished (.bytes chunk) _ => [chunk]
  | .gather _ got, .moved (.gather _ more) _ => [more.drop got.length]
  | _, _ => []

theorem received_stuck (task : Task) : task.received .stuck = [] := by cases task <;> rfl

/-- The buffer that an attempt to move leaves. -/
def Step.leaves (b : Buffer) : Step → Buffer
  | .stuck => b
  | .moved _ b' => b'
  | .finished _ b' => b'

theorem Step.leaves_ofWriter (b b' : Buffer) : (Step.ofWriter b').leaves b = b' := by
  unfold Step.ofWriter
  split <;> rfl

theorem begins_of_not_blocks {task : Task} (h : task.blocksWriters = false) :
    task.begins = [] := by
  cases task with
  | write w =>
    have hvoid : w.isVoid = true := by simpa [blocksWriters] using h
    simp [begins, hvoid]
  | draining => rfl
  | read => rfl
  | gather least got => rfl

end Task

/-- The chunk that was on offer to a closed hand-off before a move and is no more after it. -/
def Buffer.lostBetween (b b' : Buffer) : List Bytes :=
  if b.isClosed && b'.sending.isNone then b.sending.toList else []

/-- What is on offer before and after a move is not lost by it. -/
theorem Buffer.lostBetween_eq_nil {b b' : Buffer}
    (h : b.sending.isSome = true → b'.sending.isSome = true) : b.lostBetween b' = [] := by
  unfold lostBetween
  cases hsending : b.sending with
  | none => simp
  | some chunk =>
    obtain ⟨other, hother⟩ := Option.isSome_iff_exists.1 (h (by simp [hsending]))
    simp [hother]

namespace Record

/-- Takes note of the move of a call that has led from the buffer `b` to another. -/
def note (r : Record) (b : Buffer) (number : Nat) (task : Task) (step : Task.Step) : Record where
  begun := r.begun ++ task.begins
  handed := r.handed ++ (step.leaves b).handoff.items.drop b.handoff.items.length
  lost := r.lost ++ b.lostBetween (step.leaves b)
  receipts := r.receipts ++ (task.received step).map fun chunk => (number, chunk)

theorem taken_note (r : Record) (b : Buffer) (number : Nat) (task : Task) (step : Task.Step) :
    (r.note b number task step).taken = r.taken ++ task.received step := by
  simp [note, taken, Function.comp_def]

variable (r : Record) {b : Buffer} (number : Nat) {task : Task} {step : Task.Step} {chunk : Bytes}

theorem note_begin {w : Write} (hw : w.isVoid = false) :
    r.note b number (.write w) (.ofWriter (b.begin w)) = { r with begun := r.begun ++ [w] } := by
  have hlost : b.lostBetween (b.begin w) = [] :=
    Buffer.lostBetween_eq_nil fun hsome => b.isSome_sending_begin hsome hw
  simp [note, Task.Step.leaves_ofWriter, (b.sameFront_begin hw).handoff, hlost, Task.begins, hw,
    Task.received]

theorem note_accepted (hopen : b.isClosed = false) :
    r.note b number .draining (.ofWriter ((b.accepted chunk).pull true)) =
      { r with handed := r.handed ++ [chunk] } := by
  have hitems : (b.accepted chunk).handoff.items = b.handoff.items ++ [chunk] := rfl
  simp [note, Task.Step.leaves_ofWriter, hitems, Buffer.lostBetween, hopen, Task.begins,
    Task.received]

theorem note_lost (hsending : b.sending = some chunk) (hclosed : b.isClosed = true) :
    r.note b number .draining (.ofWriter (b.lost chunk)) =
      { r with lost := r.lost ++ [chunk] } := by
  simp [note, Task.Step.leaves_ofWriter, Buffer.lost, Buffer.lostBetween, hsending, hclosed,
    Task.begins, Task.received]

theorem note_taken (htask : task.blocksWriters = false) {rest : List Bytes}
    (hitems : b.handoff.items = chunk :: rest) (hleaves : step.leaves b = b.taken chunk rest)
    (hreceived : task.received step = [chunk]) :
    r.note b number task step = { r with receipts := r.receipts ++ [(number, chunk)] } := by
  have hlost : b.lostBetween (b.taken chunk rest) = [] := Buffer.lostBetween_eq_nil id
  have hrest : (b.taken chunk rest).handoff.items = rest := rfl
  simp [note, hleaves, hreceived, hlost, hrest, hitems, Task.begins_of_not_blocks htask]

theorem note_nothing (b : Buffer) (htask : task.blocksWriters = false)
    (hleaves : step.leaves b = b) (hreceived : task.received step = []) :
    r.note b number task step = r := by
  simp [note, hleaves, hreceived, Buffer.lostBetween_eq_nil id, Task.begins_of_not_blocks htask]

end Record

/-! ## Histories -/

/-- A session, what has happened to its buffer, and how its calls have ended. -/
structure History where
  session : Session
  record : Record := {}
  answers : List (Nat × Answer) := []
  deriving DecidableEq, Repr

namespace History

def ofBuffer (b : Buffer) : History := { session := .ofBuffer b }

def buffer (h : History) : Buffer := h.session.buffer

/-- The move of a call that stands between the calls `before` and `after` it has come
out in one of three ways. -/
def resume (h : History) (before after : List (Nat × Task)) (number : Nat) (task : Task) :
    Task.Step → History
  | .stuck => h
  | .moved rest b =>
    { session := ⟨b, before ++ [(number, rest)] ++ after⟩
      record := h.record.note h.buffer number task (.moved rest b)
      answers := h.answers }
  | .finished answer b =>
    { session := ⟨b, before ++ [] ++ after⟩
      record := h.record.note h.buffer number task (.finished answer b)
      answers := h.answers ++ [(number, answer)] }

theorem receipts_resume (h : History) (before after : List (Nat × Task)) (number : Nat)
    (task : Task) (step : Task.Step) :
    (h.resume before after number task step).record.receipts =
      h.record.receipts ++ (task.received step).map fun chunk => (number, chunk) := by
  cases step with
  | stuck => simp [resume, task.received_stuck]
  | moved rest b => rfl
  | finished answer b => rfl

theorem taken_resume (h : History) (before after : List (Nat × Task)) (number : Nat)
    (task : Task) (step : Task.Step) :
    (h.resume before after number task step).record.taken =
      h.record.taken ++ task.received step := by
  simp [Record.taken, receipts_resume, Function.comp_def]

/-- One more occurrence.  A move that is not possible changes nothing. -/
def happen (h : History) : Occurrence → History
  | .start number call =>
    { h with session := ⟨h.buffer, h.session.pending ++ [(number, call.task)]⟩ }
  | .close => { h with session := ⟨h.buffer.close, h.session.pending⟩ }
  | .move place =>
    match h.session.pending[place]? with
    | none => h
    | some (number, task) =>
      let before := h.session.pending.take place
      let after := h.session.pending.drop (place + 1)
      h.resume before after number task
        (task.step h.buffer (before.all fun p => !p.2.blocksWriters))

theorem happen_move {h : History} {before after : List (Nat × Task)} {number : Nat} {task : Task}
    (hpending : h.session.pending = before ++ (number, task) :: after) :
    h.happen (.move before.length) =
      h.resume before after number task
        (task.step h.buffer (before.all fun p => !p.2.blocksWriters)) := by
  simp [happen, hpending]

theorem split_of_place {pending : List (Nat × Task)} {place : Nat} {p : Nat × Task}
    (hplace : pending[place]? = some p) :
    ∃ before after, pending = before ++ p :: after ∧ before.length = place := by
  obtain ⟨hlt, rfl⟩ := List.getElem?_eq_some_iff.1 hplace
  refine ⟨pending.take place, pending.drop (place + 1), ?_,
    List.length_take_of_le (Nat.le_of_lt hlt)⟩
  rw [← List.drop_eq_getElem_cons hlt, List.take_append_drop]

/-- A move either is not possible and changes nothing, or it is the move of a call that stands
between others. -/
theorem happen_move_cases (h : History) (place : Nat) :
    h.happen (.move place) = h ∨
      ∃ before number task after, h.session.pending = before ++ (number, task) :: after ∧
        h.happen (.move place) =
          h.resume before after number task
            (task.step h.buffer (before.all fun p => !p.2.blocksWriters)) := by
  cases hplace : h.session.pending[place]? with
  | none => exact Or.inl (by simp only [happen, hplace])
  | some p =>
    obtain ⟨before, after, hpending, rfl⟩ := split_of_place hplace
    exact Or.inr ⟨before, p.1, p.2, after, hpending, happen_move hpending⟩

def run (h : History) (schedule : List Occurrence) : History := schedule.foldl happen h

@[simp] theorem run_nil (h : History) : h.run [] = h := rfl

@[simp] theorem run_cons (h : History) (o : Occurrence) (os : List Occurrence) :
    h.run (o :: os) = (h.happen o).run os := rfl

theorem run_append (h : History) (os os' : List Occurrence) :
    h.run (os ++ os') = (h.run os).run os' := List.foldl_append

def WritersDone (h : History) : Prop := ∀ p ∈ h.session.pending, p.2.blocksWriters = false

instance (h : History) : Decidable h.WritersDone := by
  unfold WritersDone
  infer_instance

/-- Whether no call is in the middle of a write.  Writes that have not begun may wait. -/
def Quiet (h : History) : Prop := ∀ p ∈ h.session.pending, p.2 ≠ .draining

instance (h : History) : Decidable h.Quiet := by
  unfold Quiet
  infer_instance

theorem WritersDone.quiet {h : History} (hdone : h.WritersDone) : h.Quiet := by
  intro p hp hdraining
  have hblocks := hdone p hp
  rw [hdraining] at hblocks
  cases hblocks

end History

/-! ## Writers take turns -/

/-- The writers among unfinished calls that have something to do. -/
def writersAmong (pending : List (Nat × Task)) : List Task :=
  (pending.map Prod.snd).filter Task.blocksWriters

@[simp] theorem writersAmong_nil : writersAmong [] = [] := rfl

@[simp] theorem writersAmong_append (l l' : List (Nat × Task)) :
    writersAmong (l ++ l') = writersAmong l ++ writersAmong l' := by
  simp [writersAmong]

theorem writersAmong_cons (p : Nat × Task) (l : List (Nat × Task)) :
    writersAmong (p :: l) = writersAmong [p] ++ writersAmong l :=
  writersAmong_append [p] l

theorem writersAmong_eq_nil_iff {l : List (Nat × Task)} :
    writersAmong l = [] ↔ l.all (fun p => !p.2.blocksWriters) = true := by
  rw [writersAmong, List.filter_eq_nil_iff, List.forall_mem_map, List.all_eq_true]
  simp only [Bool.not_eq_true, Bool.not_eq_true']

/-- The writer whose chunk is on offer, if there is one, comes first; `waiting` are the
writes of the others, which have not begun. -/
structure InTurn (s : Session) (waiting : List Write) : Prop where
  writers : writersAmong s.pending =
    (if s.buffer.sending.isSome then [Task.draining] else []) ++ waiting.map Task.write
  asking : ∀ w ∈ waiting, w.isVoid = false

namespace InTurn

variable {b b' : Buffer} {before after : List (Nat × Task)} {number : Nat} {task : Task}
  {waiting : List Write}

theorem of_not_blocks (h : InTurn ⟨b, before ++ (number, task) :: after⟩ waiting)
    (htask : task.blocksWriters = false) (hsending : b'.sending = b.sending)
    {rest : List (Nat × Task)} (hrest : writersAmong rest = []) :
    InTurn ⟨b', before ++ rest ++ after⟩ waiting where
  writers := by
    have hw := h.writers
    rw [writersAmong_append, writersAmong_cons] at hw
    simp only [writersAmong_append, hrest, List.append_nil, hsending]
    simpa [writersAmong, htask] using hw
  asking := h.asking

/-- A writer whose chunk is on offer is the first of the writers. -/
theorem of_draining (h : InTurn ⟨b, before ++ (number, .draining) :: after⟩ waiting) :
    writersAmong before = [] ∧ writersAmong after = waiting.map Task.write := by
  have hw := h.writers
  rw [writersAmong_append, writersAmong_cons] at hw
  have hone : writersAmong [(number, Task.draining)] = [.draining] := rfl
  rw [hone, List.singleton_append] at hw
  have hnot : Task.draining ∉ waiting.map Task.write := by simp
  cases hbefore : writersAmong before with
  | nil =>
    cases hs : b.sending with
    | none =>
      simp only [hbefore, hs, Option.isSome_none, Bool.false_eq_true, if_false,
        List.nil_append] at hw
      exact absurd (hw ▸ List.mem_cons_self) hnot
    | some chunk => simpa [hbefore, hs] using hw
  | cons first others =>
    cases hs : b.sending with
    | none =>
      simp only [hbefore, hs, Option.isSome_none, Bool.false_eq_true, if_false,
        List.nil_append] at hw
      exact absurd (hw ▸ List.mem_append_right _ List.mem_cons_self) hnot
    | some chunk =>
      simp only [hbefore, hs, Option.isSome_some, if_true, List.cons_append, List.nil_append,
        List.cons.injEq] at hw
      exact absurd (hw.2 ▸ List.mem_append_right _ List.mem_cons_self) hnot

/-- A write that has its turn finds nothing on offer and is the first that waits. -/
theorem of_write {w : Write} (h : InTurn ⟨b, before ++ (number, .write w) :: after⟩ waiting)
    (hw : w.isVoid = false) (hbefore : writersAmong before = []) :
    b.sending = none ∧ ∃ others, waiting = w :: others ∧
      writersAmong after = others.map Task.write := by
  have hwriters := h.writers
  have hone : writersAmong [(number, Task.write w)] = [.write w] := by
    simp [writersAmong, Task.blocksWriters, hw]
  rw [writersAmong_append, writersAmong_cons, hbefore, hone, List.nil_append,
    List.singleton_append] at hwriters
  cases hs : b.sending with
  | some chunk => simp [hs] at hwriters
  | none =>
    cases waiting with
    | nil => simp [hs] at hwriters
    | cons first others =>
      simp only [hs, Option.isSome_none, Bool.false_eq_true, if_false, List.nil_append,
        List.map_cons, List.cons.injEq, Task.write.injEq] at hwriters
      exact ⟨rfl, others, by rw [hwriters.1], hwriters.2⟩

theorem of_moved {rest : List (Nat × Task)} (hbefore : writersAmong before = [])
    (hafter : writersAmong after = waiting.map Task.write)
    (hasking : ∀ w ∈ waiting, w.isVoid = false)
    (hrest : writersAmong rest = if b.sending.isSome then [Task.draining] else []) :
    InTurn ⟨b, before ++ rest ++ after⟩ waiting where
  writers := by rw [writersAmong_append, writersAmong_append, hbefore, hrest, hafter,
    List.nil_append]
  asking := hasking

end InTurn

/-! ## The changes of a buffer -/

/-- The changes that a history can make to a buffer and its record, where `closing` says
when it may be closed. -/
inductive Change (closing : Prop) (b : Buffer) (r : Record) : Buffer → Record → Prop
  /-- A write begins; nothing is on offer then. -/
  | begun (w : Write) : b.sending = none → w.isVoid = false →
      Change closing b r (b.begin w) { r with begun := r.begun ++ [w] }
  /-- The hand-off accepts the chunk on offer. -/
  | handed (chunk : Bytes) : b.sending = some chunk → b.isClosed = false →
      b.handoff.items.length < b.handoff.capacity →
      Change closing b r ((b.accepted chunk).pull true) { r with handed := r.handed ++ [chunk] }
  /-- The closed hand-off refuses the chunk on offer. -/
  | lost (chunk : Bytes) : b.sending = some chunk → b.isClosed = true →
      Change closing b r (b.lost chunk) { r with lost := r.lost ++ [chunk] }
  /-- A reader receives the oldest chunk. -/
  | taken {number : Nat} (chunk : Bytes) (rest : List Bytes) : b.handoff.items = chunk :: rest →
      Change closing b r (b.taken chunk rest)
        { r with receipts := r.receipts ++ [(number, chunk)] }
  /-- The buffer is closed. -/
  | closed : closing → Change closing b r b.close r

theorem Change.isClosed_eq {closing : Prop} {b b' : Buffer} {r r' : Record}
    (h : Change closing b r b' r') (hclosing : ¬closing) : b'.isClosed = b.isClosed := by
  cases h with
  | begun w _ _ => exact b.isClosed_begin w
  | handed chunk _ _ _ => exact (b.accepted chunk).isClosed_pull true
  | lost _ _ _ => rfl
  | taken _ _ _ => rfl
  | closed hc => exact absurd hc hclosing

/-- Buffer and record have made one change or none. -/
def ChangedOrNot (closing : Prop) (b : Buffer) (r : Record) (b' : Buffer) (r' : Record) : Prop :=
  b' = b ∧ r' = r ∨ Change closing b r b' r'

/-- What an occurrence leads to: the writers are still in turn, no write is forgotten or
passed over, and buffer and record have made one change or none. -/
structure Follows (closing : Prop) (h h' : History) (waiting started : List Write) : Prop where
  inTurn : ∃ waiting', InTurn h'.session waiting' ∧
    h'.record.begun ++ waiting' = h.record.begun ++ waiting ++ started
  changed : ChangedOrNot closing h.buffer h.record h'.buffer h'.record

namespace History

section Resume

variable {closing : Prop} {h : History} {before after : List (Nat × Task)} {number : Nat}
  {waiting : List Write}

theorem follows_refl (hturn : InTurn h.session waiting) : Follows closing h h waiting [] where
  inTurn := ⟨waiting, hturn, by simp⟩
  changed := Or.inl ⟨rfl, rfl⟩

theorem follows_reader {task : Task}
    (hturn : InTurn ⟨h.buffer, before ++ (number, task) :: after⟩ waiting)
    (htask : task.blocksWriters = false) {r : Record} {b : Buffer}
    {rest : List (Nat × Task)} {answers : List (Nat × Answer)} (hrest : writersAmong rest = [])
    (hsending : b.sending = h.buffer.sending) (hbegun : r.begun = h.record.begun)
    (hchanged : ChangedOrNot closing h.buffer h.record b r) :
    Follows closing h ⟨⟨b, before ++ rest ++ after⟩, r, answers⟩ waiting [] where
  inTurn := ⟨waiting, hturn.of_not_blocks htask hsending hrest, by simp [hbegun]⟩
  changed := hchanged

/-- The move of a reader that looks for a chunk: it takes one and goes on as a reader or ends,
or there is none, or there will never be one. -/
theorem follows_take {task : Task} {step : Task.Step}
    (hturn : InTurn ⟨h.buffer, before ++ (number, task) :: after⟩ waiting)
    (hwhole : InTurn h.session waiting) (htask : task.blocksWriters = false)
    (hchunk : ∀ chunk b, h.buffer.take = .chunk chunk b → task.received step = [chunk] ∧
      ((∃ answer, step = .finished answer b) ∨
        ∃ rest, rest.blocksWriters = false ∧ step = .moved rest b))
    (hnothing : h.buffer.take = .nothing → step = .stuck)
    (hclosed : h.buffer.take = .closed → task.received step = [] ∧
      ∃ answer, step = .finished answer h.buffer) :
    Follows closing h (h.resume before after number task step) waiting [] := by
  rcases h.buffer.take_cases with ⟨chunk, rest, hitems, htake⟩ | ⟨-, -, htake⟩ | ⟨-, -, htake⟩
  · have hchange : ChangedOrNot closing h.buffer h.record (h.buffer.taken chunk rest)
        { h.record with receipts := h.record.receipts ++ [(number, chunk)] } :=
      Or.inr (.taken chunk rest hitems)
    obtain ⟨hreceived, ⟨answer, rfl⟩ | ⟨rest', hrest, rfl⟩⟩ := hchunk _ _ htake
    · rw [resume, h.record.note_taken number htask hitems rfl hreceived]
      exact follows_reader hturn htask rfl rfl rfl hchange
    · have hreader : writersAmong [(number, rest')] = [] := by simp [writersAmong, hrest]
      rw [resume, h.record.note_taken number htask hitems rfl hreceived]
      exact follows_reader hturn htask hreader rfl rfl hchange
  · rw [hnothing htake]
    exact follows_refl hwhole
  · obtain ⟨hreceived, answer, rfl⟩ := hclosed htake
    rw [resume, h.record.note_nothing number h.buffer htask rfl hreceived]
    exact follows_reader hturn htask rfl rfl rfl (Or.inl ⟨rfl, rfl⟩)

theorem follows_writer {task : Task} {b : Buffer} {r : Record} {others : List Write}
    (hbefore : writersAmong before = []) (hafter : writersAmong after = others.map Task.write)
    (hasking : ∀ w ∈ others, w.isVoid = false)
    (hnote : h.record.note h.buffer number task (.ofWriter b) = r)
    (hbegun : r.begun ++ others = h.record.begun ++ waiting)
    (hchange : Change closing h.buffer h.record b r) :
    Follows closing h (h.resume before after number task (.ofWriter b)) waiting [] := by
  unfold Task.Step.ofWriter at hnote ⊢
  cases hs : b.sending with
  | some chunk =>
    have hrest : writersAmong [(number, Task.draining)]
        = if b.sending.isSome then [Task.draining] else [] := by simp [hs, writersAmong,
          Task.blocksWriters]
    simp only [hs, Option.isSome_some, if_true] at hnote ⊢
    rw [resume, hnote]
    exact ⟨⟨others, .of_moved hbefore hafter hasking hrest, by simpa using hbegun⟩,
      Or.inr hchange⟩
  | none =>
    have hrest : writersAmong [] = if b.sending.isSome then [Task.draining] else [] := by
      simp [hs]
    simp only [hs, Option.isSome_none, Bool.false_eq_true, if_false] at hnote ⊢
    rw [resume, hnote]
    exact ⟨⟨others, .of_moved hbefore hafter hasking hrest, by simpa using hbegun⟩,
      Or.inr hchange⟩

theorem follows_move {task : Task} (hturn : InTurn h.session waiting)
    (hpending : h.session.pending = before ++ (number, task) :: after) :
    Follows closing h (h.resume before after number task
      (task.step h.buffer (before.all fun p => !p.2.blocksWriters))) waiting [] := by
  have hhere : InTurn ⟨h.buffer, before ++ (number, task) :: after⟩ waiting := by
    rw [← hpending]
    exact hturn
  cases task with
  | write w =>
    cases hvoid : w.isVoid with
    | true =>
      have htask : (Task.write w).blocksWriters = false := by simp [Task.blocksWriters, hvoid]
      simp only [Task.step, hvoid, if_true]
      rw [resume, h.record.note_nothing number h.buffer htask rfl rfl]
      exact follows_reader hhere htask rfl rfl rfl (Or.inl ⟨rfl, rfl⟩)
    | false =>
      cases hfirst : before.all fun p => !p.2.blocksWriters with
      | false =>
        simp only [Task.step, hvoid, Bool.false_eq_true, if_false]
        exact follows_refl hturn
      | true =>
        have hbefore := writersAmong_eq_nil_iff.2 hfirst
        obtain ⟨hsending, others, rfl, hafter⟩ := hhere.of_write hvoid hbefore
        simp only [Task.step, hvoid, Bool.false_eq_true, if_false, if_true]
        exact follows_writer hbefore hafter (fun v hv => hhere.asking v (List.mem_cons_of_mem _ hv))
          (h.record.note_begin number hvoid) (by simp) (.begun w hsending hvoid)
  | draining =>
    obtain ⟨hbefore, hafter⟩ := hhere.of_draining
    cases hoffer : h.buffer.canOffer with
    | false =>
      simp only [Task.step, hoffer, Bool.false_eq_true, if_false]
      exact follows_refl hturn
    | true =>
      simp only [Task.step, hoffer, if_true]
      refine h.buffer.offer_elim (P := fun b => Follows closing h (h.resume before after number
        .draining (.ofWriter b)) waiting []) hoffer ?_ ?_
      · intro chunk hsending hopen hroom
        exact follows_writer hbefore hafter hhere.asking (h.record.note_accepted number hopen) rfl
          (.handed chunk hsending hopen hroom)
      · intro chunk hsending hclosed
        exact follows_writer hbefore hafter hhere.asking
          (h.record.note_lost number hsending hclosed) rfl (.lost chunk hsending hclosed)
  | read =>
    refine follows_take hhere hturn rfl ?_ ?_ ?_
    · intro chunk b htake
      simp only [Task.step, htake]
      exact ⟨rfl, Or.inl ⟨_, rfl⟩⟩
    · intro htake
      simp only [Task.step, htake]
    · intro htake
      simp only [Task.step, htake]
      exact ⟨rfl, _, rfl⟩
  | gather least got =>
    by_cases henough : least ≤ got.length
    · simp only [Task.step, henough, if_true]
      rw [resume, h.record.note_nothing number h.buffer rfl rfl rfl]
      exact follows_reader hhere rfl rfl rfl rfl (Or.inl ⟨rfl, rfl⟩)
    · refine follows_take hhere hturn rfl ?_ ?_ ?_
      · intro chunk b htake
        simp only [Task.step, henough, if_false, htake]
        exact ⟨by simp [Task.received], Or.inr ⟨_, rfl, rfl⟩⟩
      · intro htake
        simp only [Task.step, henough, if_false, htake]
      · intro htake
        simp only [Task.step, henough, if_false, htake]
        exact ⟨rfl, _, rfl⟩

theorem follows_happen (hturn : InTurn h.session waiting) (o : Occurrence) :
    Follows (o = .close) h (h.happen o) waiting
      ((startedWrites [o]).filter fun w => !w.isVoid) := by
  cases o with
  | close =>
    exact ⟨⟨waiting, ⟨hturn.writers, hturn.asking⟩, by simp [happen, startedWrites,
      Occurrence.write?]⟩, Or.inr (.closed rfl)⟩
  | move place =>
    rcases h.happen_move_cases place with hstay | ⟨_, _, _, _, hpending, hmove⟩
    · rw [hstay]
      exact follows_refl hturn
    · rw [hmove]
      exact follows_move hturn hpending
  | start number call =>
    have hquiet : ChangedOrNot (Occurrence.start number call = .close) h.buffer h.record
        h.buffer h.record := Or.inl ⟨rfl, rfl⟩
    have hwriters : writersAmong h.session.pending =
        (if h.buffer.sending.isSome then [Task.draining] else []) ++ waiting.map Task.write :=
      hturn.writers
    cases hblocks : call.task.blocksWriters with
    | false =>
      have hnone : writersAmong [(number, call.task)] = [] := by simp [writersAmong, hblocks]
      refine ⟨⟨waiting, ⟨?_, hturn.asking⟩, ?_⟩, hquiet⟩
      · show writersAmong (h.session.pending ++ [(number, call.task)]) = _
        rw [writersAmong_append, hnone, List.append_nil]
        exact hwriters
      · cases call with
        | write w =>
          have hvoid : w.isVoid = true := by simpa [Call.task, Task.blocksWriters] using hblocks
          simp [happen, startedWrites, Occurrence.write?, hvoid]
        | read => simp [happen, startedWrites, Occurrence.write?]
        | readAtLeast least => simp [happen, startedWrites, Occurrence.write?]
    | true =>
      cases call with
      | read => cases hblocks
      | readAtLeast least => cases hblocks
      | write w =>
        have hvoid : w.isVoid = false := by simpa [Call.task, Task.blocksWriters] using hblocks
        have hone : writersAmong [(number, Call.task (.write w))] = [.write w] := by
          simp [writersAmong, Call.task, Task.blocksWriters, hvoid]
        refine ⟨⟨waiting ++ [w], ⟨?_, ?_⟩, ?_⟩, hquiet⟩
        · show writersAmong (h.session.pending ++ [(number, Call.task (.write w))]) = _
          rw [writersAmong_append, hone, hwriters, List.map_append, List.append_assoc]
          rfl
        · intro v hv
          rcases List.mem_append.1 hv with hv | hv
          · exact hturn.asking v hv
          · exact List.mem_singleton.1 hv ▸ hvoid
        · simp [happen, startedWrites, Occurrence.write?, hvoid]

end Resume

/-! ## Whole schedules -/

/-- What holds before anything has happened and is kept by every occurrence of a
schedule holds at its end. -/
theorem prefix_induction {motive : List Occurrence → Prop} {schedule : List Occurrence}
    (nil : motive [])
    (snoc : ∀ done o, done ++ [o] <+: schedule → motive done → motive (done ++ [o])) :
    motive schedule := by
  suffices h : ∀ todo done, done ++ todo = schedule → motive done → motive schedule from
    h schedule [] rfl nil
  intro todo
  induction todo with
  | nil =>
    intro done hdone hmotive
    rw [List.append_nil] at hdone
    exact hdone ▸ hmotive
  | cons o todo ih =>
    intro done hdone hmotive
    have hsplit : done ++ [o] ++ todo = schedule := by simpa using hdone
    exact ih (done ++ [o]) hsplit (snoc done o ⟨todo, hsplit⟩ hmotive)

theorem run_snoc (h : History) (os : List Occurrence) (o : Occurrence) :
    h.run (os ++ [o]) = (h.run os).happen o := by
  rw [run_append, run_cons, run_nil]

section Run

variable {b : Buffer} {schedule : List Occurrence}

/-- At every moment of a schedule the writers are in turn, and the writes that have
begun, followed by those that wait, are the ones that were started, in this order. -/
theorem inTurn_run (hsending : b.sending = none) (schedule : List Occurrence) :
    ∃ waiting, InTurn ((ofBuffer b).run schedule).session waiting ∧
      ((ofBuffer b).run schedule).record.begun ++ waiting =
        (startedWrites schedule).filter fun w => !w.isVoid := by
  refine prefix_induction (motive := fun done => ∃ waiting,
    InTurn ((ofBuffer b).run done).session waiting ∧
      ((ofBuffer b).run done).record.begun ++ waiting =
        (startedWrites done).filter fun w => !w.isVoid) ?_ ?_
  · refine ⟨[], ⟨?_, by simp⟩, rfl⟩
    simp [ofBuffer, Session.ofBuffer, hsending]
  · rintro done o - ⟨waiting, hturn, hbegun⟩
    obtain ⟨waiting', hturn', hbegun'⟩ := (follows_happen hturn o).inTurn
    rw [run_snoc]
    refine ⟨waiting', hturn', ?_⟩
    rw [hbegun', hbegun, startedWrites, startedWrites, startedWrites, List.filterMap_append,
      List.filter_append]

/-- What every change keeps holds at the end of a schedule. -/
theorem run_keeps {P : Buffer → Record → Prop} (hsending : b.sending = none) (start : P b {})
    (keep : ∀ done o, done ++ [o] <+: schedule →
      P ((ofBuffer b).run done).buffer ((ofBuffer b).run done).record →
      Change (o = .close) ((ofBuffer b).run done).buffer ((ofBuffer b).run done).record
        ((ofBuffer b).run (done ++ [o])).buffer ((ofBuffer b).run (done ++ [o])).record →
      P ((ofBuffer b).run (done ++ [o])).buffer ((ofBuffer b).run (done ++ [o])).record) :
    P ((ofBuffer b).run schedule).buffer ((ofBuffer b).run schedule).record := by
  refine prefix_induction (motive := fun done =>
    P ((ofBuffer b).run done).buffer ((ofBuffer b).run done).record) start ?_
  intro done o hupto hP
  obtain ⟨waiting, hturn, -⟩ := inTurn_run hsending done
  have hchanged := (follows_happen hturn o).changed
  rw [← run_snoc] at hchanged
  rcases hchanged with ⟨hb, hr⟩ | hchange
  · rw [hb, hr]
    exact hP
  · exact keep done o hupto hP hchange

theorem run_keeps_from {P : Buffer → Record → Prop} (hsending : b.sending = none)
    (done schedule : List Occurrence)
    (start : P ((ofBuffer b).run done).buffer ((ofBuffer b).run done).record)
    (keep : ∀ {closing b r b' r'}, P b r → Change closing b r b' r' → P b' r') :
    P (((ofBuffer b).run done).run schedule).buffer
      (((ofBuffer b).run done).run schedule).record := by
  refine prefix_induction (motive := fun later =>
    P (((ofBuffer b).run done).run later).buffer (((ofBuffer b).run done).run later).record)
    start ?_
  intro later o _ hP
  obtain ⟨waiting, hturn, -⟩ := inTurn_run hsending (done ++ later)
  rw [run_append] at hturn
  rw [run_snoc]
  rcases (follows_happen hturn o).changed with ⟨hb, hr⟩ | hchange
  · rw [hb, hr]
    exact hP
  · exact keep hP hchange

/-- At every moment of a schedule the writes that have begun are the first of those that are
started by its end. -/
theorem begun_prefix (hsending : b.sending = none) {done : List Occurrence}
    (hdone : done <+: schedule) :
    ((ofBuffer b).run done).record.begun <+:
      (startedWrites schedule).filter fun w => !w.isVoid := by
  obtain ⟨waiting, -, hbegun⟩ := inTurn_run hsending done
  refine List.IsPrefix.trans ⟨waiting, hbegun⟩ ?_
  exact (hdone.filterMap Occurrence.write?).filter _

/-- When no call is in the middle of a write nothing is on offer. -/
theorem sending_of_quiet (hsending : b.sending = none)
    (hquiet : ((ofBuffer b).run schedule).Quiet) :
    ((ofBuffer b).run schedule).buffer.sending = none := by
  obtain ⟨waiting, hturn, -⟩ := inTurn_run hsending schedule
  cases hs : ((ofBuffer b).run schedule).buffer.sending with
  | none => rfl
  | some chunk =>
    have hs' : ((ofBuffer b).run schedule).session.buffer.sending = some chunk := hs
    have hwriters := hturn.writers
    rw [hs', Option.isSome_some, if_pos rfl, List.singleton_append] at hwriters
    have hmem : Task.draining ∈ writersAmong ((ofBuffer b).run schedule).session.pending :=
      hwriters ▸ List.mem_cons_self
    obtain ⟨p, hp, hdraining⟩ := List.mem_map.1 (List.mem_filter.1 hmem).1
    exact absurd hdraining (hquiet p hp)

/-- When all writers are done nothing is on offer, and the writes that were started have
begun in the order of their start. -/
theorem run_done (hsending : b.sending = none) (hdone : ((ofBuffer b).run schedule).WritersDone) :
    ((ofBuffer b).run schedule).buffer.sending = none ∧
      ((ofBuffer b).run schedule).record.begun =
        (startedWrites schedule).filter fun w => !w.isVoid := by
  obtain ⟨waiting, hturn, hbegun⟩ := inTurn_run hsending schedule
  have hnobody : writersAmong ((ofBuffer b).run schedule).session.pending = [] := by
    rw [writersAmong_eq_nil_iff, List.all_eq_true]
    intro p hp
    rw [hdone p hp]
    rfl
  have hwriters := hturn.writers
  rw [hnobody] at hwriters
  obtain ⟨-, hwaiting⟩ := List.append_eq_nil_iff.1 hwriters.symm
  rw [List.map_eq_nil_iff.1 hwaiting, List.append_nil] at hbegun
  exact ⟨sending_of_quiet hsending hdone.quiet, hbegun⟩

end Run

end History

end StreamTap
