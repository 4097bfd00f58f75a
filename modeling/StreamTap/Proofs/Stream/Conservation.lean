import StreamTap.Proofs.Stream.Accounts

/-!
# Every byte is in one place, and no count runs out

What readers have of a stream is in two places: in the answers of finished calls, and with
unfinished calls that have taken chunks and want more.  A chunk leaves the hand-off with
exactly one call, so the two together are, byte for byte, what was received
(`holdings_perm_run`).  With the accounts of the buffer this says where the delivered bytes
are: with a reader or in the hand-off.

The running counts are natural numbers, and to lower one below zero would go unnoticed.
So the moves are made here once more with a subtraction that fails where the count does not
cover the amount (`debit`).  Where the accounts are right it never fails, and the checked
moves are the moves (`Task.step?_eq`).
-/

namespace StreamTap

/-! ## Checked moves -/

/-- Takes an amount off a running count, which has to cover it. -/
def debit (count amount : Nat) : Option Nat :=
  if amount ≤ count then some (count - amount) else none

theorem debit_of_le {count amount : Nat} (h : amount ≤ count) :
    debit count amount = some (count - amount) := if_pos h

namespace Buffer

def prune? (b : Buffer) : Option Buffer := do
  let inside := Seq.inWindow b.expected b.window
  let behind := b.parked.filter (fun s => !inside s)
  let buffered ← debit b.buffered behind.bytes
  return { b with
    parked := b.parked.filter inside
    buffered
    stale := b.stale + behind.size }

def pull? (b : Buffer) (moved : Bool) : Option Buffer :=
  match b.parked.find? b.expected with
  | some chunk => do
    let next := b.expected.advance chunk.length
    let buffered ← debit b.buffered chunk.length
    return { b with
      expected := next
      parked := b.parked.erase b.expected
      published := next
      sending := some chunk
      buffered
      available := b.available + chunk.length }
  | none => if moved then b.prune? else some b

def offer? (b : Buffer) : Option Buffer :=
  match b.sending with
  | none => some b
  | some chunk =>
    match b.handoff.send chunk with
    | .accepted handoff =>
      { b with
        handoff
        sending := none
        delivered := b.delivered + chunk.length }.pull? true
    | .refused => do
      let available ← debit b.available chunk.length
      return { b with sending := none, available }
    | .full => some b

def begin? (b : Buffer) : Write → Option Buffer
  | .add seq payload =>
    if payload.isEmpty then some b
    else if !Seq.inWindow b.expected b.window seq then
      some { b with outOfWindow := b.outOfWindow + 1 }
    else if (b.parked.find? seq).isSome then
      some { b with duplicate := b.duplicate + 1 }
    else
      { b with
        parked := b.parked.insert seq payload
        buffered := b.buffered + payload.length }.pull? false
  | .rebase seq => do
    let pruned ← { b with expected := seq, published := seq }.prune?
    pruned.pull? false

def take? (b : Buffer) : Option Taken :=
  match b.handoff.receive with
  | .item chunk handoff => do
    let available ← debit b.available chunk.length
    return .chunk chunk { b with handoff, available }
  | .empty => some .nothing
  | .finished => some .closed

end Buffer

namespace Task

/-- The smallest move of a task with checked subtractions. -/
def step? (b : Buffer) (myTurn : Bool) : Task → Option Step
  | .write w =>
    if w.isVoid then some (.finished .done b)
    else if myTurn then return .ofWriter (← b.begin? w)
    else some .stuck
  | .draining => if b.canOffer then return .ofWriter (← b.offer?) else some .stuck
  | .read => do
    match ← b.take? with
    | .chunk chunk rest => return .finished (.bytes chunk) rest
    | .nothing => return .stuck
    | .closed => return .finished .closed b
  | .gather least got =>
    if least ≤ got.length then some (.finished (.bytes got) b)
    else do
      match ← b.take? with
      | .chunk chunk rest => return .moved (.gather least (got ++ chunk)) rest
      | .nothing => return .stuck
      | .closed => return .finished (if got.isEmpty then .closed else .bytes got) b

end Task

namespace Accounts

variable {b : Buffer} {r : Record}

theorem prune?_eq (h : Accounts b r) : b.prune? = some b.prune := by
  have hbytes := b.parked.bytes_filter (Seq.inWindow b.expected b.window)
  have hbuffered := h.buffered
  have hcovered : (b.parked.filter fun s => !Seq.inWindow b.expected b.window s).bytes
      ≤ b.buffered := by omega
  simp [Buffer.prune?, Buffer.prune, debit_of_le hcovered]

theorem pull?_eq (h : Accounts b r) (moved : Bool) : b.pull? moved = some (b.pull moved) := by
  cases hchunk : b.parked.find? b.expected with
  | some chunk =>
    have hbytes := Parked.bytes_erase hchunk
    have hbuffered := h.buffered
    have hcovered : chunk.length ≤ b.buffered := by omega
    simp [Buffer.pull?, Buffer.pull, hchunk, debit_of_le hcovered]
  | none =>
    cases moved with
    | true => simp [Buffer.pull?, Buffer.pull, hchunk, h.prune?_eq]
    | false => simp [Buffer.pull?, Buffer.pull, hchunk]

theorem begin?_eq (h : Accounts b r) (w : Write) : b.begin? w = some (b.begin w) := by
  cases w with
  | add seq payload =>
    by_cases hpayload : payload = []
    · simp [Buffer.begin?, Buffer.begin, hpayload]
    · cases hwindow : Seq.inWindow b.expected b.window seq with
      | false => simp [Buffer.begin?, Buffer.begin, hpayload, hwindow]
      | true =>
        cases hfree : b.parked.find? seq with
        | some other => simp [Buffer.begin?, Buffer.begin, hpayload, hwindow, hfree]
        | none =>
          have hpark : Accounts (b.park seq payload) _ := h.park hfree
          have hpull := hpark.pull?_eq false
          simp only [Buffer.park] at hpull
          simp [Buffer.begin?, Buffer.begin, hpayload, hwindow, hfree, hpull]
  | rebase seq =>
    have hprune := (h.expectAt seq).prune?_eq
    have hpull := (h.expectAt seq).prune.pull?_eq false
    simp only [Buffer.expectAt] at hprune hpull
    simp [Buffer.begin?, Buffer.begin, hprune, hpull]

theorem offer?_eq (h : Accounts b r) : b.offer? = some b.offer := by
  cases hsending : b.sending with
  | none => simp [Buffer.offer?, Buffer.offer, hsending]
  | some chunk =>
    cases hclosed : b.handoff.isClosed with
    | true =>
      have havailable := h.available
      simp only [hsending, Option.toList_some, total_cons, total_nil] at havailable
      have hcovered : chunk.length ≤ b.available := by omega
      simp [Buffer.offer?, Buffer.offer, hsending, Channel.send, hclosed, debit_of_le hcovered]
    | false =>
      by_cases hroom : b.handoff.items.length < b.handoff.capacity
      · have hsend : b.handoff.send chunk = .accepted (b.accepted chunk).handoff := by
          simp [Channel.send, hclosed, hroom, Buffer.accepted]
        have hpull := (h.accepted hsending).pull?_eq true
        simp only [Buffer.offer?, Buffer.offer, hsending, hsend]
        exact hpull
      · simp [Buffer.offer?, Buffer.offer, hsending, Channel.send, hclosed, hroom]

theorem take?_eq (h : Accounts b r) : b.take? = some b.take := by
  cases hitems : b.handoff.items with
  | nil =>
    cases hclosed : b.handoff.isClosed with
    | true => simp [Buffer.take?, Buffer.take, Channel.receive, hitems, hclosed]
    | false => simp [Buffer.take?, Buffer.take, Channel.receive, hitems, hclosed]
  | cons chunk rest =>
    have havailable := h.available
    simp only [hitems, total_cons] at havailable
    have hcovered : chunk.length ≤ b.available := by omega
    simp [Buffer.take?, Buffer.take, Channel.receive, hitems, debit_of_le hcovered]

/-- Where the accounts are right no subtraction of a move fails, whosever turn it is. -/
theorem step?_eq (h : Accounts b r) (myTurn : Bool) (task : Task) :
    task.step? b myTurn = some (task.step b myTurn) := by
  cases task with
  | write w =>
    cases hvoid : w.isVoid with
    | true => simp [Task.step?, Task.step, hvoid]
    | false =>
      cases myTurn with
      | true => simp [Task.step?, Task.step, hvoid, h.begin?_eq]
      | false => simp [Task.step?, Task.step, hvoid]
  | draining =>
    cases hoffer : b.canOffer with
    | true => simp [Task.step?, Task.step, hoffer, h.offer?_eq]
    | false => simp [Task.step?, Task.step, hoffer]
  | read =>
    cases htake : b.take with
    | chunk chunk rest => simp [Task.step?, Task.step, h.take?_eq, htake]
    | nothing => simp [Task.step?, Task.step, h.take?_eq, htake]
    | closed => simp [Task.step?, Task.step, h.take?_eq, htake]
  | gather least got =>
    by_cases henough : least ≤ got.length
    · simp [Task.step?, Task.step, henough]
    · cases htake : b.take with
      | chunk chunk rest => simp [Task.step?, Task.step, henough, h.take?_eq, htake]
      | nothing => simp [Task.step?, Task.step, henough, h.take?_eq, htake]
      | closed => simp [Task.step?, Task.step, henough, h.take?_eq, htake]

end Accounts

/-! ## What readers have -/

def Answer.data : Answer → Bytes
  | .bytes data => data
  | .done => []
  | .closed => []

def Task.held : Task → Bytes
  | .gather _ got => got
  | .write _ => []
  | .draining => []
  | .read => []

/-- The bytes that a call has after its move, with itself or in its answer. -/
def Task.Step.kept : Task.Step → Bytes
  | .stuck => []
  | .moved rest _ => rest.held
  | .finished answer _ => answer.data

theorem Task.Step.kept_ofWriter (b : Buffer) : (Task.Step.ofWriter b).kept = [] := by
  unfold Task.Step.ofWriter
  split <;> rfl

/-- What a call has after its move is what it had and, behind it, what it has received. -/
theorem Task.kept_step (b : Buffer) (task : Task) (myTurn : Bool)
    (hmove : task.step b myTurn ≠ .stuck) :
    (task.step b myTurn).kept =
      task.held ++ (task.received (task.step b myTurn)).flatten := by
  cases task with
  | write w =>
    cases hvoid : w.isVoid with
    | true => simp [step, hvoid, held, received, Step.kept, Answer.data]
    | false =>
      cases myTurn with
      | true => simp [step, hvoid, held, received, Step.kept_ofWriter]
      | false => exact absurd (by simp [step, hvoid]) hmove
  | draining =>
    cases hoffer : b.canOffer with
    | true => simp [step, hoffer, held, received, Step.kept_ofWriter]
    | false => exact absurd (by simp [step, hoffer]) hmove
  | read =>
    cases htake : b.take with
    | nothing => exact absurd (by simp only [step, htake]) hmove
    | closed => simp [step, htake, held, received, Step.kept, Answer.data]
    | chunk chunk rest => simp [step, htake, held, received, Step.kept, Answer.data]
  | gather least got =>
    by_cases henough : least ≤ got.length
    · simp [step, henough, held, received, Step.kept, Answer.data]
    · cases htake : b.take with
      | nothing => exact absurd (by simp only [step, henough, if_false, htake]) hmove
      | chunk chunk rest => simp [step, henough, htake, held, received, Step.kept]
      | closed =>
        simp only [step, henough, if_false, htake, held, received, Step.kept]
        -- Without a chunk taken the answer is that the buffer is closed.
        cases got with
        | nil => rfl
        | cons byte got => simp [Answer.data]

namespace History

/-- What each call has of the stream, with its number: its answer if it is finished, or else what
it holds. -/
def holdings (h : History) : List (Nat × Bytes) :=
  (h.answers.map fun a => (a.1, a.2.data)) ++ h.session.pending.map fun p => (p.1, p.2.held)

theorem holdings_resume {h : History} {before after : List (Nat × Task)} {number : Nat}
    {task : Task} (hpending : h.session.pending = before ++ (number, task) :: after)
    (myTurn : Bool) :
    ∃ others, h.holdings.Perm ((number, task.held) :: others) ∧
      (h.resume before after number task (task.step h.buffer myTurn)).holdings.Perm
        ((number, task.held ++ (task.received (task.step h.buffer myTurn)).flatten) :: others) := by
  have hhere : h.holdings.Perm ((number, task.held) ::
      ((h.answers.map fun a => (a.1, a.2.data)) ++
        ((before.map fun p => (p.1, p.2.held)) ++ after.map fun p => (p.1, p.2.held)))) := by
    rw [holdings, hpending, List.map_append, List.map_cons]
    exact (List.perm_middle.append_left _).trans List.perm_middle
  refine ⟨_, hhere, ?_⟩
  have hkept := task.kept_step h.buffer myTurn
  cases hstep : task.step h.buffer myTurn with
  | stuck =>
    rw [task.received_stuck, List.flatten_nil, List.append_nil]
    exact hhere
  | moved rest b =>
    rw [hstep] at hkept
    rw [← hkept (by simp)]
    simp only [holdings, resume, List.map_append, List.append_assoc]
    exact (List.perm_middle.append_left _).trans List.perm_middle
  | finished answer b =>
    rw [hstep] at hkept
    rw [← hkept (by simp)]
    simp only [holdings, resume, List.map_append, List.append_nil, List.append_assoc]
    exact List.perm_middle

theorem holdings_perm_resume {h : History} {before after : List (Nat × Task)} {number : Nat}
    {task : Task} {myTurn : Bool}
    (hold : (h.holdings.flatMap Prod.snd).Perm h.record.taken.flatten)
    (hpending : h.session.pending = before ++ (number, task) :: after) :
    ((h.resume before after number task (task.step h.buffer myTurn)).holdings.flatMap
        Prod.snd).Perm
      (h.resume before after number task (task.step h.buffer myTurn)).record.taken.flatten := by
  obtain ⟨others, hbefore, hafter⟩ := holdings_resume hpending myTurn
  have hhad := (hbefore.flatMap_right Prod.snd).symm.trans hold
  refine (hafter.flatMap_right Prod.snd).trans ?_
  rw [taken_resume, List.flatten_append, List.flatMap_cons, List.append_assoc]
  rw [List.flatMap_cons] at hhad
  exact (List.perm_append_comm.append_left _).trans
    ((List.append_assoc ..).symm ▸ hhad.append_right _)

theorem holdings_perm_happen {h : History}
    (hold : (h.holdings.flatMap Prod.snd).Perm h.record.taken.flatten) (o : Occurrence) :
    ((h.happen o).holdings.flatMap Prod.snd).Perm (h.happen o).record.taken.flatten := by
  cases o with
  | close => exact hold
  | start number call =>
    have hnone : call.task.held = [] := by cases call <;> rfl
    simpa [happen, holdings, hnone] using hold
  | move place =>
    rcases h.happen_move_cases place with hstay | ⟨_, _, _, _, hpending, hmove⟩
    · rw [hstay]
      exact hold
    · rw [hmove]
      exact holdings_perm_resume hold hpending

/-- At every moment of every history calls have what they have received. -/
theorem holdings_perm_run {h : History}
    (hold : (h.holdings.flatMap Prod.snd).Perm h.record.taken.flatten)
    (schedule : List Occurrence) :
    ((h.run schedule).holdings.flatMap Prod.snd).Perm (h.run schedule).record.taken.flatten := by
  induction schedule generalizing h with
  | nil => exact hold
  | cons o schedule ih => exact ih (holdings_perm_happen hold o)

theorem length_holdings (h : History) :
    (h.holdings.flatMap Prod.snd).length = total (fun a => a.2.data.length) h.answers
      + total (fun p => p.2.held.length) h.session.pending := by
  rw [length_flatMap_eq, holdings, total_append, total_map, total_map]

end History

/-- At every moment of every history of a new buffer the running counts say what is parked, what
waits to be read and where the stream goes on; every delivered byte is in the answer of a
finished call, with an unfinished one or in the hand-off; and whatever call moves next, no count
is lowered by more than it holds. -/
theorem counts_exact (s : Seq) (window : UInt32) (capacity : Nat) (schedule : List Occurrence) :
    let h := (History.ofBuffer (.startingAt s window capacity)).run schedule
    h.buffer.buffered = h.buffer.parked.bytes ∧
      h.buffer.available =
        total List.length h.buffer.handoff.items + total List.length h.buffer.sending.toList ∧
      h.buffer.published = h.buffer.expected ∧
      h.buffer.delivered =
        total (fun a => a.2.data.length) h.answers
          + total (fun p => p.2.held.length) h.session.pending
          + total List.length h.buffer.handoff.items ∧
      ∀ (task : Task) (myTurn : Bool),
        task.step? h.buffer myTurn = some (task.step h.buffer myTurn) := by
  intro h
  have haccounts : Accounts h.buffer h.record :=
    accounts_run rfl (.startingAt s window capacity) schedule
  have hreceived : (h.holdings.flatMap Prod.snd).Perm h.record.taken.flatten :=
    History.holdings_perm_run (List.Perm.refl _) schedule
  refine ⟨haccounts.buffered, haccounts.available, haccounts.published, ?_, ?_⟩
  · have hdelivered := haccounts.delivered
    rw [haccounts.queue, total_append, total_length_eq h.record.taken, ← hreceived.length_eq,
      h.length_holdings] at hdelivered
    exact hdelivered
  · exact fun task myTurn => haccounts.step?_eq myTurn task

end StreamTap
