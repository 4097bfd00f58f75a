import StreamTap.Proofs.Stream.Drain
import StreamTap.Proofs.Stream.History
import StreamTap.Proofs.Stream.Scheduler

/-!
# Who waits, and for what

A reader waits for a chunk, a writer waits for room or for the writers before it.  When no call
can move any more it is one of these alone: all that are left are readers of an empty hand-off,
or all are writers, and then the hand-off is full and the first of them has a chunk on offer.
Readers and writers never wait for each other, because a hand-off that is empty has room and one
that is full has something to read.  A closed buffer makes nobody wait (`no_lost_wakeup`).

Such a state is always reached.  Every move that changes something lowers the weight of the
session (`weight_happen_move`), so the calls cannot go on moving for ever, and a session is at
rest after every request that it has granted (`atRest_serve`).
-/

namespace StreamTap

namespace Task

/-- Whether the next move of a task takes a chunk out of the hand-off. -/
def wantsChunk : Task → Bool
  | .write _ => false
  | .draining => false
  | .read => true
  | .gather least got => got.length < least

/-! ## Every move lowers the weight -/

/-- What a move leaves to do, in the buffer and for the call. -/
def Step.weight : Step → Nat
  | .stuck => 0
  | .moved rest b => b.weight + rest.weight
  | .finished _ b => b.weight

theorem Step.weight_ofWriter_le (b : Buffer) : (Step.ofWriter b).weight ≤ b.weight + 1 := by
  unfold Step.ofWriter
  split
  · exact Nat.le_refl _
  · exact Nat.le_succ _

end Task

theorem Buffer.weight_taken {b : Buffer} {chunk : Bytes} {rest : List Bytes}
    (h : b.handoff.items = chunk :: rest) : (b.taken chunk rest).weight + 1 = b.weight := by
  show 3 * b.parked.size + (if b.sending.isSome then 2 else 0) + rest.length + 1 = b.weight
  rw [Buffer.weight, h, List.length_cons]
  omega

namespace Task

/-- A move lowers the weight.  A write must find nothing on offer when it begins. -/
theorem weight_step_lt {b : Buffer} {myTurn : Bool} {task : Task}
    (hfree : ∀ w, task = .write w → w.isVoid = false → myTurn = true → b.sending = none) :
    (task.step b myTurn).weight < b.weight + task.weight := by
  cases task with
  | write w =>
    cases hvoid : w.isVoid with
    | true => simp [step, hvoid, Step.weight, weight]
    | false =>
      cases myTurn with
      | false => simp [step, hvoid, Step.weight, weight]
      | true =>
        have hbegin := b.weight_begin_le w (hfree w rfl hvoid rfl)
        have hwriter := Step.weight_ofWriter_le (b.begin w)
        simp only [step, hvoid, Bool.false_eq_true, if_false, if_true, weight]
        omega
  | draining =>
    cases hoffer : b.canOffer with
    | false => simp [step, hoffer, Step.weight, weight]
    | true =>
      have hlt := Buffer.weight_offer_lt hoffer
      have hwriter := Step.weight_ofWriter_le b.offer
      simp only [step, hoffer, if_true, weight]
      omega
  | read =>
    rcases b.take_cases with ⟨chunk, rest, hitems, htake⟩ | ⟨-, -, htake⟩ | ⟨-, -, htake⟩
    · have htaken := Buffer.weight_taken hitems
      simp only [step, htake, Step.weight, weight]
      omega
    · simp [step, htake, Step.weight, weight]
    · simp [step, htake, Step.weight, weight]
  | gather least got =>
    by_cases henough : least ≤ got.length
    · simp [step, henough, Step.weight, weight]
    · rcases b.take_cases with ⟨chunk, rest, hitems, htake⟩ | ⟨-, -, htake⟩ | ⟨-, -, htake⟩
      · have htaken := Buffer.weight_taken hitems
        simp only [step, henough, if_false, htake, Step.weight, weight]
        omega
      · simp [step, henough, htake, Step.weight, weight]
      · simp [step, henough, htake, Step.weight, weight]

/-- A task that looks for a chunk waits exactly while an open hand-off is empty. -/
theorem step_eq_stuck_iff {b : Buffer} {myTurn : Bool} {task : Task}
    (h : task.wantsChunk = true) :
    task.step b myTurn = .stuck ↔ b.isClosed = false ∧ b.handoff.items = [] := by
  have hlooks : task.step b myTurn = .stuck ↔ b.take = .nothing := by
    cases task with
    | write w => cases h
    | draining => cases h
    | read =>
      cases htake : b.take <;> simp [step, htake]
    | gather least got =>
      have hmore : ¬least ≤ got.length := by simpa [wantsChunk] using h
      cases htake : b.take <;> simp [step, hmore, htake]
  rw [hlooks]
  rcases b.take_cases with ⟨_, _, hitems, htake⟩ | ⟨hitems, hopen, htake⟩ | ⟨hitems, hclosed, htake⟩
  · simp [hitems, htake]
  · simp [hitems, hopen, htake]
  · simp [hitems, hclosed, htake]

def Outcome.weight : Outcome → Nat
  | .waits task => task.weight
  | .finished _ => 0

/-- What is left of a call that has moved: a writer has a chunk on offer, and a reader who
collects chunks has one more. -/
theorem moved_cases {b b' : Buffer} {myTurn : Bool} {task rest : Task}
    (h : task.step b myTurn = .moved rest b') :
    (rest = .draining ∧ task.blocksWriters = true) ∨
      ∃ least got chunk, task = .gather least got ∧ rest = .gather least (got ++ chunk) := by
  cases task with
  | write w =>
    simp only [step, Step.ofWriter] at h
    split at h
    · cases h
    · rename_i hvoid
      split at h
      · split at h
        · cases h
          exact Or.inl ⟨rfl, by simpa [blocksWriters] using hvoid⟩
        · cases h
      · cases h
  | draining =>
    simp only [step, Step.ofWriter] at h
    split at h
    · split at h
      · cases h
        exact Or.inl ⟨rfl, rfl⟩
      · cases h
    · cases h
  | read =>
    simp only [step] at h
    split at h <;> cases h
  | gather least got =>
    simp only [step] at h
    split at h
    · cases h
    · split at h
      · cases h
        exact Or.inr ⟨least, got, _, rfl, rfl⟩
      · cases h
      · cases h

theorem ne_write_of_moved {b b' : Buffer} {myTurn : Bool} {task rest : Task}
    (h : task.step b myTurn = .moved rest b') (w : Write) : rest ≠ .write w := by
  rintro rfl
  rcases moved_cases h with ⟨hdraining, -⟩ | ⟨_, _, _, -, hgather⟩
  · cases hdraining
  · cases hgather

theorem weight_moves_le {b : Buffer} {myTurn : Bool} {task : Task} (n : Nat)
    (hfree : ∀ w, task = .write w → w.isVoid = false → myTurn = true → b.sending = none) :
    (task.moves myTurn n b).1.weight + (task.moves myTurn n b).2.weight
      ≤ b.weight + task.weight := by
  induction n generalizing b task with
  | zero => exact Nat.le_refl _
  | succ n ih =>
    have hlt := weight_step_lt hfree
    cases hstep : task.step b myTurn with
    | stuck => simp [moves, hstep, Outcome.weight]
    | moved rest b' =>
      rw [hstep] at hlt
      simp only [Step.weight] at hlt
      simp only [moves, hstep]
      have hrest : (rest.moves myTurn n b').1.weight + (rest.moves myTurn n b').2.weight
          ≤ b'.weight + rest.weight := ih fun w hw => absurd hw (ne_write_of_moved hstep w)
      omega
    | finished answer b' =>
      rw [hstep] at hlt
      simp only [Step.weight] at hlt
      simp only [moves, hstep, Outcome.weight]
      omega

theorem stuck_of_turn {b : Buffer} {myTurn : Bool} {task : Task}
    (hfree : ∀ w, task = .write w → w.isVoid = false → myTurn = true → b.sending = none)
    (h : task.turn b myTurn = (b, .waits task)) : task.step b myTurn = .stuck := by
  have hlt := weight_step_lt hfree
  obtain ⟨n, hn⟩ : ∃ n, b.weight + task.weight = n + 1 :=
    Nat.exists_eq_succ_of_ne_zero (by omega)
  rw [turn, hn] at h
  cases hstep : task.step b myTurn with
  | stuck => rfl
  | moved rest b' =>
    rw [hstep] at hlt
    have hle : (rest.moves myTurn n b').1.weight + (rest.moves myTurn n b').2.weight
        ≤ b'.weight + rest.weight :=
      weight_moves_le n fun w hw => absurd hw (ne_write_of_moved hstep w)
    simp only [moves, hstep] at h
    rw [h] at hle
    simp only [Step.weight] at hlt
    simp only [Outcome.weight] at hle
    omega
  | finished answer b' =>
    simp only [moves, hstep, Prod.mk.injEq] at h
    cases h.2

end Task

namespace History

section Weight

variable {h : History} {waiting : List Write}

theorem free_of_inTurn {before after : List (Nat × Task)} {number : Nat} {task : Task}
    (hturn : InTurn h.session waiting)
    (hpending : h.session.pending = before ++ (number, task) :: after) :
    ∀ w, task = .write w → w.isVoid = false →
      (before.all fun p => !p.2.blocksWriters) = true → h.buffer.sending = none := by
  rintro w rfl hvoid hfirst
  have hhere : InTurn ⟨h.buffer, before ++ (number, .write w) :: after⟩ waiting := by
    rw [← hpending]
    exact hturn
  exact (hhere.of_write hvoid (writersAmong_eq_nil_iff.2 hfirst)).1

theorem weight_resume_lt {before after : List (Nat × Task)} {number : Nat} {task : Task}
    (hturn : InTurn h.session waiting)
    (hpending : h.session.pending = before ++ (number, task) :: after)
    (hmoves : task.step h.buffer (before.all fun p => !p.2.blocksWriters) ≠ .stuck) :
    (h.resume before after number task
      (task.step h.buffer (before.all fun p => !p.2.blocksWriters))).session.weight
        < h.session.weight := by
  have hlt := Task.weight_step_lt (free_of_inTurn hturn hpending)
  have hwhole : h.session.weight = h.buffer.weight
      + (total (fun p => p.2.weight) before + (task.weight
        + total (fun p => p.2.weight) after)) := by
    simp [Session.weight, hpending, buffer]
  cases hstep : task.step h.buffer (before.all fun p => !p.2.blocksWriters) with
  | stuck => exact absurd hstep hmoves
  | moved rest b =>
    rw [hstep] at hlt
    simp only [Task.Step.weight] at hlt
    rw [hwhole]
    simp only [resume, Session.weight, total_append, total_cons, total_nil]
    omega
  | finished answer b =>
    rw [hstep] at hlt
    simp only [Task.Step.weight] at hlt
    rw [hwhole]
    simp only [resume, Session.weight, total_append, total_nil]
    omega

theorem weight_happen_move (hturn : InTurn h.session waiting) (place : Nat) :
    h.happen (.move place) = h ∨ (h.happen (.move place)).session.weight < h.session.weight := by
  rcases h.happen_move_cases place with hstay | ⟨before, number, task, after, hpending, hmove⟩
  · exact Or.inl hstay
  · rw [hmove]
    by_cases hstuck : task.step h.buffer (before.all fun p => !p.2.blocksWriters) = .stuck
    · rw [hstuck]
      exact Or.inl rfl
    · exact Or.inr (weight_resume_lt hturn hpending hstuck)

end Weight

theorem Leads.inTurn {h h' : History} {waiting : List Write} (hturn : InTurn h.session waiting)
    (hleads : Leads h h') : ∃ waiting', InTurn h'.session waiting' := by
  obtain ⟨places, rfl⟩ := hleads
  induction places generalizing h waiting with
  | nil => exact ⟨waiting, hturn⟩
  | cons place places ih =>
    obtain ⟨waiting', hturn', -⟩ := (follows_happen hturn (.move place)).inTurn
    exact ih hturn'

theorem Leads.eq_or_lt {h h' : History} {waiting : List Write} (hturn : InTurn h.session waiting)
    (hleads : Leads h h') : h' = h ∨ h'.session.weight < h.session.weight := by
  obtain ⟨places, rfl⟩ := hleads
  induction places generalizing h waiting with
  | nil => exact Or.inl rfl
  | cons place places ih =>
    obtain ⟨waiting', hturn', -⟩ := (follows_happen hturn (.move place)).inTurn
    have hrest := ih hturn'
    rw [List.map_cons, run_cons]
    rcases weight_happen_move hturn place with hstay | hlt
    · rw [hstay] at hrest ⊢
      exact hrest
    · rcases hrest with hsame | hless
      · rw [hsame]
        exact Or.inr hlt
      · exact Or.inr (Nat.lt_trans hless hlt)

/-! ## When nobody can move -/

/-- No unfinished call can make a move. -/
def AtRest (h : History) : Prop := ∀ place, h.happen (.move place) = h

theorem atRest_iff (h : History) :
    h.AtRest ↔ ∀ place < h.session.pending.length, h.happen (.move place) = h := by
  constructor
  · intro hrest place _
    exact hrest place
  · intro hrest place
    by_cases hplace : place < h.session.pending.length
    · exact hrest place hplace
    · have hnone : h.session.pending[place]? = none :=
        List.getElem?_eq_none_iff.2 (Nat.le_of_not_lt hplace)
      simp only [happen, hnone]

instance (h : History) : Decidable h.AtRest := decidable_of_iff _ h.atRest_iff.symm

theorem AtRest.stuck {h : History} {waiting : List Write} (hrest : h.AtRest)
    (hturn : InTurn h.session waiting) {before after : List (Nat × Task)} {number : Nat}
    {task : Task} (hpending : h.session.pending = before ++ (number, task) :: after) :
    task.step h.buffer (before.all fun p => !p.2.blocksWriters) = .stuck := by
  apply Classical.byContradiction
  intro hmoves
  have hlt := weight_resume_lt hturn hpending hmoves
  rw [← happen_move hpending, hrest] at hlt
  exact Nat.lt_irrefl _ hlt

theorem atRest_of_stuck {h : History}
    (hstuck : ∀ before number task after, h.session.pending = before ++ (number, task) :: after →
      task.step h.buffer (before.all fun p => !p.2.blocksWriters) = .stuck) : h.AtRest := by
  intro place
  rcases h.happen_move_cases place with hstay | ⟨before, number, task, after, hpending, hmove⟩
  · exact hstay
  · rw [hmove, hstuck before number task after hpending]
    rfl

/-! ### A session comes to rest -/

section Turns

variable {waiting : List Write} {before pending : List (Nat × Task)} {number : Nat} {task : Task}
  {b b' : Buffer}

theorem weight_turns_le (hturn : InTurn ⟨b, before ++ pending⟩ waiting) :
    (⟨(Session.turns b (before.all fun p => !p.2.blocksWriters) pending).1.buffer,
      before ++ (Session.turns b (before.all fun p => !p.2.blocksWriters) pending).1.pending⟩ :
        Session).weight ≤ (⟨b, before ++ pending⟩ : Session).weight := by
  obtain ⟨_, hleads⟩ := leads_turns before b {} [] pending
  rcases hleads.eq_or_lt hturn with heq | hlt
  · exact Nat.le_of_eq (congrArg (fun h => (session h).weight) heq)
  · exact Nat.le_of_lt hlt

theorem turn_same_or_lt {outcome : Task.Outcome}
    (hturn : InTurn ⟨b, before ++ (number, task) :: pending⟩ waiting)
    (hout : task.turn b (before.all fun p => !p.2.blocksWriters) = (b', outcome)) :
    (∃ waiting', InTurn ⟨b', before ++ outcome.rest number ++ pending⟩ waiting') ∧
      (b' = b ∧ outcome = .waits task ∨
        (⟨b', before ++ outcome.rest number ++ pending⟩ : Session).weight
          < (⟨b, before ++ (number, task) :: pending⟩ : Session).weight) := by
  obtain ⟨_, hleads⟩ := leads_moves before pending number task b {} [] (b.weight + task.weight)
  rw [show task.moves (before.all fun p => !p.2.blocksWriters) (b.weight + task.weight) b
    = (b', outcome) from hout] at hleads
  refine ⟨hleads.inTurn hturn, (hleads.eq_or_lt hturn).imp_left ?_⟩
  intro heq
  cases outcome with
  | finished answer =>
    simp only [mk.injEq, Task.Outcome.answers] at heq
    cases heq.2.2
  | waits task' =>
    simp only [Task.Outcome.rest, mk.injEq, Session.mk.injEq, List.append_assoc,
      List.singleton_append, List.append_cancel_left_eq, List.cons.injEq, Prod.mk.injEq, true_and,
      and_true] at heq
    obtain ⟨⟨rfl, rfl⟩, -⟩ := heq
    exact ⟨rfl, rfl⟩

theorem stuck_of_turns (hturn : InTurn ⟨b, before ++ pending⟩ waiting)
    (hsame : ¬(⟨(Session.turns b (before.all fun p => !p.2.blocksWriters) pending).1.buffer,
      before ++ (Session.turns b (before.all fun p => !p.2.blocksWriters) pending).1.pending⟩ :
        Session).weight < (⟨b, before ++ pending⟩ : Session).weight) :
    ∀ pre number task post, pending = pre ++ (number, task) :: post →
      task.step b ((before ++ pre).all fun p => !p.2.blocksWriters) = .stuck := by
  induction pending generalizing before b waiting with
  | nil =>
    intro pre number task post hsplit
    simp at hsplit
  | cons first pending ih =>
    obtain ⟨number, task⟩ := first
    rw [Session.turns] at hsame
    cases hout : task.turn b (before.all fun p => !p.2.blocksWriters) with
    | mk b' outcome =>
      obtain ⟨⟨waiting', hturn'⟩, hfirst⟩ := turn_same_or_lt hturn hout
      rw [hout] at hsame
      cases outcome with
      | finished answer =>
        have hlt := hfirst.resolve_left fun hstay => by cases hstay.2
        simp only [Task.Outcome.rest, List.append_nil] at hlt hturn'
        exact absurd (Nat.lt_of_le_of_lt (weight_turns_le hturn') hlt) hsame
      | waits task' =>
        simp only [Task.Outcome.rest] at hfirst hturn'
        have hall : ((before ++ [(number, task')]).all fun p => !p.2.blocksWriters) =
            ((before.all fun p => !p.2.blocksWriters) && !task'.blocksWriters) := by simp
        have hbehind : ¬(⟨(Session.turns b' ((before ++ [(number, task')]).all
            fun p => !p.2.blocksWriters) pending).1.buffer, before ++ [(number, task')] ++
              (Session.turns b' ((before ++ [(number, task')]).all
                fun p => !p.2.blocksWriters) pending).1.pending⟩ : Session).weight <
            (⟨b, before ++ (number, task) :: pending⟩ : Session).weight := by
          rw [hall, List.append_assoc]
          exact hsame
        have hstay := hfirst.resolve_right fun hlt =>
          hbehind (Nat.lt_of_le_of_lt (weight_turns_le hturn') hlt)
        obtain ⟨rfl, ⟨⟩⟩ := hstay
        intro pre n t post hsplit
        cases pre with
        | nil =>
          rw [List.nil_append, List.cons.injEq, Prod.mk.injEq] at hsplit
          obtain ⟨⟨rfl, rfl⟩, rfl⟩ := hsplit
          rw [List.append_nil]
          exact Task.stuck_of_turn (free_of_inTurn (h := ⟨_, {}, []⟩) hturn rfl) hout
        | cons p pre =>
          rw [List.cons_append, List.cons.injEq] at hsplit
          obtain ⟨rfl, hsplit⟩ := hsplit
          rw [← List.singleton_append, ← List.append_assoc]
          refine ih hturn' ?_ pre n t post hsplit
          rw [List.append_assoc before [(number, task)] pending]
          exact hbehind

end Turns

/-- A session whose writers are in turn comes to rest in as many rounds as it weighs. -/
theorem atRest_rounds {n : Nat} {s : Session} {waiting : List Write} (hturn : InTurn s waiting)
    (hn : s.weight < n) (r : Record) (answers : List (Nat × Answer)) :
    AtRest ⟨(s.rounds n).1, r, answers⟩ := by
  induction n generalizing s waiting with
  | zero => exact absurd hn (Nat.not_lt_zero _)
  | succ n ih =>
    obtain ⟨r', hleads⟩ := leads_turns [] s.buffer {} [] s.pending
    simp only [List.nil_append, List.all_nil] at hleads
    rw [Session.rounds]
    by_cases hless : (Session.turns s.buffer true s.pending).1.weight < s.weight
    · obtain ⟨waiting', hturn'⟩ := hleads.inTurn hturn
      simp only [hless, if_true]
      exact ih hturn' (by omega)
    · simp only [hless, if_false]
      have heq := (hleads.eq_or_lt hturn).resolve_right hless
      have hbehind : InTurn ⟨s.buffer, [] ++ s.pending⟩ waiting := hturn
      have hstuck := stuck_of_turns hbehind hless
      have hsession : (Session.turns s.buffer true s.pending).1 = s :=
        congrArg History.session heq
      rw [hsession]
      exact atRest_of_stuck hstuck

theorem atRest_grant {s : Session} {waiting : List Write} (hturn : InTurn s waiting)
    (q : Request) :
    (∃ waiting', InTurn (s.grant q).1 waiting') ∧
      ∀ r answers, AtRest ⟨(s.grant q).1, r, answers⟩ := by
  have hasked := (follows_happen (h := ⟨s, {}, []⟩) hturn q.occurrence).inTurn
  cases q with
  | start number call =>
    obtain ⟨waiting', hturn', -⟩ := hasked
    obtain ⟨_, hleads⟩ := leads_settle ⟨s.buffer, s.pending ++ [(number, call.task)]⟩ {} []
    exact ⟨hleads.inTurn hturn', atRest_rounds hturn' (Nat.lt_succ_self _)⟩
  | close =>
    obtain ⟨waiting', hturn', -⟩ := hasked
    obtain ⟨_, hleads⟩ := leads_settle ⟨s.buffer.close, s.pending⟩ {} []
    exact ⟨hleads.inTurn hturn', atRest_rounds hturn' (Nat.lt_succ_self _)⟩

/-- Whatever requests a session has served, no call of it can move. -/
theorem atRest_serve {b : Buffer} (hsending : b.sending = none) (qs : List Request) (r : Record)
    (answers : List (Nat × Answer)) : AtRest ⟨((Session.ofBuffer b).serve qs).1, r, answers⟩ := by
  suffices hserve : ∀ (s : Session) waiting, InTurn s waiting →
      (∀ r answers, AtRest ⟨s, r, answers⟩) → ∀ r answers, AtRest ⟨(s.serve qs).1, r, answers⟩ by
    have hbegin : InTurn (Session.ofBuffer b) [] := by
      refine ⟨?_, by simp⟩
      simp [Session.ofBuffer, hsending]
    refine hserve _ _ hbegin ?_ r answers
    intro r answers place
    simp [happen, Session.ofBuffer]
  induction qs with
  | nil =>
    intro s waiting _ hrest
    exact hrest
  | cons q qs ih =>
    intro s waiting hturn _
    obtain ⟨⟨waiting', hturn'⟩, hrest⟩ := atRest_grant hturn q
    exact ih _ waiting' hturn' hrest

/-! ## Readers or writers -/

/-- All unfinished calls are readers, and there is nothing to read yet. -/
structure ReadersWait (h : History) : Prop where
  isOpen : h.buffer.isClosed = false
  nothing : h.buffer.handoff.items = []
  readers : ∀ p ∈ h.session.pending, p.2.wantsChunk = true

/-- All unfinished calls are writers, and there is no room.  The first of them has its chunk on
offer, and the writes of the others are the last of those in `asked` and have not begun. -/
structure WritersWait (h : History) (asked : List Write) : Prop where
  isOpen : h.buffer.isClosed = false
  full : h.buffer.handoff.items.length = h.buffer.handoff.capacity
  inLine : ∃ chunk number others waiting,
    h.buffer.sending = some chunk ∧
      h.session.pending = (number, .draining) :: others ∧
      others.map Prod.snd = waiting.map Task.write ∧
      h.record.begun ++ waiting = asked.filter fun w => !w.isVoid

end History

/-- The first writer, and the calls before it and behind it. -/
theorem split_of_writersAmong {pending : List (Nat × Task)} {task : Task} {others : List Task}
    (h : writersAmong pending = task :: others) :
    ∃ before number after, pending = before ++ (number, task) :: after ∧
      writersAmong before = [] ∧ writersAmong after = others := by
  induction pending with
  | nil => cases h
  | cons p pending ih =>
    obtain ⟨number, first⟩ := p
    cases hblocks : first.blocksWriters with
    | true =>
      have hone : writersAmong [(number, first)] = [first] := by simp [writersAmong, hblocks]
      rw [writersAmong_cons, hone, List.singleton_append, List.cons.injEq] at h
      obtain ⟨rfl, hothers⟩ := h
      exact ⟨[], number, pending, rfl, rfl, hothers⟩
    | false =>
      have hone : writersAmong [(number, first)] = [] := by simp [writersAmong, hblocks]
      rw [writersAmong_cons, hone, List.nil_append] at h
      obtain ⟨before, n, after, rfl, hbefore, hafter⟩ := ih h
      refine ⟨(number, first) :: before, n, after, rfl, ?_, hafter⟩
      rw [writersAmong_cons, hone, hbefore]
      rfl

namespace History

section Rest

variable {h : History} {waiting : List Write}

theorem wants_or_blocks_of_stuck {b : Buffer} {myTurn : Bool} {task : Task}
    (hstuck : task.step b myTurn = .stuck) :
    task.wantsChunk = true ∨ task.blocksWriters = true := by
  cases task with
  | write w =>
    cases hvoid : w.isVoid with
    | true => simp [Task.step, hvoid] at hstuck
    | false => exact Or.inr (by simp [Task.blocksWriters, hvoid])
  | draining => exact Or.inr rfl
  | read => exact Or.inl rfl
  | gather least got =>
    by_cases henough : least ≤ got.length
    · simp [Task.step, henough] at hstuck
    · exact Or.inl (by simpa [Task.wantsChunk] using henough)

theorem AtRest.empty (hrest : h.AtRest) (hturn : InTurn h.session waiting) {p : Nat × Task}
    (hp : p ∈ h.session.pending) (hwants : p.2.wantsChunk = true) :
    h.buffer.isClosed = false ∧ h.buffer.handoff.items = [] := by
  obtain ⟨before, after, hpending⟩ := List.append_of_mem hp
  exact (Task.step_eq_stuck_iff hwants).1 (hrest.stuck hturn hpending)

/-- Where nothing is on offer no writer is left, for the first one could begin. -/
theorem AtRest.waiting_eq_nil (hrest : h.AtRest) (hturn : InTurn h.session waiting)
    (hnone : h.buffer.sending = none) : waiting = [] := by
  have hwriters := hturn.writers
  have hnone' : h.session.buffer.sending = none := hnone
  rw [hnone', Option.isSome_none, if_neg Bool.false_ne_true, List.nil_append] at hwriters
  cases waiting with
  | nil => rfl
  | cons w others =>
    obtain ⟨before, number, after, hpending, hbefore, -⟩ := split_of_writersAmong hwriters
    have hstuck := hrest.stuck hturn hpending
    have hvoid := hturn.asking w List.mem_cons_self
    have hfirst := writersAmong_eq_nil_iff.1 hbefore
    simp only [Task.step, hvoid, Bool.false_eq_true, if_false, hfirst, if_true,
      Task.Step.ofWriter] at hstuck
    split at hstuck <;> cases hstuck

theorem AtRest.full (hrest : h.AtRest) (hturn : InTurn h.session waiting) {chunk : Bytes}
    (hsending : h.buffer.sending = some chunk) :
    h.buffer.isClosed = false ∧ h.buffer.handoff.capacity ≤ h.buffer.handoff.items.length := by
  have hwriters := hturn.writers
  have hsending' : h.session.buffer.sending = some chunk := hsending
  rw [hsending', Option.isSome_some, if_pos rfl, List.singleton_append] at hwriters
  obtain ⟨before, number, after, hpending, -, -⟩ := split_of_writersAmong hwriters
  have hstuck := hrest.stuck hturn hpending
  have hoffer : h.buffer.canOffer = false := by
    cases hcan : h.buffer.canOffer with
    | false => rfl
    | true =>
      simp only [Task.step, hcan, if_true, Task.Step.ofWriter] at hstuck
      split at hstuck <;> cases hstuck
  have hcannot := (not_congr h.buffer.canOffer_iff).1 (by simp [hoffer])
  rw [not_and, not_or, Bool.not_eq_true] at hcannot
  obtain ⟨hopen, hfull⟩ := hcannot ⟨chunk, hsending⟩
  exact ⟨hopen, Nat.le_of_not_lt hfull⟩

theorem AtRest.readersWait (hrest : h.AtRest) (hturn : InTurn h.session waiting)
    (hnone : h.buffer.sending = none) (hsome : h.session.pending ≠ []) : h.ReadersWait := by
  have hreaders : ∀ p ∈ h.session.pending, p.2.wantsChunk = true := by
    intro p hp
    obtain ⟨before, after, hpending⟩ := List.append_of_mem hp
    refine (wants_or_blocks_of_stuck (hrest.stuck hturn hpending)).resolve_right ?_
    have hwriters := hturn.writers
    have hnone' : h.session.buffer.sending = none := hnone
    rw [hnone', hrest.waiting_eq_nil hturn hnone] at hwriters
    have hall := List.all_eq_true.1 (writersAmong_eq_nil_iff.1 hwriters) p hp
    simpa using hall
  obtain ⟨first, hfirst⟩ := List.exists_mem_of_ne_nil _ hsome
  obtain ⟨hopen, hnothing⟩ := hrest.empty hturn hfirst (hreaders first hfirst)
  exact ⟨hopen, hnothing, hreaders⟩

/-- With a chunk on offer only writers are left, for there is something to read. -/
theorem AtRest.writersWait (hrest : h.AtRest) (hturn : InTurn h.session waiting)
    {asked : List Write} (hbegun : h.record.begun ++ waiting = asked.filter fun w => !w.isVoid)
    (hfits : h.buffer.handoff.items.length ≤ h.buffer.handoff.capacity) {chunk : Bytes}
    (hsending : h.buffer.sending = some chunk) : h.WritersWait asked := by
  obtain ⟨hopen, hfull⟩ := hrest.full hturn hsending
  have hwriters : ∀ p ∈ h.session.pending, p.2.blocksWriters = true := by
    intro p hp
    obtain ⟨before, after, hpending⟩ := List.append_of_mem hp
    refine (wants_or_blocks_of_stuck (hrest.stuck hturn hpending)).resolve_left ?_
    intro hwants
    have hpos := h.buffer.handoff.capacity_pos
    rw [(hrest.empty hturn hp hwants).2, List.length_nil] at hfull
    omega
  -- All unfinished calls are writers, so they stand in line as they were started.
  have hall : h.session.pending.map Prod.snd = writersAmong h.session.pending := by
    refine (List.filter_eq_self.2 ?_).symm
    intro task htask
    obtain ⟨p, hp, rfl⟩ := List.mem_map.1 htask
    exact hwriters p hp
  have hsending' : h.session.buffer.sending = some chunk := hsending
  rw [hturn.writers, hsending', Option.isSome_some, if_pos rfl, List.singleton_append] at hall
  cases hpending : h.session.pending with
  | nil =>
    rw [hpending] at hall
    cases hall
  | cons first others =>
    obtain ⟨number, task⟩ := first
    rw [hpending, List.map_cons, List.cons.injEq] at hall
    obtain ⟨rfl, hothers⟩ := hall
    exact ⟨hopen, Nat.le_antisymm hfits hfull, chunk, number, others, waiting, hsending, hpending,
      hothers, hbegun⟩

end Rest

/-- The hand-off never holds more than fits. -/
theorem handoff_fits_run (s : Seq) (window : UInt32) (capacity : Nat)
    (schedule : List Occurrence) :
    ((ofBuffer (.startingAt s window capacity)).run schedule).buffer.handoff.items.length ≤
      ((ofBuffer (.startingAt s window capacity)).run schedule).buffer.handoff.capacity := by
  refine run_keeps (P := fun b _ => b.handoff.items.length ≤ b.handoff.capacity) rfl
    (Nat.zero_le _) ?_
  intro done o _ hfits hchange
  generalize ((ofBuffer (.startingAt s window capacity)).run (done ++ [o])).buffer = b',
    ((ofBuffer (.startingAt s window capacity)).run (done ++ [o])).record = r' at hchange ⊢
  cases hchange with
  | begun w _ hw =>
    rw [(Buffer.sameFront_begin _ hw).handoff]
    exact hfits
  | handed chunk _ _ hroom =>
    rw [Buffer.handoff_pull]
    simp only [Buffer.accepted, List.length_append, List.length_singleton]
    omega
  | lost chunk _ _ => exact hfits
  | taken chunk rest hitems =>
    rw [hitems, List.length_cons] at hfits
    exact Nat.le_of_succ_le hfits
  | closed _ => exact hfits

/-! ## Calls in the order of their start -/

end History

def Occurrence.call? : Occurrence → Option (Nat × Call)
  | .start number call => some (number, call)
  | .close => none
  | .move _ => none

def startedCalls (schedule : List Occurrence) : List (Nat × Call) :=
  schedule.filterMap Occurrence.call?

theorem startedCalls_append (schedule later : List Occurrence) :
    startedCalls (schedule ++ later) = startedCalls schedule ++ startedCalls later :=
  List.filterMap_append

theorem startedCalls_cons (o : Occurrence) (schedule : List Occurrence) :
    startedCalls (o :: schedule) = startedCalls [o] ++ startedCalls schedule :=
  startedCalls_append [o] schedule

namespace History

/-- The unfinished calls stand in the order in which they were started. -/
theorem pending_sublist_started (b : Buffer) (schedule : List Occurrence) :
    (((ofBuffer b).run schedule).session.pending.map Prod.fst).Sublist
      ((startedCalls schedule).map Prod.fst) := by
  refine prefix_induction (motive := fun done =>
    (((ofBuffer b).run done).session.pending.map Prod.fst).Sublist
      ((startedCalls done).map Prod.fst)) (List.Sublist.refl _) ?_
  intro done o _ hsub
  rw [run_snoc, startedCalls_append, List.map_append]
  cases o with
  | start number call =>
    simp only [happen, List.map_append, List.map_cons, List.map_nil]
    exact hsub.append (List.Sublist.refl _)
  | close => exact hsub.trans (List.sublist_append_left ..)
  | move place =>
    refine List.Sublist.trans ?_ (hsub.trans (List.sublist_append_left ..))
    generalize (ofBuffer b).run done = h
    rcases h.happen_move_cases place with hstay | ⟨before, number, task, after, hpending, hmove⟩
    · have hsame := congrArg (fun h => h.session.pending) hstay
      exact hsame ▸ List.Sublist.refl _
    · rw [hmove, hpending]
      cases task.step h.buffer (before.all fun p => !p.2.blocksWriters) with
      | stuck => simp [resume, hpending]
      | moved rest b => simp [resume]
      | finished answer b => simp [resume]

/-- Whatever calls were started on a buffer, where no call can move none is left, or readers wait
for an open and empty hand-off, or writers wait for an open and full one; with a closed buffer
none is left.  The unfinished calls stand in the order of their starts, and a move that changes
something lowers the weight of the session, so that such a state is reached whichever calls
move. -/
theorem no_lost_wakeup (s : Seq) (window : UInt32) (capacity : Nat) (schedule : List Occurrence) :
    let h := (ofBuffer (.startingAt s window capacity)).run schedule
    (h.AtRest → h.session.pending = [] ∨ h.ReadersWait ∨ h.WritersWait (startedWrites schedule)) ∧
      (h.AtRest → h.buffer.isClosed = true → h.session.pending = []) ∧
      (h.session.pending.map Prod.fst).Sublist ((startedCalls schedule).map Prod.fst) ∧
      ∀ place, h.happen (.move place) = h ∨
        (h.happen (.move place)).session.weight < h.session.weight := by
  intro h
  obtain ⟨waiting, hturn, hbegun⟩ := inTurn_run (b := .startingAt s window capacity) rfl schedule
  have hways : h.AtRest →
      h.session.pending = [] ∨ h.ReadersWait ∨ h.WritersWait (startedWrites schedule) := by
    intro hrest
    by_cases hnobody : h.session.pending = []
    · exact Or.inl hnobody
    · cases hsending : h.buffer.sending with
      | none => exact Or.inr (Or.inl (hrest.readersWait hturn hsending hnobody))
      | some chunk =>
        have hfits := handoff_fits_run s window capacity schedule
        exact Or.inr (Or.inr (hrest.writersWait hturn hbegun hfits hsending))
  refine ⟨hways, ?_, pending_sublist_started _ schedule, weight_happen_move hturn⟩
  intro hrest hclosed
  rcases hways hrest with hnobody | hreaders | hwriters
  · exact hnobody
  · exact absurd (hreaders.isOpen.symm.trans hclosed) Bool.false_ne_true
  · exact absurd (hwriters.isOpen.symm.trans hclosed) Bool.false_ne_true

/-- The hand-off has room for one chunk, and the writer of the second one waits with a rebase and
another segment behind it. -/
def crowded : List Occurrence :=
  [.start 0 (.write (.add 4294967294 [1, 2])), .move 0, .move 0, .start 1 (.write (.add 0 [3])),
    .move 0, .start 2 (.write (.rebase 7)), .start 3 (.write (.add 9 [4]))]

/-- The buffer is closed, and a reader comes who asks for more than there is. -/
def shutDown : List Occurrence :=
  crowded ++ [.close, .start 4 (.readAtLeast 3), .move 0, .move 0, .move 0, .move 0, .move 0]

theorem no_lost_wakeup_crowded :
    let h := (ofBuffer (.startingAt 4294967294 10 1)).run crowded
    let closed := (ofBuffer (.startingAt 4294967294 10 1)).run shutDown
    h.AtRest ∧ h.WritersWait (startedWrites crowded) ∧
      closed.AtRest ∧ closed.buffer.isClosed = true ∧ closed.session.pending = [] := by
  intro h closed
  obtain ⟨hways, -, -, -⟩ := no_lost_wakeup 4294967294 10 1 crowded
  obtain ⟨-, hclosed, -, -⟩ := no_lost_wakeup 4294967294 10 1 shutDown
  have hrest : h.AtRest := by decide
  have hwriters : h.WritersWait (startedWrites crowded) := by
    rcases hways hrest with hnobody | hreaders | hwriters
    · exact absurd hnobody (by decide)
    · exact absurd hreaders.nothing (by decide)
    · exact hwriters
  have hend : closed.AtRest ∧ closed.buffer.isClosed = true := by decide
  exact ⟨hrest, hwriters, hend.1, hend.2, hclosed hend.1 hend.2⟩

end History

end StreamTap
