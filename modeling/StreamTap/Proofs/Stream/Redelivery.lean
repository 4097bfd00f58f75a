import StreamTap.Proofs.Stream.AfterClose
import StreamTap.Proofs.Stream.TruePrefix

/-!
# A segment that comes again

A segment that was accepted once is not accepted again.  It is still parked, and then the copy
is a duplicate, or the stream has gone past it, and then the copy starts outside the window.
Which of the two it is depends on how many bytes have been drained in between, and at some point
on the circle of sequence numbers this has to fail: what lies far enough behind the expected
number lies ahead of it, in the window.  As long as the bytes drained since the segment was
accepted and the window are together less than the circle, the copy changes nothing but the
count of the segments that were refused (`redelivered_only_counted`).

The invariant (`Recalls`) measures from the moment of acceptance: the segment started `offset`
bytes ahead of the number expected then, and `n` bytes have been drained since.  Up to the offset
the segment is parked and no prune gives it up, for it is in every window on the way.  A drain
does not stop at it.
-/

namespace StreamTap

namespace History

/-- With an occurrence the write of a segment begins, and it is refused neither for its place nor
as a duplicate. -/
structure Accepts (h : History) (o : Occurrence) (seq : Seq) (payload : Bytes) : Prop where
  begun : (h.happen o).record.begun = h.record.begun ++ [.add seq payload]
  outOfWindow : (h.happen o).buffer.outOfWindow = h.buffer.outOfWindow
  duplicate : (h.happen o).buffer.duplicate = h.buffer.duplicate

instance (h : History) (o : Occurrence) (seq : Seq) (payload : Bytes) :
    Decidable (h.Accepts o seq payload) :=
  decidable_of_iff ((h.happen o).record.begun = h.record.begun ++ [.add seq payload] ∧
      (h.happen o).buffer.outOfWindow = h.buffer.outOfWindow ∧
      (h.happen o).buffer.duplicate = h.buffer.duplicate)
    ⟨fun h => ⟨h.1, h.2.1, h.2.2⟩, fun h => ⟨h.1, h.2, h.3⟩⟩

end History

namespace Change

variable {closing : Prop} {b b' : Buffer} {r r' : Record}

theorem wasOpen (hchange : Change closing b r b' r') (hopen : b'.isClosed = false) :
    b.isClosed = false := by
  cases hclosed : b.isClosed with
  | false => rfl
  | true => exact absurd ((hchange.delivered_of_closed hclosed).1.symm.trans hopen) (by simp)

theorem window_eq (hchange : Change closing b r b' r') : b'.window = b.window := by
  cases hchange with
  | begun w _ hw => exact (b.sameFront_begin hw).window
  | handed chunk _ _ _ => exact (b.accepted chunk).window_pull true
  | lost _ _ _ => rfl
  | taken _ _ _ => rfl
  | closed _ => rfl

theorem begun_grows (hchange : Change closing b r b' r') : r.begun <+: r'.begun := by
  cases hchange with
  | begun w _ _ => exact List.prefix_append ..
  | handed _ _ _ _ => exact List.prefix_rfl
  | lost _ _ _ => exact List.prefix_rfl
  | taken _ _ _ => exact List.prefix_rfl
  | closed _ => exact List.prefix_rfl

end Change

/-- A buffer that has drained `n` bytes since it accepted a payload `offset` bytes ahead of the
number `base`, which it expected then. -/
structure Recalls (base : Seq) (offset : Nat) (payload : Bytes) (n : Nat) (b : Buffer) : Prop where
  near : offset ≤ b.window.toNat
  expected : b.expected = base.advance n
  parked : n ≤ offset → b.parked.find? (base.advance offset) = some payload

namespace Recalls

variable {base : Seq} {offset n : Nat} {payload : Bytes} {b : Buffer}

theorem expected_ne (h : Recalls base offset payload n b) (hn : n < offset) :
    base.advance offset ≠ b.expected := by
  have hnear := h.near
  have hwindow := b.window.toNat_lt
  rw [h.expected]
  intro heq
  have hsame := base.eq_of_advance_eq heq (by simp only [UInt32.size]; omega)
    (by simp only [UInt32.size]; omega)
  omega

theorem pulled (h : Recalls base offset payload n b) (hpayload : payload ≠ []) {chunk : Bytes}
    (hchunk : b.parked.find? b.expected = some chunk) :
    Recalls base offset payload (n + chunk.length) (b.pulled chunk) where
  near := h.near
  expected := by simp only [Buffer.pulled, h.expected, Seq.advance_advance]
  parked := by
    intro hn
    rcases Nat.lt_or_eq_of_le (Nat.le_of_add_right_le hn) with hlt | rfl
    · rw [Buffer.pulled, b.parked.find?_erase_of_ne (h.expected_ne hlt)]
      exact h.parked (Nat.le_of_lt hlt)
    · -- At the offset it is the payload itself that is pulled.
      have hparked := h.parked (Nat.le_refl n)
      rw [← h.expected, hchunk, Option.some.injEq] at hparked
      have hpos := List.length_pos_iff.2 hpayload
      rw [hparked] at hn
      omega

theorem prune (h : Recalls base offset payload n b) : Recalls base offset payload n b.prune where
  near := h.near
  expected := h.expected
  parked := by
    intro hn
    have hnear := h.near
    have hinside : Seq.inWindow b.expected b.window (base.advance offset) = true := by
      rw [h.expected]
      exact base.inWindow_advance_of_le hn (by omega)
    simp only [Buffer.prune, Parked.find?_filter, hinside, if_true]
    exact h.parked hn

theorem park (h : Recalls base offset payload n b) {seq : Seq} {other : Bytes}
    (hfree : b.parked.find? seq = none) : Recalls base offset payload n (b.park seq other) where
  near := h.near
  expected := h.expected
  parked := by
    intro hn
    have hparked := h.parked hn
    have hne : seq ≠ base.advance offset := by
      rintro rfl
      cases hfree.symm.trans hparked
    rw [Buffer.park, b.parked.find?_insert_of_ne other hne]
    exact hparked

end Recalls

/-- A buffer recalls a payload, and unless a chunk is on offer it has not stopped at it. -/
def StillRecalls (base : Seq) (offset : Nat) (payload : Bytes) (mark : Nat) (b : Buffer)
    (r : Record) : Prop :=
  ∃ n, drained b r = mark + n ∧ Recalls base offset payload n b ∧ (b.sending = none → n ≠ offset)

namespace StillRecalls

variable {base : Seq} {offset mark : Nat} {payload : Bytes} {b b' : Buffer} {r r' : Record}
  {closing : Prop}

/-- A pull leads past the payload if it finds it under the expected number. -/
theorem of_pull {n : Nat} (h : Recalls base offset payload n b) (hpayload : payload ≠ [])
    (hsending : b.sending = none) (hdrained : drained b r = mark + n) (moved : Bool) :
    StillRecalls base offset payload mark (b.pull moved) r := by
  have hpast : b.parked.find? b.expected = none → n ≠ offset := by
    rintro hnone rfl
    have hparked := h.parked (Nat.le_refl n)
    rw [← h.expected, hnone] at hparked
    cases hparked
  refine b.pull_elim (P := fun a => StillRecalls base offset payload mark a r) moved ?_ ?_ ?_
  · intro chunk hchunk
    refine ⟨n + chunk.length, ?_, h.pulled hpayload hchunk, fun hnone => by cases hnone⟩
    simp only [drained, hsending, Option.toList_none, List.flatten_nil, List.length_nil] at hdrained
    simp only [drained, Buffer.pulled, Option.toList_some, List.flatten_singleton]
    omega
  · exact fun _ hnone => ⟨n, hdrained, h.prune, fun _ => hpast hnone⟩
  · exact fun _ hnone => ⟨n, hdrained, h, fun _ => hpast hnone⟩

theorem begin (h : StillRecalls base offset payload mark b r) (hpayload : payload ≠ [])
    (hsending : b.sending = none) {w : Write} (hw : w.isVoid = false) (hadd : w.isAdd = true) :
    StillRecalls base offset payload mark (b.begin w) r := by
  obtain ⟨n, hdrained, hrecalls, hpast⟩ := h
  refine b.begin_elim (P := fun a => StillRecalls base offset payload mark a r) hw ?_ ?_ ?_ ?_
  · exact fun _ _ _ _ _ => ⟨n, hdrained, ⟨hrecalls.near, hrecalls.expected, hrecalls.parked⟩, hpast⟩
  · exact fun _ _ _ _ _ _ _ =>
      ⟨n, hdrained, ⟨hrecalls.near, hrecalls.expected, hrecalls.parked⟩, hpast⟩
  · intro seq other _ _ _ hfree
    exact of_pull (hrecalls.park hfree) hpayload hsending hdrained false
  · rintro seq rfl
    cases hadd

theorem change (h : StillRecalls base offset payload mark b r) (hpayload : payload ≠ [])
    (hopen : b'.isClosed = false) (hadds : ∀ w ∈ r'.begun, w.isAdd = true)
    (hchange : Change closing b r b' r') : StillRecalls base offset payload mark b' r' := by
  cases hchange with
  | begun w hsending hw =>
    exact h.begin hpayload hsending hw (hadds w (List.mem_append_right _ List.mem_cons_self))
  | handed chunk hsending _ _ =>
    obtain ⟨n, hdrained, hrecalls, -⟩ := h
    have haccepted : Recalls base offset payload n (b.accepted chunk) :=
      ⟨hrecalls.near, hrecalls.expected, hrecalls.parked⟩
    refine of_pull haccepted hpayload rfl ?_ true
    simp only [drained, hsending, Option.toList_some, List.flatten_singleton] at hdrained
    simp only [drained, Buffer.accepted, total_append, total_cons, total_nil, Option.toList_none,
      List.flatten_nil, List.length_nil]
    omega
  | lost chunk _ hclosed => exact absurd (hclosed.symm.trans hopen) (by simp)
  | taken chunk rest _ =>
    obtain ⟨n, hdrained, hrecalls, hpast⟩ := h
    exact ⟨n, hdrained, ⟨hrecalls.near, hrecalls.expected, hrecalls.parked⟩, hpast⟩
  | closed _ => cases hopen

/-- A copy of the payload is a duplicate, or it comes from outside the window. -/
theorem begin_again (h : StillRecalls base offset payload mark b r) (hpayload : payload ≠ [])
    (hsending : b.sending = none) (hnear : drained b r + b.window.toNat < mark + UInt32.size) :
    b.begin (.add (base.advance offset) payload) = { b with duplicate := b.duplicate + 1 } ∨
      b.begin (.add (base.advance offset) payload) =
        { b with outOfWindow := b.outOfWindow + 1 } := by
  obtain ⟨n, hdrained, hrecalls, hpast⟩ := h
  have hwindow := hrecalls.near
  rcases Nat.lt_or_gt_of_ne (hpast hsending) with hahead | hbehind
  · refine Or.inl (b.begin_add_taken hpayload ?_ (hrecalls.parked (Nat.le_of_lt hahead)))
    rw [hrecalls.expected]
    exact base.inWindow_advance_of_le (Nat.le_of_lt hahead) (by omega)
  · refine Or.inr (b.begin_add_outside hpayload ?_)
    rw [hrecalls.expected]
    exact base.inWindow_advance_of_lt hbehind (by omega)

end StillRecalls

namespace History

/-- Where a segment is accepted it is parked, however far ahead of the expected number it
starts. -/
theorem Accepts.stillRecalls {h : History} {waiting : List Write} {o : Occurrence} {seq : Seq}
    {payload : Bytes} (haccepts : h.Accepts o seq payload) (hturn : InTurn h.session waiting) :
    payload ≠ [] ∧
      StillRecalls h.buffer.expected (Seq.distance h.buffer.expected seq) payload
        (drained h.buffer h.record) (h.happen o).buffer (h.happen o).record := by
  obtain ⟨hbegun, houtside, htaken⟩ := haccepts
  rcases (follows_happen hturn o).changed with ⟨-, hsame⟩ | hchange
  · rw [hsame] at hbegun
    simp at hbegun
  generalize (h.happen o).buffer = b', (h.happen o).record = r' at hbegun houtside htaken hchange ⊢
  cases hchange with
  | begun w hsending hw =>
    obtain rfl : w = .add seq payload := by simpa using hbegun
    have hpayload : payload ≠ [] := by
      rintro rfl
      cases hw
    refine ⟨hpayload, ?_⟩
    cases hwindow : Seq.inWindow h.buffer.expected h.buffer.window seq with
    | false =>
      rw [h.buffer.begin_add_outside hpayload hwindow] at houtside
      exact absurd houtside (Nat.succ_ne_self _)
    | true =>
      cases hfree : h.buffer.parked.find? seq with
      | some other =>
        rw [h.buffer.begin_add_taken hpayload hwindow hfree] at htaken
        exact absurd htaken (Nat.succ_ne_self _)
      | none =>
        rw [h.buffer.begin_add_free hpayload hwindow hfree]
        have hrecalls : Recalls h.buffer.expected (Seq.distance h.buffer.expected seq) payload 0
            (h.buffer.park seq payload) := by
          refine ⟨(Seq.inWindow_iff_distance_le ..).1 hwindow, (Seq.advance_zero _).symm, ?_⟩
          intro _
          rw [Seq.advance_distance]
          exact h.buffer.parked.find?_insert_self seq payload
        exact StillRecalls.of_pull hrecalls hpayload hsending rfl false
  | handed chunk _ _ _ => simp at hbegun
  | lost chunk _ _ => simp at hbegun
  | taken chunk rest _ => simp at hbegun
  | closed _ => simp at hbegun

/-- In a history without a rebase the segment is recalled from then on, as long as the buffer is
open. -/
theorem stillRecalls_run (s : Seq) (window : UInt32) (capacity : Nat)
    (before after : List Occurrence) (o : Occurrence) {seq : Seq} {payload : Bytes}
    (hadds : ∀ w ∈ startedWrites (before ++ o :: after), w.isAdd = true)
    (haccepts : ((ofBuffer (.startingAt s window capacity)).run before).Accepts o seq payload) :
    let h := (ofBuffer (.startingAt s window capacity)).run before
    let later := (ofBuffer (.startingAt s window capacity)).run (before ++ o :: after)
    later.buffer.isClosed = false → payload ≠ [] ∧
      StillRecalls h.buffer.expected (Seq.distance h.buffer.expected seq) payload
        (drained h.buffer h.record) later.buffer later.record := by
  intro h later hopen
  obtain ⟨waiting, hturn, -⟩ := inTurn_run (b := .startingAt s window capacity) rfl before
  obtain ⟨hpayload, hstart⟩ := haccepts.stillRecalls hturn
  refine ⟨hpayload, ?_⟩
  have hbegun : ∀ w ∈ later.record.begun, w.isAdd = true := by
    intro w hw
    exact hadds w (List.mem_filter.1 ((History.begun_prefix rfl List.prefix_rfl).subset hw)).1
  have haccepted : h.happen o = (ofBuffer (.startingAt s window capacity)).run (before ++ [o]) :=
    (run_snoc _ before o).symm
  have hlater : later = (h.happen o).run after := run_append _ before (o :: after)
  -- A buffer that is open was open before, and what had begun before has begun.
  have hkept : (later.buffer.isClosed = false ∧ ∀ w ∈ later.record.begun, w.isAdd = true) →
      StillRecalls h.buffer.expected (Seq.distance h.buffer.expected seq) payload
        (drained h.buffer h.record) later.buffer later.record := by
    rw [hlater, haccepted]
    refine run_keeps_from (P := fun b r => (b.isClosed = false ∧ ∀ w ∈ r.begun, w.isAdd = true) →
      StillRecalls h.buffer.expected (Seq.distance h.buffer.expected seq) payload
        (drained h.buffer h.record) b r) rfl (before ++ [o]) after ?_ ?_
    · intro _
      rw [← haccepted]
      exact hstart
    · intro closing b r b' r' hold hchange hnow
      have hbefore := hold ⟨hchange.wasOpen hnow.1, fun w hw =>
        hnow.2 w (hchange.begun_grows.subset hw)⟩
      exact hbefore.change hpayload hnow.1 hnow.2 hchange
  exact hkept ⟨hopen, hbegun⟩

theorem happen_move_done {h : History} {place number : Nat} {w : Write}
    (hplace : h.session.pending[place]? = some (number, .write w)) (hvoid : w.isVoid = false)
    (hfirst : ((h.session.pending.take place).all fun p => !p.2.blocksWriters) = true)
    (hidle : (h.buffer.begin w).sending = none) :
    h.happen (.move place) =
      ⟨⟨h.buffer.begin w, h.session.pending.eraseIdx place⟩,
        { h.record with begun := h.record.begun ++ [w] }, h.answers ++ [(number, .done)]⟩ := by
  have hbegun := h.record.note_begin number (b := h.buffer) hvoid
  simp only [Task.Step.ofWriter, hidle, Option.isSome_none, Bool.false_eq_true, if_false] at hbegun
  simp only [happen, hplace, Task.step, hvoid, Bool.false_eq_true, if_false, hfirst, if_true,
    Task.Step.ofWriter, hidle, Option.isSome_none, resume, hbegun, List.append_nil,
    List.eraseIdx_eq_take_drop_succ]

/-- In a history without a rebase a segment was accepted, and fewer bytes have been drained since
then than there are on the circle besides the window.  A call that brings the segment once more
ends with its first move, when its turn comes, and as long as the buffer is open it changes
nothing in it but one of the two counts of refused segments. -/
theorem redelivered_only_counted (s : Seq) (window : UInt32) (capacity : Nat)
    (before after : List Occurrence) (o : Occurrence) (seq : Seq) (payload : Bytes)
    (hadds : ∀ w ∈ startedWrites (before ++ o :: after), w.isAdd = true)
    (haccepts : ((ofBuffer (.startingAt s window capacity)).run before).Accepts o seq payload) :
    let h := (ofBuffer (.startingAt s window capacity)).run before
    let later := (ofBuffer (.startingAt s window capacity)).run (before ++ o :: after)
    later.buffer.isClosed = false →
    drained later.buffer later.record + window.toNat <
      drained h.buffer h.record + UInt32.size →
    ∀ place number, later.session.pending[place]? = some (number, .write (.add seq payload)) →
      (∀ p ∈ later.session.pending.take place, p.2.blocksWriters = false) →
      ∃ b, later.happen (.move place) =
          ⟨⟨b, later.session.pending.eraseIdx place⟩,
            { later.record with begun := later.record.begun ++ [.add seq payload] },
            later.answers ++ [(number, .done)]⟩ ∧
        (b = { later.buffer with duplicate := later.buffer.duplicate + 1 } ∨
          b = { later.buffer with outOfWindow := later.buffer.outOfWindow + 1 }) := by
  intro h later hopen hnear place number hplace hturn
  obtain ⟨hpayload, hrecalls⟩ :=
    stillRecalls_run s window capacity before after o hadds haccepts hopen
  obtain ⟨waiting, hinTurn, -⟩ :=
    inTurn_run (b := .startingAt s window capacity) rfl (before ++ o :: after)
  have hvoid : (Write.add seq payload).isVoid = false := by simp [Write.isVoid, hpayload]
  have hfirst : ((later.session.pending.take place).all fun p => !p.2.blocksWriters) = true := by
    rw [List.all_eq_true]
    intro p hp
    rw [hturn p hp]
    rfl
  have hsending : later.buffer.sending = none := by
    obtain ⟨pre, post, hpending, rfl⟩ := split_of_place hplace
    rw [hpending, List.take_left] at hfirst
    exact free_of_inTurn hinTurn hpending _ rfl hvoid hfirst
  have hwindow : later.buffer.window = window :=
    run_keeps (P := fun b _ => b.window = window) rfl rfl fun _ _ _ hsame hchange =>
      hchange.window_eq.trans hsame
  have hagain := hrecalls.begin_again hpayload hsending (hwindow.symm ▸ hnear)
  rw [Seq.advance_distance] at hagain
  have hidle : (later.buffer.begin (.add seq payload)).sending = none := by
    rcases hagain with heq | heq
    · rw [heq]
      exact hsending
    · rw [heq]
      exact hsending
  exact ⟨_, happen_move_done hplace hvoid hfirst hidle, hagain⟩

/-- A segment that was parked behind a gap is overtaken by the one that fills the gap, and is
given up when the drain ends.  Then it comes again. -/
def overtaken : List Occurrence :=
  [.start 1 (.write (.add 1 [3])), .move 0, .start 2 (.write (.add 4294967294 [0, 1, 2])),
    .move 0, .move 0, .move 0, .start 3 (.write (.add 0 [2, 3]))]

theorem redelivered_only_counted_overtaken :
    let h := (ofBuffer (.startingAt 4294967294 10 4)).run [.start 0 (.write (.add 0 [2, 3]))]
    let later := (ofBuffer (.startingAt 4294967294 10 4)).run
      ([.start 0 (.write (.add 0 [2, 3]))] ++ .move 0 :: overtaken)
    h.Accepts (.move 0) 0 [2, 3] ∧ drained later.buffer later.record = 4 ∧
      later.buffer.stale = 1 ∧
      ((later.happen (.move 0)).buffer =
          { later.buffer with duplicate := later.buffer.duplicate + 1 } ∨
        (later.happen (.move 0)).buffer =
          { later.buffer with outOfWindow := later.buffer.outOfWindow + 1 }) := by
  intro h later
  have haccepts : h.Accepts (.move 0) 0 [2, 3] := by decide
  obtain ⟨b, hmove, hb⟩ := redelivered_only_counted 4294967294 10 4 _ overtaken (.move 0) 0 [2, 3]
    (by decide) haccepts (by decide) (by decide) 0 3 (by decide) (by decide)
  refine ⟨haccepts, by decide, by decide, ?_⟩
  rw [hmove]
  exact hb

/-- With the window and the drained bytes filling the circle, the copy is accepted. -/
example :
    let h := (ofBuffer (.startingAt 0 4294967295 4)).run [.start 0 (.write (.add 0 [7]))]
    let later := (ofBuffer (.startingAt 0 4294967295 4)).run
      ([.start 0 (.write (.add 0 [7]))] ++ [.move 0, .move 0, .start 1 (.write (.add 0 [7]))])
    drained later.buffer later.record + 4294967295 = drained h.buffer h.record + UInt32.size ∧
      later.Accepts (.move 0) 0 [7] := by
  decide

end History

end StreamTap
