import StreamTap.Proofs.Stream.Accounts
import StreamTap.Proofs.Stream.Drain

/-!
# Back-pressure is transparent

A writer that finds the hand-off full waits in the middle of its drain, and the
writers behind it wait with it.  Nothing of this can be seen in what is handed over
or in what is left behind the hand-off: however slowly the readers take the chunks,
and whatever calls come in between, the outcome is that of the same writes made one
after another on a buffer whose hand-off never fills (`back_pressure_transparent`).

The proof is a simulation.  Beside the history runs a second buffer with a wide
hand-off that nobody reads.  It makes every move of the writers at the same time, so
the two agree in all that lies `behind` the hand-off.  At each moment the second
buffer, once its drain is finished, is where the writes begun so far lead when they
are made one after another; and when all writers are done there is nothing left to
finish.
-/

namespace StreamTap

namespace Buffer

/-! ## Behind the hand-off -/

/-- What lies behind the hand-off of a buffer: all of it except the queue and the count
of the bytes that the reader can still get. -/
def behind (b : Buffer) : Buffer := { b with handoff := .ofCapacity 0, available := 0 }

section Behind

variable {a b : Buffer}

theorem behind_pull (b : Buffer) (moved : Bool) :
    (b.pull moved).behind = (b.behind.pull moved).behind := by
  cases h : b.parked.find? b.expected with
  | some chunk =>
    have h' : b.behind.parked.find? b.behind.expected = some chunk := h
    rw [b.pull_of_some h, b.behind.pull_of_some h']
    rfl
  | none =>
    have h' : b.behind.parked.find? b.behind.expected = none := h
    cases moved with
    | true =>
      rw [b.pull_true_of_none h, b.behind.pull_true_of_none h']
      rfl
    | false =>
      rw [b.pull_false_of_none h, b.behind.pull_false_of_none h']
      rfl

theorem behind_begin (b : Buffer) {w : Write} (hw : w.isVoid = false) :
    (b.begin w).behind = (b.behind.begin w).behind := by
  cases w with
  | rebase seq =>
    rw [begin_rebase, begin_rebase, behind_pull, behind_pull (b.behind.expectAt seq).prune]
    rfl
  | add seq payload =>
    have hpayload : payload ≠ [] := by
      rintro rfl
      cases hw
    cases hwindow : Seq.inWindow b.expected b.window seq with
    | false =>
      rw [b.begin_add_outside hpayload hwindow, b.behind.begin_add_outside hpayload hwindow]
      rfl
    | true =>
      cases h : b.parked.find? seq with
      | some other =>
        rw [b.begin_add_taken hpayload hwindow h, b.behind.begin_add_taken hpayload hwindow h]
        rfl
      | none =>
        rw [b.begin_add_free hpayload hwindow h, b.behind.begin_add_free hpayload hwindow h,
          behind_pull, behind_pull (b.behind.park seq payload)]
        rfl

theorem pull_congr_behind (h : a.behind = b.behind) (moved : Bool) :
    (a.pull moved).behind = (b.pull moved).behind := by
  rw [behind_pull, h, ← behind_pull]

theorem begin_congr_behind (h : a.behind = b.behind) {w : Write} (hw : w.isVoid = false) :
    (a.begin w).behind = (b.begin w).behind := by
  rw [behind_begin a hw, h, ← behind_begin b hw]

theorem accepted_congr_behind (h : a.behind = b.behind) (chunk : Bytes) :
    (a.accepted chunk).behind = (b.accepted chunk).behind := by
  have haccepted : ∀ c : Buffer, (c.accepted chunk).behind = (c.behind.accepted chunk).behind :=
    fun _ => rfl
  rw [haccepted, h, ← haccepted]

theorem sending_eq_of_behind (h : a.behind = b.behind) : a.sending = b.sending :=
  (Buffer.mk.injEq .. ▸ h).2.2.2.2.2.1

end Behind

/-! ## A hand-off that never fills -/

/-- An open buffer that holds `n` segments and chunks at most, and whose hand-off has room
for `wide`. -/
structure Roomy (n wide : Nat) (b : Buffer) : Prop where
  isOpen : b.isClosed = false
  load : b.handoff.items.length + b.parked.size + b.sending.toList.length ≤ n
  capacity : b.handoff.capacity = wide

namespace Roomy

variable {n wide : Nat} {b : Buffer}

theorem startingAt (seq : Seq) (window : UInt32) (hwide : 1 ≤ wide) :
    Roomy 0 wide (.startingAt seq window wide) where
  isOpen := rfl
  load := Nat.le_refl 0
  capacity := Nat.max_eq_right hwide

theorem prune (h : Roomy n wide b) : Roomy n wide b.prune where
  isOpen := h.isOpen
  load := by
    have hload := h.load
    have hsize := b.parked.size_filter (Seq.inWindow b.expected b.window)
    simp only [Buffer.prune]
    omega
  capacity := h.capacity

theorem pull (h : Roomy n wide b) (hsending : b.sending = none) (moved : Bool) :
    Roomy n wide (b.pull moved) := by
  refine b.pull_elim (P := Roomy n wide) moved ?_ (fun _ _ => h.prune) (fun _ _ => h)
  intro chunk hchunk
  refine ⟨h.isOpen, ?_, h.capacity⟩
  have hload := h.load
  have hsize := Parked.size_erase hchunk
  simp only [hsending, Option.toList_none, List.length_nil] at hload
  simp only [Buffer.pulled, Option.toList_some, List.length_singleton]
  omega

theorem accepted {chunk : Bytes} (h : Roomy n wide b) (hsending : b.sending = some chunk) :
    Roomy n wide (b.accepted chunk) where
  isOpen := h.isOpen
  load := by
    have hload := h.load
    simp only [hsending, Option.toList_some, List.length_singleton] at hload
    simp only [Buffer.accepted, List.length_append, List.length_singleton, Option.toList_none,
      List.length_nil]
    omega
  capacity := h.capacity

theorem begin (h : Roomy n wide b) (hsending : b.sending = none) {w : Write}
    (hw : w.isVoid = false) : Roomy (n + 1) wide (b.begin w) := by
  have hload := h.load
  refine b.begin_elim (P := Roomy (n + 1) wide) hw ?_ ?_ ?_ ?_
  · exact fun _ _ _ _ _ => ⟨h.isOpen, Nat.le_succ_of_le hload, h.capacity⟩
  · exact fun _ _ _ _ _ _ _ => ⟨h.isOpen, Nat.le_succ_of_le hload, h.capacity⟩
  · intro seq payload _ _ _ hfree
    have hsize := Parked.size_insert payload hfree
    have hpark : Roomy (n + 1) wide (b.park seq payload) := by
      refine ⟨h.isOpen, ?_, h.capacity⟩
      simp only [Buffer.park]
      omega
    exact hpark.pull hsending false
  · intro seq _
    have hexpect : Roomy (n + 1) wide (b.expectAt seq) :=
      ⟨h.isOpen, Nat.le_succ_of_le hload, h.capacity⟩
    exact hexpect.prune.pull hsending false

theorem room {chunk : Bytes} (h : Roomy n wide b) (hn : n ≤ wide)
    (hsending : b.sending = some chunk) : b.handoff.items.length < b.handoff.capacity := by
  have hload := h.load
  have hcapacity := h.capacity
  simp only [hsending, Option.toList_some, List.length_singleton] at hload
  omega

theorem canOffer {chunk : Bytes} (h : Roomy n wide b) (hn : n ≤ wide)
    (hsending : b.sending = some chunk) : b.canOffer = true :=
  b.canOffer_iff.2 ⟨⟨chunk, hsending⟩, Or.inr (h.room hn hsending)⟩

theorem offer_eq {chunk : Bytes} (h : Roomy n wide b) (hn : n ≤ wide)
    (hsending : b.sending = some chunk) : b.offer = (b.accepted chunk).pull true :=
  b.offer_of_open hsending h.isOpen (h.room hn hsending)

theorem offer (h : Roomy n wide b) (hoffer : b.canOffer = true) : Roomy n wide b.offer := by
  refine b.offer_elim (P := Roomy n wide) hoffer ?_ ?_
  · intro chunk hsending _ _
    exact (h.accepted hsending).pull rfl true
  · intro chunk _ hclosed
    rw [h.isOpen] at hclosed
    cases hclosed

theorem sending_finish (h : Roomy n wide b) (hn : n ≤ wide) : b.finish.sending = none := by
  have hfinish : Roomy n wide b.finish := Buffer.finish_keeps (fun _ ha => ha.offer) h
  cases hs : b.finish.sending with
  | none => rfl
  | some chunk =>
    have hcan := hfinish.canOffer hn hs
    rw [b.canOffer_finish] at hcan
    cases hcan

theorem write (h : Roomy n wide b) (hsending : b.sending = none) (hn : n + 1 ≤ wide)
    (w : Write) : Roomy (n + 1) wide (b.write w) ∧ (b.write w).sending = none := by
  cases hw : w.isVoid with
  | true =>
    rw [b.write_of_isVoid hw]
    exact ⟨⟨h.isOpen, Nat.le_succ_of_le h.load, h.capacity⟩, hsending⟩
  | false =>
    have hbegin := h.begin hsending hw
    rw [b.write_eq_finish w hsending]
    exact ⟨Buffer.finish_keeps (fun _ ha => ha.offer) hbegin, hbegin.sending_finish hn⟩

/-- However many writes are made one after another, as long as there is room for all of
them none waits. -/
theorem foldl_write (ws : List Write) (h : Roomy n wide b) (hsending : b.sending = none)
    (hn : n + ws.length ≤ wide) :
    Roomy (n + ws.length) wide (ws.foldl Buffer.write b) ∧
      (ws.foldl Buffer.write b).sending = none := by
  induction ws generalizing n b with
  | nil => exact ⟨h, hsending⟩
  | cons w ws ih =>
    have hlength : n + (w :: ws).length = n + 1 + ws.length := by
      simp only [List.length_cons]
      omega
    rw [hlength] at hn ⊢
    obtain ⟨hwrite, hnone⟩ := h.write hsending (by omega) w
    exact ih hwrite hnone hn

end Roomy

theorem foldl_write_filter (ws : List Write) (b : Buffer) :
    (ws.filter fun w => !w.isVoid).foldl write b = ws.foldl write b := by
  induction ws generalizing b with
  | nil => rfl
  | cons w ws ih =>
    cases hw : w.isVoid with
    | true =>
      rw [List.filter_cons_of_neg (by simp [hw]), List.foldl_cons, b.write_of_isVoid hw, ih]
    | false =>
      rw [List.filter_cons_of_pos (by simp [hw]), List.foldl_cons, List.foldl_cons, ih]

end Buffer

/-! ## The simulation -/

/-- The wide buffer `s` beside a history that has come to buffer `b` and record `r`. -/
structure Shadows (start : Buffer) (wide : Nat) (b : Buffer) (r : Record) (s : Buffer) : Prop where
  isOpen : b.isClosed = false
  behind : s.behind = b.behind
  handed : s.handoff.items = r.handed
  roomy : s.Roomy r.begun.length wide
  /-- Where the drain of the wide buffer leads, the writes begun so far lead. -/
  finish : s.finish = r.begun.foldl Buffer.write start

namespace Shadows

variable {start b s : Buffer} {wide : Nat} {r : Record}

theorem sending_eq (h : Shadows start wide b r s) : s.sending = b.sending :=
  Buffer.sending_eq_of_behind h.behind

theorem begin (h : Shadows start wide b r s) (hsending : b.sending = none) {w : Write}
    (hw : w.isVoid = false) (hopen : (b.begin w).isClosed = false) :
    Shadows start wide (b.begin w) { r with begun := r.begun ++ [w] } (s.begin w) where
  isOpen := hopen
  behind := Buffer.begin_congr_behind h.behind hw
  handed := by
    rw [(s.sameFront_begin hw).handoff]
    exact h.handed
  roomy := by
    rw [List.length_append]
    exact h.roomy.begin (h.sending_eq.trans hsending) hw
  finish := by
    have hnone : s.sending = none := h.sending_eq.trans hsending
    have hfinish := h.finish
    rw [Buffer.finish_of_sending_eq_none hnone] at hfinish
    rw [← s.write_eq_finish w hnone, List.foldl_append, ← hfinish]
    rfl

theorem handed_on (h : Shadows start wide b r s) (hn : r.begun.length ≤ wide) {chunk : Bytes}
    (hsending : b.sending = some chunk) (hopen : ((b.accepted chunk).pull true).isClosed = false) :
    Shadows start wide ((b.accepted chunk).pull true) { r with handed := r.handed ++ [chunk] }
      s.offer := by
  have hsome : s.sending = some chunk := h.sending_eq.trans hsending
  have hcan := h.roomy.canOffer hn hsome
  have hoffer := h.roomy.offer_eq hn hsome
  refine ⟨hopen, ?_, ?_, h.roomy.offer hcan, ?_⟩
  · rw [hoffer]
    exact Buffer.pull_congr_behind (Buffer.accepted_congr_behind h.behind chunk) true
  · rw [hoffer, Buffer.handoff_pull]
    simp only [Buffer.accepted, h.handed]
  · rw [← Buffer.finish_of_canOffer hcan]
    exact h.finish

/-- Whatever a history does to a buffer that stays open, the wide buffer can follow. -/
theorem change {b' : Buffer} {r' : Record} {closing : Prop} (h : Shadows start wide b r s)
    (hn : r.begun.length ≤ wide) (hclosing : ¬closing) (hchange : Change closing b r b' r') :
    ∃ s', Shadows start wide b' r' s' := by
  have hopen : b'.isClosed = false := (hchange.isClosed_eq hclosing).trans h.isOpen
  cases hchange with
  | begun w hsending hw => exact ⟨s.begin w, h.begin hsending hw hopen⟩
  | handed chunk hsending _ _ => exact ⟨s.offer, h.handed_on hn hsending hopen⟩
  | lost chunk _ hclosed =>
    rw [h.isOpen] at hclosed
    cases hclosed
  | taken chunk rest _ => exact ⟨s, hopen, h.behind, h.handed, h.roomy, h.finish⟩
  | closed hc => exact absurd hc hclosing

theorem startingAt (seq : Seq) (window : UInt32) (capacity : Nat) (hwide : 1 ≤ wide) :
    Shadows (.startingAt seq window wide) wide (.startingAt seq window capacity) {}
      (.startingAt seq window wide) where
  isOpen := rfl
  behind := rfl
  handed := rfl
  roomy := Buffer.Roomy.startingAt seq window hwide
  finish := Buffer.finish_of_sending_eq_none rfl

end Shadows

/-- A history whose chunks and whose buffer behind the hand-off are those of `b`, from which
nobody reads.  The chunks are with readers and in the hand-off. -/
structure SameOutcome (h : History) (b : Buffer) : Prop where
  chunks : h.record.handed = b.handoff.items
  queue : h.record.handed = h.record.taken ++ h.buffer.handoff.items
  parked : h.buffer.parked = b.parked
  expected : h.buffer.expected = b.expected
  published : h.buffer.published = b.published
  outOfWindow : h.buffer.outOfWindow = b.outOfWindow
  duplicate : h.buffer.duplicate = b.duplicate
  stale : h.buffer.stale = b.stale
  delivered : h.buffer.delivered = b.delivered

/-- Back-pressure is transparent: whatever the capacity of the hand-off and however calls
interleave, when all writers of a buffer that is never closed are done, the outcome is that
of the same writes made one after another with a hand-off that is never full. -/
theorem back_pressure_transparent (seq : Seq) (window : UInt32) (capacity wide : Nat)
    (schedule : List Occurrence) (hnever : Occurrence.close ∉ schedule)
    (hwide : (startedWrites schedule).length < wide)
    (hdone : ((History.ofBuffer (.startingAt seq window capacity)).run schedule).WritersDone) :
    (∀ ws, ws <+: startedWrites schedule →
      (ws.foldl Buffer.write (.startingAt seq window wide)).sending = none ∧
      (ws.foldl Buffer.write (.startingAt seq window wide)).handoff.items.length < wide) ∧
    SameOutcome ((History.ofBuffer (.startingAt seq window capacity)).run schedule)
      ((startedWrites schedule).foldl Buffer.write (.startingAt seq window wide)) := by
  have hstart : (Buffer.startingAt seq window capacity).sending = none := rfl
  refine ⟨?_, ?_⟩
  · intro ws hws
    have hlength := hws.length_le
    have hroomy : Buffer.Roomy 0 wide (.startingAt seq window wide) :=
      .startingAt seq window (by omega)
    obtain ⟨hroomy, hnone⟩ := hroomy.foldl_write ws rfl (by omega)
    have hload := hroomy.load
    exact ⟨hnone, by omega⟩
  · obtain ⟨s, hs⟩ : ∃ s, Shadows (.startingAt seq window wide) wide
        ((History.ofBuffer (.startingAt seq window capacity)).run schedule).buffer
        ((History.ofBuffer (.startingAt seq window capacity)).run schedule).record s := by
      refine History.run_keeps (P := fun b r => ∃ s, Shadows _ wide b r s) hstart
        ⟨_, .startingAt seq window capacity (by omega)⟩ ?_
      intro done o hupto hshadow hchange
      obtain ⟨s, hs⟩ := hshadow
      have hbegun := History.begun_prefix hstart ((List.prefix_append done [o]).trans hupto)
      have hn := Nat.le_trans hbegun.length_le (List.length_filter_le ..)
      refine hs.change (by omega) ?_ hchange
      rintro rfl
      exact hnever (hupto.subset (List.mem_append_right _ List.mem_cons_self))
    obtain ⟨hnone, hbegun⟩ := History.run_done hstart hdone
    -- Nothing is on offer, so the wide buffer has finished its drain.
    have hfinish := hs.finish
    rw [Buffer.finish_of_sending_eq_none (hs.sending_eq.trans hnone), hbegun,
      Buffer.foldl_write_filter] at hfinish
    rw [← hfinish]
    have hbehind := hs.behind
    simp only [Buffer.behind, Buffer.mk.injEq] at hbehind
    obtain ⟨-, hexpected, hparked, hpublished, -, -, -, -, hout, hdup, hstale, hdel⟩ := hbehind
    have haccounts := accounts_run hstart (.startingAt seq window capacity) schedule
    exact ⟨hs.handed.symm, haccounts.queue, hparked.symm, hexpected.symm, hpublished.symm,
      hout.symm, hdup.symm, hstale.symm, hdel.symm⟩

/-- Three segments and a change of number are written while the hand-off has room for one
chunk, and the reader comes late. -/
def lateReader : List Occurrence :=
  [.start 0 (.write (.add 1 [52, 53])), .move 0, .start 1 (.write (.add 4294967294 [49, 50, 51])),
    .start 2 (.write (.add 3 [54])), .start 3 (.write (.rebase 4)), .move 2, .move 0, .move 0,
    .start 4 (.readAtLeast 6), .move 1, .move 3, .move 0, .move 3, .move 0, .move 2, .move 1,
    .move 0, .move 1, .move 0, .move 0]

theorem back_pressure_transparent_lateReader :
    ((History.ofBuffer (.startingAt 4294967294 10 1)).run (lateReader.take 9)).buffer.sending
        = some [52, 53] ∧
      ((History.ofBuffer (.startingAt 4294967294 10 1)).run lateReader).record.handed
        = [[49, 50, 51], [52, 53], [54]] ∧
      SameOutcome ((History.ofBuffer (.startingAt 4294967294 10 1)).run lateReader)
        ((startedWrites lateReader).foldl Buffer.write (.startingAt 4294967294 10 5)) :=
  ⟨by decide, by decide, (back_pressure_transparent 4294967294 10 1 5 lateReader (by decide)
    (by decide) (by decide)).2⟩

end StreamTap
