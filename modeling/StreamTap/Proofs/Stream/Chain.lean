import Mathlib.Data.List.Perm.Subperm
import StreamTap.Proofs.Stream.Receipts

/-!
# The chunks that were handed over are a chain of calls

Nothing is assumed here about the segments that are written.  They may overlap, contradict
each other and have any length, and the buffer may be closed at any moment.  As long as it is
never rebased each chunk that goes into the hand-off is still the payload of a call of its own,
and this call was made with the number at which the chunks before it end (`handed_chain`).
Readers receive the chunks in this order, each of them once, and have what they received.

The invariant counts calls, not payloads: the calls that brought what was handed over, what is
on offer and what is parked are, taken together, among those that have begun (`Supplied`).  It
holds while the buffer is open.  When a closed hand-off refuses a chunk the chain breaks, for
the stream goes on behind the lost chunk; but from then on nothing is handed over any more
(`Linked`).
-/

namespace StreamTap

def Segment.write (x : Segment) : Write := .add x.seq x.payload

/-- The writes that bring chunks one behind the other, the first of them at `s`. -/
def chainFrom (s : Seq) : List Bytes → List Write
  | [] => []
  | chunk :: chunks => .add s chunk :: chainFrom (s.advance chunk.length) chunks

@[simp] theorem length_chainFrom (s : Seq) (chunks : List Bytes) :
    (chainFrom s chunks).length = chunks.length := by
  induction chunks generalizing s with
  | nil => rfl
  | cons chunk chunks ih => simp [chainFrom, ih]

theorem chainFrom_concat (s : Seq) (chunks : List Bytes) (chunk : Bytes) :
    chainFrom s (chunks ++ [chunk]) =
      chainFrom s chunks ++ [.add (s.advance (total List.length chunks)) chunk] := by
  induction chunks generalizing s with
  | nil => simp [chainFrom]
  | cons first chunks ih => simp [chainFrom, ih, Seq.advance_advance]

/-- A link of a chain starts where the chunks before it end. -/
theorem getElem_chainFrom (s : Seq) (chunks : List Bytes) {i : Nat} (hi : i < chunks.length)
    (hlink : i < (chainFrom s chunks).length) :
    (chainFrom s chunks)[i] =
      .add (s.advance (total List.length (chunks.take i))) chunks[i] := by
  induction chunks generalizing s i with
  | nil => cases hi
  | cons chunk chunks ih =>
    cases i with
    | zero => simp [chainFrom]
    | succ i =>
      have htail := ih (s.advance chunk.length) (Nat.lt_of_succ_lt_succ hi)
        (Nat.lt_of_succ_lt_succ hlink)
      simpa [chainFrom, Seq.advance_advance] using htail

/-! ## While the buffer is open -/

/-- Of the calls that have begun some brought what was handed over and what is on offer, chunk by
chunk, and others what is parked. -/
structure Supplied (s : Seq) (b : Buffer) (r : Record) : Prop where
  expected : b.expected = s.advance (total List.length (r.handed ++ b.sending.toList))
  calls : (chainFrom s (r.handed ++ b.sending.toList) ++
    b.parked.segments.map Segment.write).Subperm r.begun

namespace Supplied

variable {s : Seq} {b : Buffer} {r : Record}

theorem pulled (h : Supplied s b r) (hsending : b.sending = none) {chunk : Bytes}
    (hchunk : b.parked.find? b.expected = some chunk) : Supplied s (b.pulled chunk) r := by
  have hexpected := h.expected
  have hcalls := h.calls
  rw [hsending, Option.toList_none, List.append_nil] at hexpected hcalls
  constructor
  · simp [Buffer.pulled, hexpected, Seq.advance_advance]
  · -- The same calls, with the one under the expected number moved from the parked segments.
    have hparked := (Parked.perm_erase hchunk).map Segment.write
    refine List.Subperm.trans (List.Perm.subperm ?_) hcalls
    simp only [Buffer.pulled, Option.toList_some]
    rw [chainFrom_concat, ← hexpected, List.append_assoc]
    exact hparked.symm.append_left _

theorem prune (h : Supplied s b r) : Supplied s b.prune r where
  expected := h.expected
  calls := by
    refine List.Subperm.trans (List.Sublist.subperm ?_) h.calls
    exact (List.filter_sublist.map Segment.write).append_left _

theorem pull (h : Supplied s b r) (hsending : b.sending = none) (moved : Bool) :
    Supplied s (b.pull moved) r :=
  b.pull_elim (P := fun a => Supplied s a r) moved (fun _ hchunk => h.pulled hsending hchunk)
    (fun _ _ => h.prune) (fun _ _ => h)

theorem refused (h : Supplied s b r) (w : Write) {b' : Buffer}
    (hexpected : b'.expected = b.expected) (hsending : b'.sending = b.sending)
    (hparked : b'.parked = b.parked) :
    Supplied s b' { r with begun := r.begun ++ [w] } where
  expected := by rw [hexpected, hsending, h.expected]
  calls := by
    rw [hsending, hparked]
    exact h.calls.trans (List.sublist_append_left ..).subperm

theorem park (h : Supplied s b r) {seq : Seq} {payload : Bytes}
    (hfree : b.parked.find? seq = none) :
    Supplied s (b.park seq payload) { r with begun := r.begun ++ [.add seq payload] } where
  expected := h.expected
  calls := by
    have hparked := (Parked.perm_insert payload hfree).map Segment.write
    have hmore := (List.subperm_append_right [Write.add seq payload]).2 h.calls
    refine List.Subperm.trans (List.Perm.subperm ?_) hmore
    simp only [Buffer.park]
    refine (hparked.append_left _).trans ?_
    rw [List.map_cons, List.append_assoc]
    exact (List.perm_append_singleton ..).symm.append_left _

theorem begin (h : Supplied s b r) (hsending : b.sending = none) {w : Write}
    (hw : w.isVoid = false) (hadd : w.isAdd = true) :
    Supplied s (b.begin w) { r with begun := r.begun ++ [w] } := by
  refine b.begin_elim (P := fun a => Supplied s a _) hw ?_ ?_ ?_ ?_
  · exact fun _ _ _ _ _ => h.refused w rfl rfl rfl
  · exact fun _ _ _ _ _ _ _ => h.refused w rfl rfl rfl
  · rintro seq payload rfl _ _ hfree
    exact (h.park hfree).pull hsending false
  · rintro seq rfl
    cases hadd

theorem accepted (h : Supplied s b r) {chunk : Bytes} (hsending : b.sending = some chunk) :
    Supplied s (b.accepted chunk) { r with handed := r.handed ++ [chunk] } := by
  have hexpected := h.expected
  have hcalls := h.calls
  rw [hsending, Option.toList_some] at hexpected hcalls
  refine ⟨?_, ?_⟩
  · simpa [Buffer.accepted] using hexpected
  · simpa [Buffer.accepted] using hcalls

theorem handed (h : Supplied s b r) : (chainFrom s r.handed).Subperm r.begun := by
  refine List.Subperm.trans (List.Sublist.subperm ?_) h.calls
  cases b.sending with
  | none =>
    rw [Option.toList_none, List.append_nil]
    exact List.sublist_append_left ..
  | some chunk =>
    rw [Option.toList_some, chainFrom_concat, List.append_assoc]
    exact List.sublist_append_left ..

end Supplied

/-! ## Whole histories -/

/-- What was handed over is a chain of calls that have begun, and while the buffer is open the
chain goes on. -/
structure Linked (s : Seq) (b : Buffer) (r : Record) : Prop where
  handed : (chainFrom s r.handed).Subperm r.begun
  whileOpen : b.isClosed = false → Supplied s b r

namespace Linked

variable {s : Seq} {b b' : Buffer} {r r' : Record} {closing : Prop}

theorem startingAt (window : UInt32) (capacity : Nat) :
    Linked s (.startingAt s window capacity) {} where
  handed := List.Subperm.refl _
  whileOpen := fun _ => ⟨s.advance_zero.symm, List.Subperm.refl _⟩

theorem change (h : Linked s b r) (hadds : ∀ w ∈ r'.begun, w.isAdd = true)
    (hchange : Change closing b r b' r') : Linked s b' r' := by
  cases hchange with
  | begun w hsending hw =>
    refine ⟨h.handed.trans (List.sublist_append_left ..).subperm, fun hopen => ?_⟩
    rw [Buffer.isClosed, (b.sameFront_begin hw).handoff] at hopen
    have hadd : w.isAdd = true := hadds w (List.mem_append_right _ (List.mem_singleton_self w))
    exact (h.whileOpen hopen).begin hsending hw hadd
  | handed chunk hsending hopen _ =>
    have haccepted := (h.whileOpen hopen).accepted hsending
    exact ⟨haccepted.handed, fun _ => haccepted.pull rfl true⟩
  | lost chunk _ hclosed => exact ⟨h.handed, fun hopen => by cases hclosed.symm.trans hopen⟩
  | taken chunk rest _ =>
    refine ⟨h.handed, fun hopen => ?_⟩
    have hsupplied := h.whileOpen hopen
    exact ⟨hsupplied.expected, hsupplied.calls⟩
  | closed _ => exact ⟨h.handed, fun hopen => by cases hopen⟩

end Linked

/-- In a history without a rebase the chunks that went into the hand-off are payloads of as many
calls, all different, and each of these calls was made with the number where the chunks before
its payload end.  Calls have received the first of the chunks and the others are in the hand-off.
The answers and what unfinished calls hold are together what was received, and where no number is
given twice each call has the chunks that it received, joined.  An open buffer goes on where the
chunks end. -/
theorem handed_chain (s : Seq) (window : UInt32) (capacity : Nat) (schedule : List Occurrence)
    (hadds : ∀ w ∈ startedWrites schedule, w.isAdd = true) :
    let h := (History.ofBuffer (.startingAt s window capacity)).run schedule
    (∃ call : Fin h.record.handed.length → Fin (startedWrites schedule).length,
      Function.Injective call ∧
        ∀ i, (startedWrites schedule)[call i] =
          .add (s.advance (total List.length (h.record.handed.take i))) h.record.handed[i]) ∧
      h.record.handed = h.record.taken ++ h.buffer.handoff.items ∧
      (h.holdings.flatMap Prod.snd).Perm h.record.taken.flatten ∧
      (((startedCalls schedule).map Prod.fst).Nodup →
        ∀ x ∈ h.holdings, x.2 = h.record.receivedBy x.1) ∧
      (h.buffer.isClosed = false →
        h.buffer.expected =
            s.advance (h.buffer.delivered + total List.length h.buffer.sending.toList) ∧
          h.buffer.published = h.buffer.expected) := by
  intro h
  have hbegun : ∀ done, done <+: schedule →
      ((History.ofBuffer (.startingAt s window capacity)).run done).record.begun.Subperm
        (startedWrites schedule) := fun done hdone =>
    ((History.begun_prefix rfl hdone).sublist.trans List.filter_sublist).subperm
  have hlinked : Linked s h.buffer h.record := by
    refine History.run_keeps (P := Linked s) rfl (.startingAt window capacity) ?_
    intro done o hupto hold hchange
    exact hold.change (fun w hw => hadds w ((hbegun _ hupto).subset hw)) hchange
  have haccounts : Accounts h.buffer h.record :=
    accounts_run rfl (.startingAt s window capacity) schedule
  have hcalls : (chainFrom s h.record.handed).Subperm (startedWrites schedule) :=
    hlinked.handed.trans (hbegun schedule List.prefix_rfl)
  refine ⟨?_, haccounts.queue, History.holdings_perm_run (List.Perm.refl _) schedule,
    fun hnodup => (History.eachHas_run _ hnodup).received,
    fun hopen => ⟨?_, haccounts.published⟩⟩
  · have hlength := length_chainFrom s h.record.handed
    refine ⟨fun i => hcalls.idxInj (i.cast hlength.symm), ?_, ?_⟩
    · intro i j hij
      have hcast := congrArg Fin.val (hcalls.idxInj_injective hij)
      exact Fin.ext hcast
    · intro i
      exact hcalls.getElem_idxInj_eq_getElem.trans
        (getElem_chainFrom s h.record.handed i.2 (i.cast hlength.symm).2)
  · rw [(hlinked.whileOpen hopen).expected, total_append, haccounts.delivered]

/-- Three segments come in the reverse order, and the drain stops in the middle because the
hand-off has room for one chunk.  A fourth one contradicts what was handed over. -/
def stopped : List Occurrence :=
  [.start 0 (.write (.add 1 [9, 9])), .move 0, .start 1 (.write (.add 0 [3])), .move 0,
    .start 2 (.write (.add 4294967294 [1, 2])), .move 0, .move 0, .move 0, .start 3 .read,
    .move 1, .move 0, .start 4 (.write (.add 0 [8])), .move 1]

theorem handed_chain_stopped :
    let h := (History.ofBuffer (.startingAt 4294967294 10 1)).run stopped
    (∀ w ∈ startedWrites stopped, w.isAdd = true) ∧
      h.record.handed = [[1, 2], [3]] ∧ h.record.taken = [[1, 2]] ∧
      h.buffer.handoff.items = [[3]] ∧ (3, [1, 2]) ∈ h.holdings ∧ h.record.receivedBy 3 = [1, 2] ∧
      (∀ x ∈ h.holdings, x.2 = h.record.receivedBy x.1) ∧ h.buffer.sending = some [9, 9] ∧
      (∃ call : Fin h.record.handed.length → Fin (startedWrites stopped).length,
        Function.Injective call ∧
          ∀ i, (startedWrites stopped)[call i] =
            .add (Seq.advance 4294967294 (total List.length (h.record.handed.take i)))
              h.record.handed[i]) ∧
      h.buffer.expected =
        Seq.advance 4294967294
          (h.buffer.delivered + total List.length h.buffer.sending.toList) := by
  obtain ⟨hcalls, -, -, hreceived, hopen⟩ := handed_chain 4294967294 10 1 stopped (by decide)
  exact ⟨by decide, by decide, by decide, by decide, by decide, by decide, hreceived (by decide),
    by decide, hcalls, (hopen (by decide)).1⟩

end StreamTap
