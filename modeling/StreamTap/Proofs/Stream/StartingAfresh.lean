import StreamTap.Proofs.Stream.Chain
import StreamTap.Proofs.Stream.OrderIndependence
import StreamTap.Proofs.Stream.Rebase

/-!
# A rebase is a fresh start with what survives it

A rebase gives up what is parked outside the window of the new number.  What survives is drained
from there, and at the end of the drain the segments that it has overtaken are given up too.  A
new buffer that begins at this number, and into which the survivors are written one by one, makes
its drains at other moments, and refuses or gives up what is overtaken according to the order of
the writes.  It ends up in the same place all the same (`rebased_as_afresh`): both hand over the
chain of the layout that the survivors make up, and both keep the segments behind its end.

For the new buffer this is what is known about the assembly of a layout.  The rebased buffer is
seen as a buffer that assembles the same layout from the moment on when everything outside the
window is given up, if the bytes that it had delivered before are left out of account (`since`).
-/

namespace StreamTap

namespace Buffer

variable (b : Buffer)

/-- The buffer with the bytes from the first `n` ones on counted as delivered. -/
def since (n : Nat) : Buffer := { b with delivered := b.delivered - n }

theorem since_pull (n : Nat) (moved : Bool) : (b.pull moved).since n = (b.since n).pull moved := by
  cases h : b.parked.find? b.expected with
  | some chunk =>
    rw [b.pull_of_some h, (b.since n).pull_of_some h]
    rfl
  | none =>
    cases moved with
    | true =>
      rw [b.pull_true_of_none h, (b.since n).pull_true_of_none h]
      rfl
    | false => rw [b.pull_false_of_none h, (b.since n).pull_false_of_none h]

theorem since_accepted {n : Nat} (h : n ≤ b.delivered) (chunk : Bytes) :
    (b.accepted chunk).since n = (b.since n).accepted chunk := by
  have hdelivered : b.delivered + chunk.length - n = b.delivered - n + chunk.length := by omega
  simp only [since, accepted, hdelivered]

/-! ## Segments that are given up -/

/-- The segments that are parked, on offer and in the hand-off, and those that were given up. -/
def tally : Nat :=
  b.stale + b.parked.size + b.sending.toList.length + b.handoff.items.length

theorem tally_prune : b.prune.tally = b.tally := by
  have hsize := b.parked.size_filter (Seq.inWindow b.expected b.window)
  simp only [tally, prune]
  omega

variable {b}

theorem tally_pull (hsending : b.sending = none) (moved : Bool) :
    (b.pull moved).tally = b.tally := by
  refine b.pull_elim (P := fun a => a.tally = b.tally) moved ?_ (fun _ _ => b.tally_prune)
    fun _ _ => rfl
  intro chunk hchunk
  have hsize := Parked.size_erase hchunk
  simp only [tally, pulled, hsending, Option.toList_some, Option.toList_none, List.length_singleton,
    List.length_nil]
  omega

theorem tally_accepted {chunk : Bytes} (hsending : b.sending = some chunk) :
    (b.accepted chunk).tally = b.tally := by
  simp only [tally, accepted, hsending, Option.toList_some, Option.toList_none,
    List.length_singleton, List.length_nil, List.length_append]
  omega

end Buffer

/-! ## The survivors -/

/-- An open buffer as some history has left it, with nothing on offer. -/
structure Unoccupied (b : Buffer) : Prop where
  reached : ∃ s window capacity schedule,
    b = ((History.ofBuffer (.startingAt s window capacity)).run schedule).buffer
  isOpen : b.isClosed = false
  quiet : b.sending = none

/-- The parked segments that are in the window of another number. -/
def Buffer.survivors (b : Buffer) (s : Seq) : Parked := b.parked.filter (Seq.inWindow s b.window)

/-- A rebase of `b` that has handed over `sent` so far.  It assembles the layout of the survivors
behind the chunks that were in the hand-off before, and loses count of no segment. -/
structure Rebasing (b : Buffer) (s : Seq) (sent : List Bytes) (a : Buffer) : Prop where
  delivered : b.delivered ≤ a.delivered
  items : a.handoff.items = b.handoff.items ++ sent
  assembling : Assembling (b.expectAt s).layout s 0 (b.expectAt s).layout.offsets sent
    (a.since b.delivered)
  tally : a.tally = b.tally

namespace Rebasing

variable {b a : Buffer} {s : Seq} {sent : List Bytes} (h : Rebasing b s sent a)

include h

theorem isOpen : a.isClosed = false := by
  obtain ⟨_, _, hassembly, -⟩ := h.assembling
  exact hassembly.isOpen

theorem accepted {chunk : Bytes} (hsending : a.sending = some chunk) :
    Rebasing b s (sent ++ [chunk]) ((a.accepted chunk).pull true) where
  delivered := by
    rw [((a.accepted chunk).sameFront_pull true).delivered]
    exact Nat.le_add_right_of_le h.delivered
  items := by
    rw [Buffer.handoff_pull, ← List.append_assoc, ← h.items]
    rfl
  assembling := by
    rw [Buffer.since_pull, a.since_accepted h.delivered]
    exact h.assembling.accepted hsending
  tally := by
    rw [Buffer.tally_pull (b := a.accepted chunk) rfl, Buffer.tally_accepted hsending, h.tally]

/-- When nothing is left on offer, each segment that was parked still is, or was given up, or was
handed over. -/
theorem count (hbefore : b.sending = none) (hsending : a.sending = none) :
    a.stale + a.parked.size + sent.length = b.stale + b.parked.size := by
  have htally := h.tally
  rw [Buffer.tally, Buffer.tally, hbefore, hsending, h.items, List.length_append] at htally
  omega

end Rebasing

namespace Unoccupied

variable {b : Buffer} (h : Unoccupied b) (s : Seq)

include h

theorem nonempty {t : Seq} {q : Bytes} (hq : b.parked.find? t = some q) : q ≠ [] := by
  obtain ⟨s, window, capacity, schedule, rfl⟩ := h.reached
  exact (solid_run s window capacity schedule).1.parked hq

theorem layout_eq_some_iff {o : Nat} {q : Bytes} :
    (b.expectAt s).layout.entry? o = some q ↔
      o ≤ b.window.toNat ∧ (b.survivors s).find? (s.advance o) = some q := by
  have hentry : (b.expectAt s).layout.entry? o = some q ↔
      o ≤ b.window.toNat ∧ b.parked.find? (s.advance o) = some q :=
    Buffer.layout_eq_some_iff (b := b.expectAt s) h.nonempty
  rw [hentry, and_congr_right_iff]
  intro hnear
  have hwindow := b.window.toNat_lt
  have hinside : Seq.inWindow s b.window (s.advance o) = true := by
    rw [Seq.inWindow_iff_distance_le, s.distance_advance_self (by simp only [UInt32.size]; omega)]
    exact hnear
  rw [Buffer.survivors, Parked.find?_filter, if_pos hinside]

theorem exists_offset {t : Seq} {q : Bytes} (hq : (b.survivors s).find? t = some q) :
    ∃ o, t = s.advance o ∧ (b.expectAt s).layout.entry? o = some q := by
  refine ⟨Seq.distance s t, (s.advance_distance t).symm, (h.layout_eq_some_iff s).2 ⟨?_, ?_⟩⟩
  · rw [← Seq.inWindow_iff_distance_le]
    rw [Buffer.survivors, Parked.find?_filter] at hq
    split at hq
    · assumption
    · cases hq
  · rwa [s.advance_distance]

/-! ## The rebased buffer -/

/-- When what does not survive is given up, the buffer has what it needs to assemble the layout of
the survivors. -/
theorem assembly_prune (hlimit : (b.expectAt s).layout.reach 0 + b.window.toNat < UInt32.size) :
    Assembly (b.expectAt s).layout s 0 (b.expectAt s).layout.offsets [] 0 0
      ((b.expectAt s).prune.since b.delivered) where
  limit := hlimit
  isOpen := h.isOpen
  expected := s.advance_zero.symm
  published := s.advance_zero.symm
  delivered := Nat.sub_self _
  chunks := by simp [Buffer.since, Buffer.prune, Buffer.expectAt, h.quiet]
  position := by simp [Buffer.since, Buffer.prune, Buffer.expectAt, h.quiet]
  known := by
    intro t p hp
    obtain ⟨o, ho, hentry⟩ := h.exists_offset s (show (b.survivors s).find? t = some p from hp)
    exact ⟨o, ho, (Layout.mem_offsets_iff _).2 ⟨p, hentry⟩, Nat.zero_le o, hentry⟩
  kept := by
    intro o p _ _ hp
    exact ((h.layout_eq_some_iff s).1 hp).2
  near := by
    intro o ho
    obtain ⟨p, hp⟩ := (Layout.mem_offsets_iff _).1 ho
    rw [Nat.zero_add]
    exact ((h.layout_eq_some_iff s).1 hp).1

theorem rebasing_begin (hlimit : (b.expectAt s).layout.reach 0 + b.window.toNat < UInt32.size) :
    Rebasing b s [] (b.begin (.rebase s)) := by
  rw [b.begin_rebase]
  constructor
  · rw [((b.expectAt s).prune.sameFront_pull false).delivered]
    exact Nat.le_refl _
  · rw [Buffer.handoff_pull, List.append_nil]
    rfl
  · rw [Buffer.since_pull]
    exact (h.assembly_prune s hlimit).pull_false h.quiet
  · rw [Buffer.tally_pull (b := (b.expectAt s).prune) h.quiet, Buffer.tally_prune]
    rfl

theorem rebasing_write (hlimit : (b.expectAt s).layout.reach 0 + b.window.toNat < UInt32.size) :
    ∃ sent, Rebasing b s sent (b.write (.rebase s)) := by
  rw [b.write_eq_finish _ h.quiet]
  refine Buffer.finish_keeps (P := fun a => ∃ sent, Rebasing b s sent a) ?_
    ⟨[], h.rebasing_begin s hlimit⟩
  rintro a ⟨sent, ha⟩ hoffer
  refine a.offer_elim (P := fun c => ∃ sent, Rebasing b s sent c) hoffer ?_ ?_
  · intro chunk hsending _ _
    exact ⟨_, ha.accepted hsending⟩
  · intro chunk _ hclosed
    rw [ha.isOpen] at hclosed
    cases hclosed

theorem accounts_rebase : ∃ r, Accounts (b.write (.rebase s)) r := by
  rw [b.write_eq_finish _ h.quiet]
  refine Buffer.finish_keeps (P := fun a => ∃ r, Accounts a r) ?_ ?_
  · rintro a ⟨r, hr⟩ hoffer
    refine a.offer_elim (P := fun c => ∃ r, Accounts c r) hoffer ?_ ?_
    · intro chunk hsending _ _
      exact ⟨_, (hr.accepted hsending).pull rfl true⟩
    · intro chunk hsending _
      exact ⟨_, hr.lost hsending⟩
  · obtain ⟨s₀, window, capacity, schedule, hreached⟩ := h.reached
    have hbefore := accounts_run (b := .startingAt s₀ window capacity) rfl
      (.startingAt s₀ window capacity) schedule
    rw [← hreached] at hbefore
    exact ⟨_, hbefore.begin h.quiet rfl⟩

/-! ## The new buffer -/

theorem write_of_mem {x : Segment} (hx : x ∈ (b.survivors s).segments) :
    Seq.distance s x.seq ∈ (b.expectAt s).layout.offsets ∧
      (b.expectAt s).layout.writeAt s (Seq.distance s x.seq) = x.write := by
  obtain ⟨o, hseq, hentry⟩ := h.exists_offset s ((Parked.mem_segments_iff _ x).1 hx)
  have hnear := ((h.layout_eq_some_iff s).1 hentry).1
  have hwindow := b.window.toNat_lt
  have hdistance : Seq.distance s x.seq = o := by
    rw [hseq, s.distance_advance_self (by simp only [UInt32.size]; omega)]
  rw [hdistance]
  refine ⟨(Layout.mem_offsets_iff _).2 ⟨_, hentry⟩, ?_⟩
  rw [Layout.writeAt, Layout.payload_of_some _ hentry, ← hseq, Segment.write]

/-- A new buffer into which the survivors are written, each of them once and in any order,
assembles their layout. -/
theorem assembling_afresh {order : List Segment} (horder : order.Perm (b.survivors s).segments)
    (hlimit : (b.expectAt s).layout.reach 0 + b.window.toNat < UInt32.size) (capacity : Nat)
    {schedule : List Occurrence} (hstarted : startedWrites schedule = order.map Segment.write)
    (hnever : Occurrence.close ∉ schedule)
    (hdone : ((History.ofBuffer (.startingAt s b.window capacity)).run schedule).WritersDone) :
    let fresh := (History.ofBuffer (.startingAt s b.window capacity)).run schedule
    (∃ calls, (∀ o ∈ (b.expectAt s).layout.offsets, o ∈ calls) ∧
        Assembling (b.expectAt s).layout s 0 calls fresh.record.handed fresh.buffer) ∧
      fresh.record.lost = [] ∧ fresh.buffer.sending = none ∧
      fresh.record.begun = order.map Segment.write := by
  intro fresh
  have hcalls : order.map Segment.write =
      (order.map fun x => Seq.distance s x.seq).map ((b.expectAt s).layout.writeAt s) := by
    rw [List.map_map, List.map_inj_left]
    intro x hx
    exact (h.write_of_mem s (horder.mem_iff.1 hx)).2.symm
  have hoffsets : ∀ o ∈ order.map (fun x => Seq.distance s x.seq),
      o ∈ (b.expectAt s).layout.offsets := by
    intro o ho
    obtain ⟨x, hx, rfl⟩ := List.mem_map.1 ho
    exact (h.write_of_mem s (horder.mem_iff.1 hx)).1
  have hwindow : ∀ o ∈ (b.expectAt s).layout.offsets, o ≤ b.window.toNat := by
    intro o ho
    obtain ⟨p, hp⟩ := (Layout.mem_offsets_iff _).1 ho
    exact ((h.layout_eq_some_iff s).1 hp).1
  rw [hcalls] at hstarted ⊢
  obtain ⟨hassembling, hlost, hnone, hbegun⟩ := assembling_run _ s b.window capacity _ schedule
    hwindow hlimit hoffsets hstarted hnever hdone
  refine ⟨⟨_, fun o ho => ?_, hassembling⟩, hlost, hnone, hbegun⟩
  obtain ⟨p, hp⟩ := (Layout.mem_offsets_iff _).1 ho
  have hfind := ((h.layout_eq_some_iff s).1 hp).2
  refine List.mem_map.2 ⟨⟨s.advance o, p⟩, horder.mem_iff.2 ?_, ?_⟩
  · exact (Parked.mem_segments_iff _ _).2 hfind
  · have hnear := hwindow o ho
    have hround := b.window.toNat_lt
    exact s.distance_advance_self (by simp only [UInt32.size]; omega)

/-- A rebase of an open buffer with no write in progress, when it comes to its end without having
to wait, leaves the buffer as a new one is left that begins at this number with the same window
and into which the survivors are written in any order: with the same expected number, the same
segments parked, and the same chunks handed over, behind those that were in the hand-off.  What
was parked outside the window is gone, and it is counted as stale besides what the new buffer
refused or gave up. -/
theorem rebased_as_afresh {order : List Segment} (horder : order.Perm (b.survivors s).segments)
    (hlimit : (b.expectAt s).layout.reach 0 + b.window.toNat < UInt32.size)
    (hrebased : (b.write (.rebase s)).sending = none) (capacity : Nat)
    (schedule : List Occurrence) (hstarted : startedWrites schedule = order.map Segment.write)
    (hnever : Occurrence.close ∉ schedule)
    (hdone : ((History.ofBuffer (.startingAt s b.window capacity)).run schedule).WritersDone) :
    let fresh := (History.ofBuffer (.startingAt s b.window capacity)).run schedule
    let rebased := b.write (.rebase s)
    rebased.expected = fresh.buffer.expected ∧ rebased.published = fresh.buffer.published ∧
      rebased.parked = fresh.buffer.parked ∧ rebased.buffered = fresh.buffer.buffered ∧
      rebased.handoff.items = b.handoff.items ++ fresh.record.handed ∧
      (∀ t, Seq.inWindow s b.window t = false → rebased.parked.find? t = none) ∧
      rebased.stale = b.stale + (b.parked.filter fun t => !Seq.inWindow s b.window t).size +
        (fresh.buffer.outOfWindow + fresh.buffer.duplicate + fresh.buffer.stale) := by
  intro fresh rebased
  obtain ⟨sent, hrebasing⟩ := h.rebasing_write s hlimit
  obtain ⟨r, haccounts⟩ := h.accounts_rebase s
  obtain ⟨⟨calls, hall, hafresh⟩, hlost, hnone, hbegun⟩ :=
    h.assembling_afresh s horder hlimit capacity hstarted hnever hdone
  have hcounts : Accounts fresh.buffer fresh.record :=
    accounts_run rfl (.startingAt s b.window capacity) schedule
  obtain ⟨hsent, hexpected, hview⟩ := hrebasing.assembling.complete hrebased fun _ ho => ho
  obtain ⟨hhanded, hexpected', hview'⟩ := hafresh.complete hnone hall
  have hsame : rebased.expected = fresh.buffer.expected := hexpected.trans hexpected'.symm
  have hparked : rebased.parked = fresh.buffer.parked := by
    refine Parked.ext_find? fun t => Option.ext fun p => ?_
    exact (hview t p).trans (hview' t p).symm
  refine ⟨hsame, ?_, hparked, ?_, ?_, ?_, ?_⟩
  · rw [hcounts.published, haccounts.published, hsame]
  · rw [hcounts.buffered, haccounts.buffered, hparked]
  · rw [hrebasing.items, hsent, hhanded]
  · intro t houtside
    rw [Option.eq_none_iff_forall_ne_some]
    intro p hp
    obtain ⟨o, rfl, -, hentry⟩ := (hview t p).1 hp
    have hinside := ((h.layout_eq_some_iff s).1 hentry).2
    rw [Buffer.survivors, Parked.find?_filter, houtside, if_neg (by simp)] at hinside
    cases hinside
  · -- Both buffers end with the same segments, and neither has lost count of one.
    have hfates := hcounts.fates
    have hsize := b.parked.size_filter (Seq.inWindow s b.window)
    have hlength : (order.map Segment.write).filter Write.isAdd = order.map Segment.write := by
      rw [List.filter_eq_self]
      intro w hw
      obtain ⟨x, -, rfl⟩ := List.mem_map.1 hw
      rfl
    rw [hbegun, hlength, List.length_map, horder.length_eq, fates, hnone, hlost, hhanded,
      ← hsent, ← hparked] at hfates
    rw [Option.toList_none, List.length_nil] at hfates
    have hcount : rebased.stale + rebased.parked.size + sent.length = b.stale + b.parked.size :=
      hrebasing.count h.quiet hrebased
    have hsurvivors : (b.survivors s).segments.length =
        (b.parked.filter (Seq.inWindow s b.window)).size := rfl
    omega

end Unoccupied

/-- One chunk is handed over and five segments are parked, on both sides of the wrap. -/
def scattered : Buffer :=
  ((History.ofBuffer (.startingAt 4294967280 40 4)).run
    [.start 0 (.write (.add 4294967280 [1, 2])), .move 0, .move 0,
      .start 1 (.write (.add 4294967286 [9])), .move 0,
      .start 2 (.write (.add 4294967294 [3, 4, 5])), .move 0,
      .start 3 (.write (.add 4294967295 [8])), .move 0, .start 4 (.write (.add 1 [6])), .move 0,
      .start 5 (.write (.add 5 [7])), .move 0]).buffer

/-- Those that survive a rebase to the last number but one are written into a new buffer.  The
one that is overtaken comes late. -/
def scatteredAfresh : List Occurrence :=
  [.start 0 (.write (.add 5 [7])), .move 0, .start 1 (.write (.add 1 [6])), .move 0,
    .start 2 (.write (.add 4294967294 [3, 4, 5])), .move 0, .move 0, .move 0,
    .start 3 (.write (.add 4294967295 [8])), .move 0]

theorem rebased_as_afresh_scattered :
    let fresh := (History.ofBuffer (.startingAt 4294967294 40 2)).run scatteredAfresh
    let rebased := scattered.write (.rebase 4294967294)
    rebased.expected = fresh.buffer.expected ∧ rebased.parked = fresh.buffer.parked ∧
      scattered.handoff.items = [[1, 2]] ∧ fresh.record.handed = [[3, 4, 5], [6]] ∧
      rebased.handoff.items = scattered.handoff.items ++ fresh.record.handed ∧
      rebased.stale = 2 ∧ fresh.buffer.outOfWindow = 1 := by
  have hunoccupied : Unoccupied scattered := ⟨⟨_, _, _, _, rfl⟩, by decide, by decide⟩
  have hreach : (scattered.expectAt 4294967294).layout.reach 0 = 4 := by
    rw [Layout.reach_of_some (p := [3, 4, 5]) _ (by decide),
      Layout.reach_of_some (p := [6]) _ (by decide), Layout.reach_of_none _ (by decide)]
    rfl
  have horder : [⟨5, [7]⟩, ⟨1, [6]⟩, ⟨4294967294, [3, 4, 5]⟩, ⟨4294967295, [8]⟩].Perm
      (scattered.survivors 4294967294).segments := by decide
  obtain ⟨hexpected, -, hparked, -, hitems, -, hstale⟩ := hunoccupied.rebased_as_afresh 4294967294
    horder (by rw [hreach]; decide) (by decide) 2 scatteredAfresh (by decide) (by decide)
    (by decide)
  exact ⟨hexpected, hparked, by decide, by decide, hitems, hstale.trans (by decide), by decide⟩

end StreamTap
