import StreamTap.Proofs.Stream.Accounts
import StreamTap.Proofs.Stream.Assembly

/-!
# The order of the segments does not matter

Whatever segments a stream has, overlapping or with gaps, and in whatever order and
however often each of them is written, a buffer ends up in the same place: it has handed
over the chain of the layout, link by link, and holds the segments that start behind the
chain's end (`assembled_in_any_order`).

What a buffer does with a segment that was overtaken does depend on the order.  If it was
parked it is given up as stale, if it comes late it is refused as lying outside the
window.  Only the sum of the two, and of the repetitions, is the same for every order.
-/

namespace StreamTap

namespace Layout

variable (m : Layout)

/-- The offsets of the segments that no drain can reach. -/
def behindChain : List Nat := m.offsets.filter fun o => m.reach 0 < o

theorem nodup_behindChain : m.behindChain.Nodup := m.nodup_offsets.filter _

theorem mem_behindChain_iff {o : Nat} :
    o ∈ m.behindChain ↔ m.reach 0 < o ∧ ∃ p, m.entry? o = some p := by
  simp only [behindChain, List.mem_filter, m.mem_offsets_iff, decide_eq_true_eq]
  exact and_comm

theorem nodup_segments (s : Seq) {l : List Nat} (hl : l.Nodup)
    (hround : ∀ o ∈ l, o < UInt32.size) : (l.map (m.segment s)).Nodup := by
  rw [List.Nodup, List.pairwise_map]
  refine hl.imp_of_mem ?_
  intro o n ho hn hne heq
  have ho := hround o ho
  have hn := hround n hn
  have hseq : s.advance o = s.advance n := congrArg Segment.seq heq
  exact hne (s.eq_of_advance_eq hseq (by omega) (by omega))

end Layout

/-- Where a layout is assembled in a history, the segments that have come are those whose
writes have begun. -/
structure Assembles (m : Layout) (s : Seq) (calls : List Nat) (b : Buffer) (r : Record) :
    Prop where
  assembling : Assembling m s 0 (calls.take r.begun.length) r.handed b
  lost : r.lost = []
  window : ∀ o ∈ m.offsets, o ≤ b.window.toNat

namespace Assembles

variable {m : Layout} {s : Seq} {calls : List Nat} {b b' : Buffer} {r r' : Record}
  {closing : Prop}

theorem begin (h : Assembles m s calls b r) (hcalls : ∀ o ∈ calls, o ∈ m.offsets)
    (hsending : b.sending = none) {w : Write} (hw : w.isVoid = false)
    (hbegun : r.begun ++ [w] <+: calls.map (m.writeAt s)) :
    Assembles m s calls (b.begin w) { r with begun := r.begun ++ [w] } := by
  have hnext : calls[r.begun.length]?.map (m.writeAt s) = some w := by
    obtain ⟨rest, hrest⟩ := hbegun
    rw [← List.getElem?_map, ← hrest]
    simp
  obtain ⟨o, ho, rfl⟩ := Option.map_eq_some_iff.1 hnext
  have hoffset := hcalls o (List.mem_of_getElem? ho)
  obtain ⟨p, hp⟩ := m.mem_offsets_iff.1 hoffset
  have hnear := h.window o hoffset
  constructor
  · rw [List.length_append, List.length_singleton, List.take_add_one, ho, Layout.writeAt,
      m.payload_of_some hp]
    exact h.assembling.begin_add hsending (m.nonempty hp) (fun _ => hp) (by omega)
  · exact h.lost
  · rw [(b.sameFront_begin hw).window]
    exact h.window

theorem isOpen (h : Assembles m s calls b r) : b.isClosed = false := by
  obtain ⟨low, front, hassembly, -⟩ := h.assembling
  exact hassembly.isOpen

theorem change (h : Assembles m s calls b r) (hcalls : ∀ o ∈ calls, o ∈ m.offsets)
    (hclosing : ¬closing) (hbegun : r'.begun <+: calls.map (m.writeAt s))
    (hchange : Change closing b r b' r') : Assembles m s calls b' r' := by
  cases hchange with
  | begun w hsending hw => exact h.begin hcalls hsending hw hbegun
  | handed chunk hsending _ _ =>
    refine ⟨h.assembling.accepted hsending, h.lost, ?_⟩
    rw [Buffer.window_pull]
    exact h.window
  | lost chunk _ hclosed =>
    rw [h.isOpen] at hclosed
    cases hclosed
  | taken chunk rest _ => exact ⟨h.assembling.taken chunk rest, h.lost, h.window⟩
  | closed hc => exact absurd hc hclosing

end Assembles

theorem filter_writeAt (m : Layout) (s : Seq) {calls : List Nat}
    (hcalls : ∀ o ∈ calls, o ∈ m.offsets) :
    ((calls.map (m.writeAt s)).filter fun w => !w.isVoid) = calls.map (m.writeAt s) := by
  rw [List.filter_eq_self]
  intro w hw
  obtain ⟨o, ho, rfl⟩ := List.mem_map.1 hw
  rw [m.isVoid_writeAt s (hcalls o ho)]
  rfl

/-- Where the writes of a schedule are segments of a layout, a new buffer that is never closed
assembles this layout, and when its writers are done all the segments have come. -/
theorem assembling_run (m : Layout) (s : Seq) (window : UInt32) (capacity : Nat)
    (calls : List Nat) (schedule : List Occurrence)
    (hwindow : ∀ o ∈ m.offsets, o ≤ window.toNat)
    (hlimit : m.reach 0 + window.toNat < UInt32.size) (hcalls : ∀ o ∈ calls, o ∈ m.offsets)
    (hstarted : startedWrites schedule = calls.map (m.writeAt s))
    (hnever : Occurrence.close ∉ schedule)
    (hdone : ((History.ofBuffer (.startingAt s window capacity)).run schedule).WritersDone) :
    let h := (History.ofBuffer (.startingAt s window capacity)).run schedule
    Assembling m s 0 calls h.record.handed h.buffer ∧ h.record.lost = [] ∧
      h.buffer.sending = none ∧ h.record.begun = calls.map (m.writeAt s) := by
  intro h
  have hasked : (startedWrites schedule).filter (fun w => !w.isVoid) = calls.map (m.writeAt s) := by
    rw [hstarted, filter_writeAt m s hcalls]
  have hassembles : Assembles m s calls h.buffer h.record := by
    refine History.run_keeps (P := Assembles m s calls) rfl ?_ ?_
    · have hstart : Assembling m s 0 [] [] (.startingAt (s.advance 0) window capacity) :=
        .startingAt capacity hlimit
      rw [s.advance_zero] at hstart
      exact ⟨hstart, rfl, hwindow⟩
    · intro done o hupto hold hchange
      refine hold.change hcalls ?_ (hasked ▸ History.begun_prefix rfl hupto) hchange
      rintro rfl
      exact hnever (hupto.subset (List.mem_append_right _ List.mem_cons_self))
  obtain ⟨hnone, hbegun⟩ := History.run_done rfl hdone
  rw [hasked] at hbegun
  have hbegun : h.record.begun = calls.map (m.writeAt s) := hbegun
  have hcame := hassembles.assembling
  rw [hbegun, List.length_map, List.take_length] at hcame
  exact ⟨hcame, hassembles.lost, hnone, hbegun⟩

theorem bytes_of_parked_behindChain (m : Layout) (s : Seq) {p : Parked}
    (hround : ∀ o ∈ m.offsets, o < UInt32.size)
    (hview : ∀ t payload, p.find? t = some payload ↔
      ∃ o, t = s.advance o ∧ m.reach 0 < o ∧ m.entry? o = some payload) :
    p.bytes = total (fun o => (m.payload o).length) m.behindChain := by
  have hnodup : (m.behindChain.map (m.segment s)).Nodup :=
    m.nodup_segments s m.nodup_behindChain fun o ho => hround o (List.mem_filter.1 ho).1
  have hperm : p.segments.Perm (m.behindChain.map (m.segment s)) := by
    refine p.perm_segments hnodup fun x => ?_
    rw [hview, List.mem_map]
    constructor
    · rintro ⟨o, ho, rfl⟩
      obtain ⟨hbehind, payload, hp⟩ := m.mem_behindChain_iff.1 ho
      exact ⟨o, rfl, hbehind, hp.trans (congrArg some (m.payload_of_some hp).symm)⟩
    · rintro ⟨o, hseq, hbehind, hp⟩
      refine ⟨o, m.mem_behindChain_iff.2 ⟨hbehind, _, hp⟩, ?_⟩
      rw [Layout.segment, m.payload_of_some hp, ← hseq]
  rw [Parked.bytes, total_perm hperm, total_map]
  rfl

/-- Whatever segments a stream has and in whatever order they are written, each at least
once, a buffer that is never closed hands over the chain of the layout, so that the readers
and the hand-off have it together, and keeps the segments behind it, and its counts say so. -/
theorem assembled_in_any_order (m : Layout) (s : Seq) (window : UInt32) (capacity : Nat)
    (calls : List Nat) (schedule : List Occurrence)
    (hwindow : ∀ o ∈ m.offsets, o ≤ window.toNat)
    (hlimit : m.reach 0 + window.toNat < UInt32.size)
    (hcalls : ∀ o, o ∈ calls ↔ o ∈ m.offsets)
    (hstarted : startedWrites schedule = calls.map (m.writeAt s))
    (hnever : Occurrence.close ∉ schedule)
    (hdone : ((History.ofBuffer (.startingAt s window capacity)).run schedule).WritersDone) :
    let h := (History.ofBuffer (.startingAt s window capacity)).run schedule
    h.record.handed = m.chain 0 ∧
      h.record.handed = h.record.taken ++ h.buffer.handoff.items ∧
      h.buffer.expected = s.advance (m.reach 0) ∧
      h.buffer.published = s.advance (m.reach 0) ∧
      (∀ t p, h.buffer.parked.find? t = some p ↔
        ∃ o, t = s.advance o ∧ m.reach 0 < o ∧ m.entry? o = some p) ∧
      h.buffer.buffered = total (fun o => (m.payload o).length) m.behindChain ∧
      h.buffer.delivered = m.reach 0 ∧
      h.buffer.outOfWindow + h.buffer.duplicate + h.buffer.stale + h.record.handed.length
        + h.buffer.parked.size = calls.length := by
  intro h
  obtain ⟨hassembling, hlost, hnone, hbegun⟩ := assembling_run m s window capacity calls schedule
    hwindow hlimit (fun o ho => (hcalls o).1 ho) hstarted hnever hdone
  obtain ⟨hhanded, hexpected, hparked⟩ := hassembling.complete hnone fun o ho => (hcalls o).2 ho
  have haccounts : Accounts h.buffer h.record :=
    accounts_run rfl (.startingAt s window capacity) schedule
  have hround : ∀ o ∈ m.offsets, o < UInt32.size := by
    intro o ho
    have hnear := hwindow o ho
    omega
  refine ⟨hhanded, haccounts.queue, hexpected, haccounts.published.trans hexpected, hparked,
    ?_, ?_, ?_⟩
  · rw [haccounts.buffered]
    exact bytes_of_parked_behindChain m s hround hparked
  · rw [haccounts.delivered, hhanded, Layout.reach, Nat.zero_add]
  · have hadds : (calls.map (m.writeAt s)).filter Write.isAdd = calls.map (m.writeAt s) := by
      rw [List.filter_eq_self]
      intro w hw
      obtain ⟨o, -, rfl⟩ := List.mem_map.1 hw
      rfl
    have hfates := haccounts.fates
    have hnone : h.buffer.sending = none := hnone
    rw [hbegun, hadds, List.length_map, fates, hnone, hlost] at hfates
    simp only [Option.toList_none, List.length_nil] at hfates
    omega

/-- Four segments, of which one starts inside another and one lies behind a gap. -/
def overlapping : Layout where
  entry?
    | 0 => some [97, 98, 99]
    | 2 => some [120]
    | 3 => some [100, 101]
    | 9 => some [122]
    | _ => none
  bound := 10
  inside := by
    intro o p h
    split at h
    case h_5 => cases h
    all_goals omega
  nonempty := by
    rintro o p h rfl
    split at h <;> cases h

theorem chain_overlapping : overlapping.chain 0 = [[97, 98, 99], [100, 101]] := by
  rw [overlapping.chain_of_some (p := [97, 98, 99]) rfl,
    overlapping.chain_of_some (p := [100, 101]) rfl, overlapping.chain_of_none rfl]

/-- The segments of `overlapping` are written from the last to the first, and three of them
once more, while a reader takes chunks out of a hand-off with room for one. -/
def backwards : List Occurrence :=
  [9, 3, 2, 0, 3, 2, 9].map (fun o => .start o (.write (overlapping.writeAt 4294967294 o))) ++
    [.move 0, .move 0, .move 0, .start 10 (.readAtLeast 5)] ++ List.replicate 3 (.move 0) ++
    [.move 4, .move 0, .move 3] ++ List.replicate 4 (.move 0)

theorem assembled_in_any_order_backwards :
    let h := (History.ofBuffer (.startingAt 4294967294 20 1)).run backwards
    h.record.handed = [[97, 98, 99], [100, 101]] ∧
      h.record.handed = h.record.taken ++ h.buffer.handoff.items ∧
      h.buffer.handoff.items = [] ∧ h.buffer.expected = 3 ∧ h.buffer.buffered = 1 ∧
      h.buffer.outOfWindow + h.buffer.duplicate + h.buffer.stale + h.record.handed.length
        + h.buffer.parked.size = 7 := by
  have hoffsets : overlapping.offsets = [0, 2, 3, 9] := by decide
  have hreach : overlapping.reach 0 = 5 := by
    rw [Layout.reach, chain_overlapping]
    rfl
  have h := assembled_in_any_order overlapping 4294967294 20 1 [9, 3, 2, 0, 3, 2, 9] backwards
    (by rw [hoffsets]; decide) (by rw [hreach]; decide)
    (by
      intro o
      rw [hoffsets]
      simp only [List.mem_cons, List.not_mem_nil, or_false]
      omega)
    (by decide) (by decide) (by decide)
  rw [hreach, chain_overlapping, Layout.behindChain, hoffsets, hreach] at h
  obtain ⟨hhanded, hqueue, hexpected, -, -, hbuffered, -, hfates⟩ := h
  exact ⟨hhanded, hqueue, by decide, hexpected, hbuffered, hfates⟩

end StreamTap
