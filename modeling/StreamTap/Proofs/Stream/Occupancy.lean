import Mathlib.Data.List.Perm.Subperm
import StreamTap.Proofs.Stream.Rebase

/-!
# How many segments are parked

A window of `w` bytes has room for `w` segments ahead of the expected number and for one at
this number, because no two segments are parked under the same number.  So the question is
what is parked outside the window.  A buffer looks at the window of a segment only when the
segment is taken in; the window then moves on, and what it leaves behind stays until the next
prune.

`Occupancy` is the invariant.  As long as the hand-off accepts every chunk each drain ends with
a prune, and nothing is left behind.  A drain that ends with a refused chunk does not prune.  It
leaves behind what was parked, and each time there may be a whole window of it: so the bound on
what is parked grows with the number of refused chunks (`occupancy_run`).

For an open buffer it follows that what is parked is in the window, ahead of the expected
number, and not empty (`parked_ahead`).
-/

namespace StreamTap

namespace Parked

theorem size_le_of_distance (p : Parked) (expected : Seq) {least most : Nat}
    (h : ∀ x ∈ p.segments,
      least ≤ Seq.distance expected x.seq ∧ Seq.distance expected x.seq ≤ most) :
    p.size ≤ most + 1 - least := by
  have hnodup : (p.segments.map fun x => Seq.distance expected x.seq).Nodup := by
    rw [List.Nodup, List.pairwise_map]
    refine p.ordered.imp ?_
    intro x y hlt heq
    exact UInt32.ne_of_lt hlt (Seq.eq_of_distance_eq heq)
  have hsub : (p.segments.map fun x => Seq.distance expected x.seq) ⊆
      List.range' least (most + 1 - least) := by
    intro d hd
    obtain ⟨x, hx, rfl⟩ := List.mem_map.1 hd
    obtain ⟨hleast, hmost⟩ := h x hx
    rw [List.mem_range'_1]
    omega
  have hlength := (hnodup.subperm hsub).length_le
  rwa [List.length_map, List.length_range'] at hlength

end Parked

namespace Buffer

variable (b : Buffer)

/-- The parked segments outside the window, which the stream has left behind. -/
def leftBehind : Parked := b.parked.filter fun s => !Seq.inWindow b.expected b.window s

/-- What is parked is left behind, or it is in the window. -/
theorem size_parked_le : b.parked.size ≤ b.leftBehind.size + (b.window.toNat + 1) := by
  have hsize := b.parked.size_filter (Seq.inWindow b.expected b.window)
  have hinside : (b.parked.filter (Seq.inWindow b.expected b.window)).size ≤
      b.window.toNat + 1 - 0 := by
    refine Parked.size_le_of_distance _ b.expected fun x hx => ⟨Nat.zero_le _, ?_⟩
    exact (Seq.inWindow_iff_distance_le ..).1 (List.mem_filter.1 hx).2
  rw [leftBehind]
  omega

/-- Where nothing is parked under the expected number there is room for one less. -/
theorem size_parked_le_of_none (h : b.parked.find? b.expected = none) :
    b.parked.size ≤ b.leftBehind.size + b.window.toNat := by
  have hsize := b.parked.size_filter (Seq.inWindow b.expected b.window)
  have hinside : (b.parked.filter (Seq.inWindow b.expected b.window)).size ≤
      b.window.toNat + 1 - 1 := by
    refine Parked.size_le_of_distance _ b.expected fun x hx => ⟨?_, ?_⟩
    · obtain ⟨hmem, -⟩ := List.mem_filter.1 hx
      rw [Nat.one_le_iff_ne_zero, ne_eq, Seq.distance_eq_zero_iff]
      exact (b.parked.find?_eq_none_iff b.expected).1 h x hmem
    · exact (Seq.inWindow_iff_distance_le ..).1 (List.mem_filter.1 hx).2
  rw [leftBehind]
  omega

theorem size_leftBehind_le : b.leftBehind.size ≤ b.parked.size := List.length_filter_le ..

theorem inWindow_of_parked (h : b.leftBehind.size = 0) {t : Seq} {p : Bytes}
    (hp : b.parked.find? t = some p) : Seq.inWindow b.expected b.window t = true := by
  have hmem := (b.parked.mem_segments_iff ⟨t, p⟩).2 hp
  have hnone := List.length_eq_zero_iff.1 h
  simpa using List.filter_eq_nil_iff.1 hnone _ hmem

theorem size_leftBehind_prune : b.prune.leftBehind.size = 0 := by
  simp [leftBehind, prune, Parked.filter, Parked.size, List.filter_filter]

theorem size_leftBehind_park {seq : Seq} (payload : Bytes) (hfree : b.parked.find? seq = none)
    (hwindow : Seq.inWindow b.expected b.window seq = true) :
    (b.park seq payload).leftBehind.size = b.leftBehind.size := by
  have hperm := (Parked.perm_insert payload hfree).filter
    fun x => !Seq.inWindow b.expected b.window x.seq
  rw [List.filter_cons_of_neg (by simp [hwindow])] at hperm
  exact hperm.length_eq

end Buffer

/-! ## The invariant -/

/-- What is parked and what is left behind, by the number of the chunks that were refused. -/
structure Occupancy (window : UInt32) (b : Buffer) (r : Record) : Prop where
  sameWindow : b.window = window
  parked : b.parked.size ≤ window.toNat * r.lost.length + window.toNat
  leftBehind : b.sending = none → b.leftBehind.size ≤ window.toNat * r.lost.length
  whileOpen : b.isClosed = false → r.lost = []

namespace Occupancy

variable {window : UInt32} {b b' : Buffer} {r r' : Record} {closing : Prop}

theorem startingAt (s : Seq) (capacity : Nat) :
    Occupancy window (.startingAt s window capacity) {} where
  sameWindow := rfl
  parked := Nat.zero_le _
  leftBehind := fun _ => Nat.zero_le _
  whileOpen := fun _ => rfl

/-- A pull from a buffer that holds one segment more than it may.  It takes this one out, or
nothing is parked under the expected number and there is room. -/
theorem pull (hwindow : b.window = window)
    (hparked : b.parked.size ≤ window.toNat * r.lost.length + window.toNat + 1) (moved : Bool)
    (hleft : moved = false → b.leftBehind.size ≤ window.toNat * r.lost.length)
    (hopen : b.isClosed = false → r.lost = []) : Occupancy window (b.pull moved) r := by
  refine b.pull_elim (P := fun a => Occupancy window a r) moved ?_ ?_ ?_
  · intro chunk hchunk
    have hsize := Parked.size_erase hchunk
    refine ⟨hwindow, ?_, fun hnone => (by cases hnone), hopen⟩
    simp only [Buffer.pulled]
    omega
  · intro _ hnone
    have hprune : b.prune.parked.find? b.prune.expected = none := by
      simp [Buffer.prune, Parked.find?_filter, hnone]
    have hzero := b.size_leftBehind_prune
    have hroom := b.prune.size_parked_le_of_none hprune
    have hwindow : b.prune.window = window := hwindow
    rw [hwindow] at hroom
    exact ⟨hwindow, by omega, fun _ => by omega, hopen⟩
  · intro hmoved hnone
    have hleft := hleft hmoved
    have hroom := b.size_parked_le_of_none hnone
    rw [hwindow] at hroom
    exact ⟨hwindow, by omega, fun _ => hleft, hopen⟩

theorem begin (h : Occupancy window b r) (hsending : b.sending = none) {w : Write}
    (hw : w.isVoid = false) : Occupancy window (b.begin w) r := by
  have hparked := h.parked
  refine b.begin_elim (P := fun a => Occupancy window a r) hw ?_ ?_ ?_ ?_
  · exact fun _ _ _ _ _ => ⟨h.sameWindow, h.parked, h.leftBehind, h.whileOpen⟩
  · exact fun _ _ _ _ _ _ _ => ⟨h.sameWindow, h.parked, h.leftBehind, h.whileOpen⟩
  · intro seq payload _ _ hwindow hfree
    have hsize : (b.park seq payload).parked.size = b.parked.size + 1 :=
      Parked.size_insert payload hfree
    refine pull (b := b.park seq payload) h.sameWindow (by omega) false (fun _ => ?_) h.whileOpen
    rw [b.size_leftBehind_park payload hfree hwindow]
    exact h.leftBehind hsending
  · intro seq _
    have hzero := (b.expectAt seq).size_leftBehind_prune
    have hroom := (b.expectAt seq).prune.size_parked_le
    have hwindow : (b.expectAt seq).prune.window = window := h.sameWindow
    rw [hwindow] at hroom
    exact pull hwindow (by omega) false (fun _ => by omega) h.whileOpen

theorem change (h : Occupancy window b r) (hchange : Change closing b r b' r') :
    Occupancy window b' r' := by
  have hparked := h.parked
  cases hchange with
  | begun w hsending hw =>
    have hbegin := h.begin hsending hw
    exact ⟨hbegin.sameWindow, hbegin.parked, hbegin.leftBehind, hbegin.whileOpen⟩
  | handed chunk _ hopen _ =>
    have hpull : Occupancy window ((b.accepted chunk).pull true) r :=
      pull (b := b.accepted chunk) h.sameWindow (Nat.le_succ_of_le hparked) true
        (fun hmoved => (by cases hmoved)) h.whileOpen
    exact ⟨hpull.sameWindow, hpull.parked, hpull.leftBehind, hpull.whileOpen⟩
  | lost chunk _ hclosed =>
    -- What was parked may be left behind altogether, and counts for one more refused chunk.
    have hmore : window.toNat * (r.lost ++ [chunk]).length =
        window.toNat * r.lost.length + window.toNat := by
      rw [List.length_append, List.length_singleton, Nat.mul_succ]
    have hleft := (b.lost chunk).size_leftBehind_le
    have hsame : (b.lost chunk).parked.size = b.parked.size := rfl
    refine ⟨h.sameWindow, ?_, fun _ => ?_, fun hopen => by cases hclosed.symm.trans hopen⟩
    · rw [hmore, hsame]
      omega
    · rw [hmore]
      omega
  | taken chunk rest _ => exact ⟨h.sameWindow, h.parked, h.leftBehind, h.whileOpen⟩
  | closed _ => exact ⟨h.sameWindow, h.parked, h.leftBehind, fun hopen => by cases hopen⟩

end Occupancy

theorem occupancy_run (s : Seq) (window : UInt32) (capacity : Nat) (schedule : List Occurrence) :
    Occupancy window ((History.ofBuffer (.startingAt s window capacity)).run schedule).buffer
      ((History.ofBuffer (.startingAt s window capacity)).run schedule).record :=
  History.run_keeps rfl (.startingAt s capacity) fun _ _ _ hdone hchange => hdone.change hchange

/-- Whatever was written to an open buffer and however often it was rebased, while no call is in
the middle of a write all that is parked lies in the window ahead of the expected number, and
none of it is empty.  So no more segments are parked than the window has numbers. -/
theorem parked_ahead (s : Seq) (window : UInt32) (capacity : Nat) (schedule : List Occurrence)
    (hopen : ((History.ofBuffer (.startingAt s window capacity)).run schedule).buffer.isClosed
      = false)
    (hquiet : ((History.ofBuffer (.startingAt s window capacity)).run schedule).Quiet) :
    let b := ((History.ofBuffer (.startingAt s window capacity)).run schedule).buffer
    b.parked.find? b.expected = none ∧
      (∀ t p, b.parked.find? t = some p →
        1 ≤ Seq.distance b.expected t ∧ Seq.distance b.expected t ≤ window.toNat ∧ p ≠ []) ∧
      b.parked.size ≤ window.toNat := by
  intro b
  have hsending : b.sending = none := History.sending_of_quiet rfl hquiet
  obtain ⟨hsolid, hdrained⟩ := solid_run s window capacity schedule
  have hoccupancy := occupancy_run s window capacity schedule
  have hnone : b.parked.find? b.expected = none := hdrained hopen hsending
  have hleft : b.leftBehind.size = 0 := by
    have hle := hoccupancy.leftBehind hsending
    rw [hoccupancy.whileOpen hopen, List.length_nil, Nat.mul_zero] at hle
    exact Nat.le_zero.1 hle
  refine ⟨hnone, ?_, ?_⟩
  · intro t p hp
    have hwindow := (Seq.inWindow_iff_distance_le ..).1 (b.inWindow_of_parked hleft hp)
    rw [hoccupancy.sameWindow] at hwindow
    have hne : t ≠ b.expected := by
      rintro rfl
      rw [hnone] at hp
      cases hp
    exact ⟨Nat.one_le_iff_ne_zero.2 (mt Seq.distance_eq_zero_iff.1 hne), hwindow,
      hsolid.parked hp⟩
  · have hroom := b.size_parked_le_of_none hnone
    rw [hleft, hoccupancy.sameWindow, Nat.zero_add] at hroom
    exact hroom

/-- A segment is overtaken by the drain of two others and pruned, the buffer is rebased to a
number it has passed already, and a write waits to begin. -/
def setBack : List Occurrence :=
  [.start 0 (.write (.add 12 [1])), .move 0, .start 1 (.write (.add 15 [5])), .move 0,
    .start 2 (.write (.add 11 [1, 2, 3])), .move 0, .start 3 (.write (.add 10 [7])), .move 0,
    .move 0, .start 4 .read, .move 1, .move 0, .start 5 (.write (.rebase 12)), .move 0,
    .start 6 (.write (.add 16 [2])), .move 0, .start 7 (.write (.add 12 [9]))]

theorem parked_ahead_setBack :
    let h := (History.ofBuffer (.startingAt 10 5 1)).run setBack
    h.buffer.isClosed = false ∧ h.Quiet ∧ h.buffer.expected = 12 ∧ h.buffer.stale = 1 ∧
      h.buffer.parked.segments = [⟨15, [5]⟩, ⟨16, [2]⟩] ∧
      h.buffer.parked.find? h.buffer.expected = none ∧
      (∀ t p, h.buffer.parked.find? t = some p →
        1 ≤ Seq.distance h.buffer.expected t ∧ Seq.distance h.buffer.expected t ≤ 5 ∧ p ≠ []) ∧
      h.buffer.parked.size ≤ 5 :=
  ⟨by decide, by decide, by decide, by decide, by decide,
    parked_ahead 10 5 1 setBack (by decide) (by decide)⟩

end StreamTap
