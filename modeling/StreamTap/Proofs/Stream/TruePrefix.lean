import StreamTap.Proofs.Stream.Accounts
import StreamTap.Proofs.Wire.Seq

/-!
# A reader sees a true prefix of the stream

The stream is infinite, and its sequence numbers go round the circle again and again.
Segments are slices of it, cut anew as often as one likes, and a number by itself does not
say on which round a segment lies.  A buffer decides this by its window.  Where the window
is less than half the circle and no segment comes from further away than half the circle,
it decides right: at every moment what was handed over is the beginning of the stream
(`handed_true_prefix`).

The invariant (`Following`) gives every parked segment its offset in the infinite stream.
A drain may jump over parked segments that overlap those it pulls; but it starts where all
of them lie in the window, and it moves less than half the circle past the start.  So the
segments left behind are recognised as such when the drain ends.  None of them is there
for the next round.
-/

namespace StreamTap

def halfCircle : Nat := 2147483648

/-- The longest payload of a segment. -/
def longestPayload : Nat := 65535

/-! ## Stretches of a stream -/

section Stretch

variable {S : Nat → UInt8}

/-- The `n` bytes of a stream that begin at offset `o`. -/
def stretch (S : Nat → UInt8) (o n : Nat) : Bytes := (List.range n).map fun i => S (o + i)

@[simp] theorem length_stretch (o n : Nat) : (stretch S o n).length = n := by
  simp [stretch]

theorem stretch_add (o m n : Nat) : stretch S o (m + n) = stretch S o m ++ stretch S (o + m) n := by
  simp only [stretch, List.range_add, List.map_append, List.map_map]
  congr 1
  exact List.map_congr_left fun i _ => congrArg S (Nat.add_assoc o m i).symm

theorem eq_stretch_of_append {a c : Bytes} {o n : Nat} (h : a ++ c = stretch S o n) :
    a = stretch S o a.length := by
  have hlength := congrArg List.length h
  rw [List.length_append, length_stretch] at hlength
  rw [← hlength, stretch_add] at h
  exact (List.append_inj h (length_stretch ..).symm).1

end Stretch

/-- A write of the slice of the stream that has `n` bytes and starts at offset `o`, not
further from the bytes drained so far than half the circle. -/
structure IsSlice (S : Nat → UInt8) (s : Seq) (drained o n : Nat) (w : Write) : Prop where
  write : w = .add (s.advance o) (stretch S o n)
  short : n ≤ longestPayload
  notFarAhead : o < drained + halfCircle
  notFarBehind : drained ≤ o + halfCircle

instance (S : Nat → UInt8) (s : Seq) (drained o n : Nat) (w : Write) :
    Decidable (IsSlice S s drained o n w) :=
  decidable_of_iff (w = .add (s.advance o) (stretch S o n) ∧ n ≤ longestPayload ∧
      o < drained + halfCircle ∧ drained ≤ o + halfCircle)
    ⟨fun h => ⟨h.1, h.2.1, h.2.2.1, h.2.2.2⟩, fun h => ⟨h.1, h.2, h.3, h.4⟩⟩

/-- A buffer that follows the stream.  The drain, if there is one, began at offset `base`,
and it has come to offset `front`. -/
structure Following (S : Nat → UInt8) (s : Seq) (sent : List Bytes) (base front : Nat)
    (b : Buffer) : Prop where
  narrow : b.window.toNat + longestPayload < halfCircle
  expected : b.expected = s.advance front
  bytes : (sent ++ b.sending.toList).flatten = stretch S 0 front
  base_le : base ≤ front
  front_le : front ≤ base + b.window.toNat + longestPayload
  known : ∀ {t p}, b.parked.find? t = some p →
    ∃ o, t = s.advance o ∧ base ≤ o ∧ o ≤ base + b.window.toNat ∧
      p = stretch S o p.length ∧ p.length ≤ longestPayload

namespace Following

variable {S : Nat → UInt8} {s : Seq} {sent : List Bytes} {base front : Nat} {b : Buffer}

/-- The segment that is pulled is the one of this round. -/
theorem pulled (h : Following S s sent base front b) (hsending : b.sending = none)
    {chunk : Bytes} (hchunk : b.parked.find? b.expected = some chunk) :
    Following S s sent base (front + chunk.length) (b.pulled chunk) := by
  obtain ⟨o, ho, hbase, hnear, hslice, hlength⟩ := h.known hchunk
  have hnarrow := h.narrow
  have hle := h.base_le
  have hfront := h.front_le
  have hround : front = o := by
    rw [h.expected] at ho
    simp only [halfCircle] at hnarrow
    exact s.eq_of_advance_eq ho (by simp only [UInt32.size]; omega)
      (by simp only [UInt32.size]; omega)
  subst hround
  constructor
  · exact hnarrow
  · simp only [Buffer.pulled, h.expected, Seq.advance_advance]
  · have hbytes := h.bytes
    rw [hsending, Option.toList_none, List.append_nil] at hbytes
    rw [stretch_add, Nat.zero_add, ← hslice, ← hbytes]
    simp [Buffer.pulled]
  · omega
  · simp only [Buffer.pulled]
    omega
  · intro t p hp
    by_cases ht : t = b.expected
    · simp [ht, Buffer.pulled] at hp
    · exact h.known ((b.parked.find?_erase_of_ne ht).symm.trans hp)

/-- At the end of a drain what was left behind is given up, and the rest is in the window
of the new front. -/
theorem prune (h : Following S s sent base front b) : Following S s sent front front b.prune := by
  constructor
  · exact h.narrow
  · exact h.expected
  · exact h.bytes
  · exact Nat.le_refl front
  · omega
  · intro t p hp
    simp only [Buffer.prune, Parked.find?_filter] at hp
    split at hp
    · next hinside =>
      obtain ⟨o, rfl, hbase, hnear, hslice, hlength⟩ := h.known hp
      have hnarrow := h.narrow
      have hle := h.base_le
      have hfront := h.front_le
      rcases Nat.lt_or_ge o front with hbehind | hahead
      · have hround : front - o + b.window.toNat < UInt32.size := by
          simp only [halfCircle] at hnarrow
          simp only [UInt32.size]
          omega
        rw [h.expected, s.inWindow_advance_of_lt hbehind hround] at hinside
        cases hinside
      · exact ⟨o, rfl, hahead, by simp only [Buffer.prune]; omega, hslice, hlength⟩
    · cases hp

end Following

/-- A buffer that follows the stream, and that is not in the middle of a drain when nothing
is on offer. -/
def KeepsUp (S : Nat → UInt8) (s : Seq) (sent : List Bytes) (b : Buffer) : Prop :=
  ∃ base front, Following S s sent base front b ∧ (b.sending = none → base = front)

namespace Following

variable {S : Nat → UInt8} {s : Seq} {sent : List Bytes} {base front : Nat} {b : Buffer}

theorem pull_true (h : Following S s sent base front b) (hsending : b.sending = none) :
    KeepsUp S s sent (b.pull true) := by
  refine b.pull_elim (P := KeepsUp S s sent) true ?_ ?_ (fun h _ => by cases h)
  · intro chunk hchunk
    exact ⟨base, _, h.pulled hsending hchunk, fun hnone => by cases hnone⟩
  · exact fun _ _ => ⟨front, front, h.prune, fun _ => rfl⟩

theorem pull_false (h : Following S s sent front front b) (hsending : b.sending = none) :
    KeepsUp S s sent (b.pull false) := by
  refine b.pull_elim (P := KeepsUp S s sent) false ?_ (fun h _ => by cases h) ?_
  · intro chunk hchunk
    exact ⟨front, _, h.pulled hsending hchunk, fun hnone => by cases hnone⟩
  · exact fun _ _ => ⟨front, front, h, fun _ => rfl⟩

/-- How far a buffer has come is how much has left it. -/
theorem front_eq (h : Following S s sent base front b) (hsending : b.sending = none) :
    total List.length sent = front := by
  have hbytes := congrArg List.length h.bytes
  rw [hsending, Option.toList_none, List.append_nil, length_stretch] at hbytes
  rw [total_length_eq, hbytes]

theorem park (h : Following S s sent front front b) {o n : Nat} (hshort : n ≤ longestPayload)
    (hahead : o < front + halfCircle) (hbehind : front ≤ o + halfCircle)
    (hwindow : Seq.inWindow b.expected b.window (s.advance o) = true) :
    Following S s sent front front (b.park (s.advance o) (stretch S o n)) := by
  have hnarrow := h.narrow
  simp only [halfCircle] at hnarrow hahead hbehind
  rw [h.expected] at hwindow
  refine ⟨h.narrow, h.expected, h.bytes, h.base_le, h.front_le, ?_⟩
  intro t p hp
  by_cases ht : s.advance o = t
  · subst ht
    rw [Buffer.park, Parked.find?_insert_self] at hp
    cases hp
    refine ⟨o, rfl, ?_, ?_, by rw [length_stretch], by rwa [length_stretch]⟩
    · rcases Nat.lt_or_ge o front with hlt | hle
      · rw [s.inWindow_advance_of_lt hlt (by simp only [UInt32.size]; omega)] at hwindow
        cases hwindow
      · exact hle
    · rcases Nat.lt_or_ge (front + b.window.toNat) o with hfar | hnear
      · rw [s.inWindow_advance_of_far hfar (by simp only [UInt32.size]; omega)] at hwindow
        cases hwindow
      · exact hnear
  · rw [Buffer.park, Parked.find?_insert_of_ne _ _ ht] at hp
    exact h.known hp

end Following

/-- How many bytes have been pulled: those that went into the hand-off, those that it
refused, and those that are on offer. -/
def drained (b : Buffer) (r : Record) : Nat :=
  total List.length r.handed + total List.length r.lost + b.sending.toList.flatten.length

namespace KeepsUp

variable {S : Nat → UInt8} {s : Seq} {sent : List Bytes} {b : Buffer}

theorem startingAt {window : UInt32} (capacity : Nat)
    (hnarrow : window.toNat + longestPayload < halfCircle) :
    KeepsUp S s [] (.startingAt s window capacity) := by
  refine ⟨0, 0, ⟨hnarrow, s.advance_zero.symm, rfl, Nat.le_refl 0, Nat.zero_le _, ?_⟩,
    fun _ => rfl⟩
  intro t p hp
  cases hp

theorem begin (h : KeepsUp S s sent b) (hsending : b.sending = none) {w : Write}
    (hw : w.isVoid = false) {o n : Nat} (hslice : IsSlice S s (total List.length sent) o n w) :
    KeepsUp S s sent (b.begin w) := by
  obtain ⟨base, front, h, hidle⟩ := h
  obtain rfl := hidle hsending
  obtain ⟨hwrite, hshort, hahead, hbehind⟩ := hslice
  rw [h.front_eq hsending] at hahead hbehind
  refine b.begin_elim (P := KeepsUp S s sent) hw ?_ ?_ ?_ ?_
  · intro seq payload _ _ _
    exact ⟨base, base, ⟨h.narrow, h.expected, h.bytes, h.base_le, h.front_le, h.known⟩,
      fun _ => rfl⟩
  · intro seq payload other _ _ _ _
    exact ⟨base, base, ⟨h.narrow, h.expected, h.bytes, h.base_le, h.front_le, h.known⟩,
      fun _ => rfl⟩
  · intro seq payload heq _ hwindow _
    rw [hwrite] at heq
    cases heq
    exact (h.park hshort hahead hbehind hwindow).pull_false hsending
  · intro seq heq
    rw [hwrite] at heq
    cases heq

theorem accepted (h : KeepsUp S s sent b) {chunk : Bytes} (hsending : b.sending = some chunk) :
    KeepsUp S s (sent ++ [chunk]) ((b.accepted chunk).pull true) := by
  obtain ⟨base, front, h, -⟩ := h
  have haccepted : Following S s (sent ++ [chunk]) base front (b.accepted chunk) := by
    refine ⟨h.narrow, h.expected, ?_, h.base_le, h.front_le, h.known⟩
    have hbytes := h.bytes
    rw [hsending] at hbytes
    simpa [Buffer.accepted] using hbytes
  exact haccepted.pull_true rfl

theorem taken (h : KeepsUp S s sent b) (chunk : Bytes) (rest : List Bytes) :
    KeepsUp S s sent (b.taken chunk rest) := by
  obtain ⟨base, front, h, hidle⟩ := h
  exact ⟨base, front, ⟨h.narrow, h.expected, h.bytes, h.base_le, h.front_le, h.known⟩, hidle⟩

theorem sent_eq (h : KeepsUp S s sent b) :
    sent.flatten = stretch S 0 (total List.length sent) := by
  obtain ⟨base, front, h, -⟩ := h
  have hbytes := h.bytes
  rw [List.flatten_append] at hbytes
  rw [total_length_eq]
  exact eq_stretch_of_append hbytes

end KeepsUp

/-! ## Whole histories -/

/-- What was handed over is a true prefix of the stream, and as long as the buffer is open
it keeps up.  A closed buffer does not: what it was offering is lost, and what it has left
behind stays parked.  But it hands nothing over any more. -/
structure SeesPrefix (S : Nat → UInt8) (s : Seq) (b : Buffer) (r : Record) : Prop where
  handed : r.handed.flatten = stretch S 0 (total List.length r.handed)
  whileOpen : b.isClosed = false → r.lost = [] ∧ KeepsUp S s r.handed b

namespace SeesPrefix

variable {S : Nat → UInt8} {s : Seq} {b b' : Buffer} {r r' : Record} {closing : Prop}

theorem change (h : SeesPrefix S s b r)
    (hslice : ∀ w, r'.begun = r.begun ++ [w] → ∃ o n, IsSlice S s (drained b r) o n w)
    (hchange : Change closing b r b' r') : SeesPrefix S s b' r' := by
  cases hchange with
  | begun w hsending hw =>
    refine ⟨h.handed, fun hopen => ?_⟩
    rw [Buffer.isClosed, (b.sameFront_begin hw).handoff] at hopen
    obtain ⟨hlost, hkeeps⟩ := h.whileOpen hopen
    obtain ⟨o, n, hslice⟩ := hslice w rfl
    rw [drained, hlost, hsending] at hslice
    exact ⟨hlost, hkeeps.begin hsending hw hslice⟩
  | handed chunk hsending hopen _ =>
    obtain ⟨hlost, hkeeps⟩ := h.whileOpen hopen
    have hnext := hkeeps.accepted hsending
    exact ⟨hnext.sent_eq, fun _ => ⟨hlost, hnext⟩⟩
  | lost chunk _ hclosed =>
    refine ⟨h.handed, fun hopen => ?_⟩
    have hopen : b.isClosed = false := hopen
    rw [hclosed] at hopen
    cases hopen
  | taken chunk rest _ =>
    refine ⟨h.handed, fun hopen => ?_⟩
    obtain ⟨hlost, hkeeps⟩ := h.whileOpen hopen
    exact ⟨hlost, hkeeps.taken chunk rest⟩
  | closed _ => exact ⟨h.handed, fun hopen => by cases hopen⟩

end SeesPrefix

def History.upTo (b : Buffer) (schedule : List Occurrence) (n : Nat) : History :=
  (ofBuffer b).run (schedule.take n)

/-- If the writes that begin are slices of a stream, cut in any way and never further from
what was drained than half the circle, then at every moment the chunks that went into the
hand-off, which are those that readers received and those that are still in it, are the beginning
of the stream. -/
theorem handed_true_prefix (S : Nat → UInt8) (s : Seq) (window : UInt32) (capacity : Nat)
    (schedule : List Occurrence) (hnarrow : window.toNat + longestPayload < halfCircle)
    (hslices : ∀ n w,
      (History.upTo (.startingAt s window capacity) schedule (n + 1)).record.begun =
        (History.upTo (.startingAt s window capacity) schedule n).record.begun ++ [w] →
      ∃ o len, IsSlice S s
        (drained (History.upTo (.startingAt s window capacity) schedule n).buffer
          (History.upTo (.startingAt s window capacity) schedule n).record) o len w)
    (n : Nat) :
    let h := History.upTo (.startingAt s window capacity) schedule n
    h.record.handed = h.record.taken ++ h.buffer.handoff.items ∧
      (h.record.taken ++ h.buffer.handoff.items).flatten = stretch S 0 h.buffer.delivered := by
  intro h
  have hstart : SeesPrefix S s (.startingAt s window capacity) {} :=
    ⟨rfl, fun _ => ⟨rfl, .startingAt capacity hnarrow⟩⟩
  have hsees : SeesPrefix S s h.buffer h.record := by
    refine History.run_keeps (P := SeesPrefix S s) rfl hstart ?_
    intro done o hupto hsees hchange
    refine hsees.change ?_ hchange
    -- The occurrence is the one after as many as have been done.
    have hwhole : done ++ [o] <+: schedule := hupto.trans (List.take_prefix n schedule)
    have hdone : schedule.take done.length = done := by
      rw [List.prefix_iff_eq_take.1 ((List.prefix_append done [o]).trans hwhole)]
      simp
    have hnext : schedule.take (done.length + 1) = done ++ [o] := by
      have htake := List.prefix_iff_eq_take.1 hwhole
      rw [List.length_append, List.length_singleton] at htake
      exact htake.symm
    have hslice := hslices done.length
    rw [History.upTo, History.upTo, hdone, hnext] at hslice
    exact hslice
  have haccounts : Accounts h.buffer h.record :=
    accounts_run rfl (.startingAt s window capacity) _
  refine ⟨haccounts.queue, ?_⟩
  rw [← haccounts.queue, hsees.handed, haccounts.delivered]

/-- The bytes `0, 1, 2, …` are written in slices that overlap.  The numbers pass the end of
the circle, one slice is overtaken while it is parked, another comes late, and the buffer
is closed. -/
def recut : List Occurrence :=
  [.start 0 (.write (.add 4294967293 [3, 4, 5])), .move 0,
    .start 1 (.write (.add 4294967290 [0, 1, 2, 3])), .move 0, .move 0, .start 2 .read, .move 0,
    .start 3 (.write (.add 4294967292 [2, 3, 4, 5, 6, 7])), .move 0,
    .start 4 (.write (.add 4294967294 [4, 5, 6, 7, 8])), .move 0, .move 0, .close]

theorem handed_true_prefix_recut :
    let h := History.upTo (.startingAt 4294967290 100 1) recut 13
    h.record.taken = [[0, 1, 2, 3]] ∧ h.buffer.handoff.items = [[4, 5, 6, 7, 8]] ∧
      h.record.handed = h.record.taken ++ h.buffer.handoff.items ∧
      (h.record.taken ++ h.buffer.handoff.items).flatten =
        stretch UInt8.ofNat 0 h.buffer.delivered := by
  refine ⟨by decide, by decide,
    handed_true_prefix UInt8.ofNat 4294967290 100 1 recut (by decide) ?_ 13⟩
  intro n w hw
  have hmem : w ∈ (History.upTo (.startingAt 4294967290 100 1) recut (n + 1)).record.begun.drop
      (History.upTo (.startingAt 4294967290 100 1) recut n).record.begun.length := by
    rw [hw, List.drop_left]
    exact List.mem_singleton_self w
  rcases Nat.lt_or_ge n 13 with hlt | hge
  · -- Offset and length of the slice that begins as the occurrence with this number.
    have hall : ∀ n < 13,
        ∀ w ∈ (History.upTo (.startingAt 4294967290 100 1) recut (n + 1)).record.begun.drop
          (History.upTo (.startingAt 4294967290 100 1) recut n).record.begun.length,
        IsSlice UInt8.ofNat 4294967290
          (drained (History.upTo (.startingAt 4294967290 100 1) recut n).buffer
            (History.upTo (.startingAt 4294967290 100 1) recut n).record)
          ([0, 3, 0, 0, 0, 0, 0, 0, 2, 0, 4].getD n 0) ([0, 3, 0, 4, 0, 0, 0, 0, 6, 0, 5].getD n 0)
          w := by
      decide
    exact ⟨_, _, hall n hlt w hmem⟩
  · have hsame : recut.take (n + 1) = recut.take n := by
      rw [List.take_of_length_le (Nat.le_succ_of_le hge), List.take_of_length_le hge]
    rw [History.upTo, History.upTo, hsame, List.drop_length] at hmem
    cases hmem

end StreamTap
