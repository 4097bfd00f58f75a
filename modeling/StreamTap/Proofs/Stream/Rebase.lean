import StreamTap.Proofs.Stream.Accounts
import StreamTap.Proofs.Stream.Feeding
import StreamTap.Proofs.Stream.TruePrefix

/-!
# Leaving out the beginning of a stream

The first payload of a stream may begin with bytes that the reader is not to see.  There are
two ways to keep them from it: to write the payload as it is and to drop these bytes later, or
to rebase the buffer behind them and to write the rest of the payload.  Segments that wait for
the first payload can tell the two apart (`rebased_as_plain_iff`).

The rebase is a write of its own, and it drains.  When a segment is parked exactly behind the
bytes that are left out, it is pulled before the rest of the payload is there.  The rest then
comes too late, it starts behind the number that is expected.  The other way the payload comes
first and the parked segment is overtaken.  So the two agree when no segment is parked there,
and otherwise only when the stream goes on from there as far as it does behind the payload.

Both ways start from a buffer that is at rest before its first byte.  What is needed of it is
an invariant of histories (`Solid`, `Drained`), and what is parked in it is a layout.
-/

namespace StreamTap

/-- The writes that bring a payload without the bytes it begins with. -/
def writesBehind (s : Seq) (head rest : Bytes) : List Write :=
  [.rebase (s.advance head.length), .add (s.advance head.length) rest]

/-! ## At rest -/

/-- Nothing empty is parked, on offer or handed over. -/
structure Solid (b : Buffer) (r : Record) : Prop where
  parked : ∀ {t q}, b.parked.find? t = some q → q ≠ []
  sending : ∀ {q}, b.sending = some q → q ≠ []
  handed : ∀ q ∈ r.handed, q ≠ []

/-- No segment that continues the stream is parked in an open buffer that has nothing on
offer. -/
def Drained (b : Buffer) : Prop :=
  b.isClosed = false → b.sending = none → b.parked.find? b.expected = none

namespace Solid

variable {b : Buffer} {r : Record}

theorem congr {b' : Buffer} (h : Solid b r)
    (hparked : ∀ {t q}, b'.parked.find? t = some q → b.parked.find? t = some q)
    (hsending : b'.sending = b.sending) : Solid b' r where
  parked := fun hq => h.parked (hparked hq)
  sending := fun hq => h.sending (hsending.symm.trans hq)
  handed := h.handed

theorem handed_eq_nil (h : Solid b r) (hnone : total List.length r.handed = 0) :
    r.handed = [] := by
  cases hhanded : r.handed with
  | nil => rfl
  | cons q qs =>
    have hpos := List.length_pos_iff.2 (h.handed q (hhanded ▸ List.mem_cons_self))
    rw [hhanded, total_cons] at hnone
    omega

theorem prune (h : Solid b r) : Solid b.prune r := by
  refine h.congr ?_ rfl
  intro t q hq
  simp only [Buffer.prune, Parked.find?_filter] at hq
  split at hq
  · exact hq
  · cases hq

theorem pull (h : Solid b r) (moved : Bool) : Solid (b.pull moved) r ∧ Drained (b.pull moved) := by
  refine b.pull_elim (P := fun a => Solid a r ∧ Drained a) moved ?_ ?_ ?_
  · intro chunk hchunk
    refine ⟨⟨?_, ?_, h.handed⟩, fun _ hnone => by cases hnone⟩
    · intro t q hq
      by_cases ht : t = b.expected
      · simp [ht, Buffer.pulled] at hq
      · exact h.parked ((b.parked.find?_erase_of_ne ht).symm.trans hq)
    · intro q hq
      cases hq
      exact h.parked hchunk
  · intro _ hnone
    refine ⟨h.prune, fun _ _ => ?_⟩
    simp [Buffer.prune, Parked.find?_filter, hnone]
  · exact fun _ hnone => ⟨h, fun _ _ => hnone⟩

theorem begin (h : Solid b r) (hdrained : Drained b) {w : Write} (hw : w.isVoid = false) :
    Solid (b.begin w) r ∧ Drained (b.begin w) := by
  refine b.begin_elim (P := fun a => Solid a r ∧ Drained a) hw ?_ ?_ ?_ ?_
  · exact fun _ _ _ _ _ => ⟨h.congr id rfl, hdrained⟩
  · exact fun _ _ _ _ _ _ _ => ⟨h.congr id rfl, hdrained⟩
  · intro seq payload _ hpayload _ _
    have hpark : Solid (b.park seq payload) r := by
      refine ⟨?_, h.sending, h.handed⟩
      intro t q hq
      by_cases ht : seq = t
      · subst ht
        rw [Buffer.park, Parked.find?_insert_self] at hq
        cases hq
        exact hpayload
      · exact h.parked ((b.parked.find?_insert_of_ne payload ht).symm.trans hq)
    exact hpark.pull false
  · intro seq _
    have hexpect : Solid (b.expectAt seq) r := h.congr id rfl
    exact hexpect.prune.pull false

end Solid

/-- Every change of a buffer keeps it solid and leaves nothing undrained. -/
theorem Solid.change {closing : Prop} {b b' : Buffer} {r r' : Record} (h : Solid b r)
    (hdrained : Drained b) (hchange : Change closing b r b' r') : Solid b' r' ∧ Drained b' := by
  cases hchange with
  | begun w _ hw =>
    obtain ⟨hbegun, hrest⟩ := h.begin hdrained hw
    exact ⟨⟨hbegun.parked, hbegun.sending, hbegun.handed⟩, hrest⟩
  | handed chunk hsending _ _ =>
    have haccepted : Solid (b.accepted chunk) { r with handed := r.handed ++ [chunk] } := by
      refine ⟨h.parked, fun hq => (by cases hq), fun q hq => ?_⟩
      rcases List.mem_append.1 hq with hq | hq
      · exact h.handed q hq
      · rw [List.mem_singleton.1 hq]
        exact h.sending hsending
    exact haccepted.pull true
  | lost chunk _ hclosed =>
    refine ⟨⟨h.parked, fun hq => (by cases hq), h.handed⟩, fun hopen => ?_⟩
    cases hclosed.symm.trans hopen
  | taken chunk rest _ => exact ⟨⟨h.parked, h.sending, h.handed⟩, hdrained⟩
  | closed _ => exact ⟨⟨h.parked, h.sending, h.handed⟩, fun hopen => by cases hopen⟩

/-- At every moment of every history of a new buffer nothing is empty and nothing is left
undrained. -/
theorem solid_run (s : Seq) (window : UInt32) (capacity : Nat) (schedule : List Occurrence) :
    Solid ((History.ofBuffer (.startingAt s window capacity)).run schedule).buffer
        ((History.ofBuffer (.startingAt s window capacity)).run schedule).record ∧
      Drained ((History.ofBuffer (.startingAt s window capacity)).run schedule).buffer := by
  refine History.run_keeps (P := fun b r => Solid b r ∧ Drained b) rfl ⟨⟨?_, ?_, ?_⟩, ?_⟩
    fun _ _ _ hdone hchange => hdone.1.change hdone.2 hchange
  · intro t q hq
    cases hq
  · intro q hq
    cases hq
  · intro q hq
    cases hq
  · exact fun _ _ => rfl

/-- What is parked in the window of a buffer, by the distances from the expected number. -/
def Buffer.layout (b : Buffer) : Layout where
  entry? o :=
    if o ≤ b.window.toNat then
      (b.parked.find? (b.expected.advance o)).filter fun q => !q.isEmpty
    else none
  bound := b.window.toNat + 1
  inside := by
    intro o q hq
    split at hq
    · omega
    · cases hq
  nonempty := by
    intro o q hq
    split at hq
    · simpa using (Option.filter_eq_some_iff.1 hq).2
    · cases hq

theorem Buffer.layout_eq_some_iff {b : Buffer}
    (hsolid : ∀ {t q}, b.parked.find? t = some q → q ≠ []) {o : Nat} {q : Bytes} :
    b.layout.entry? o = some q ↔
      o ≤ b.window.toNat ∧ b.parked.find? (b.expected.advance o) = some q := by
  simp only [layout]
  split
  · next hle =>
    rw [Option.filter_eq_some_iff]
    exact ⟨fun hq => ⟨hle, hq.1⟩, fun hq => ⟨hq.2, by simp [hsolid hq.2]⟩⟩
  · next hgt =>
    constructor
    · intro hq
      cases hq
    · exact fun hq => absurd hq.1 hgt

/-- A buffer as some history has left it, open and with nothing on offer, from which nothing
was delivered yet.  What is parked in its window are slices of the stream that begins at the
expected number, and nothing else is parked. -/
structure AtBeginning (S : Nat → UInt8) (b : Buffer) : Prop where
  reached : ∃ s window capacity schedule,
    b = ((History.ofBuffer (.startingAt s window capacity)).run schedule).buffer
  isOpen : b.isClosed = false
  quiet : b.sending = none
  undelivered : b.delivered = 0
  slices : ∀ {t q}, b.parked.find? t = some q →
    ∃ o, t = b.expected.advance o ∧ o ≤ b.window.toNat ∧ q = stretch S o q.length

namespace AtBeginning

variable {S : Nat → UInt8} {b : Buffer}

section Reached

variable (h : AtBeginning S b)

include h

theorem published : b.published = b.expected := by
  obtain ⟨s, window, capacity, schedule, rfl⟩ := h.reached
  exact (accounts_run rfl (.startingAt s window capacity) schedule).published

theorem items : b.handoff.items = [] := by
  have hdelivered := h.undelivered
  obtain ⟨s, window, capacity, schedule, rfl⟩ := h.reached
  have haccounts := accounts_run rfl (.startingAt s window capacity) schedule
  obtain ⟨hsolid, -⟩ := solid_run s window capacity schedule
  have hnone := hsolid.handed_eq_nil (haccounts.delivered.symm.trans hdelivered)
  exact (List.append_eq_nil_iff.1 (haccounts.queue.symm.trans hnone)).2

theorem not_parked : b.parked.find? b.expected = none := by
  have hopen := h.isOpen
  have hquiet := h.quiet
  obtain ⟨s, window, capacity, schedule, rfl⟩ := h.reached
  exact (solid_run s window capacity schedule).2 hopen hquiet

theorem nonempty {t : Seq} {q : Bytes} (hq : b.parked.find? t = some q) : q ≠ [] := by
  obtain ⟨s, window, capacity, schedule, rfl⟩ := h.reached
  exact (solid_run s window capacity schedule).1.parked hq

theorem layout_eq_some_iff {o : Nat} {q : Bytes} :
    b.layout.entry? o = some q ↔
      o ≤ b.window.toNat ∧ b.parked.find? (b.expected.advance o) = some q :=
  Buffer.layout_eq_some_iff h.nonempty

theorem layout_zero : b.layout.entry? 0 = none := by
  cases hq : b.layout.entry? 0 with
  | none => rfl
  | some q =>
    have hparked := (h.layout_eq_some_iff.1 hq).2
    rw [Seq.advance_zero, h.not_parked] at hparked
    cases hparked

/-- The buffer assembles what is parked in it, in any layout that has these segments. -/
theorem assembling {m : Layout} (hlimit : m.reach 0 + b.window.toNat < UInt32.size)
    (hsame : ∀ {o q}, b.layout.entry? o = some q → m.entry? o = some q) :
    Assembling m b.expected 0 b.layout.offsets b.handoff.items b := by
  rw [h.items]
  refine ⟨1, 0, ⟨hlimit, h.isOpen, (b.expected.advance_zero).symm,
    h.published.trans (b.expected.advance_zero).symm, h.undelivered, ?_, ?_, ?_, ?_, ?_⟩,
    fun _ => rfl⟩
  · simp [h.quiet]
  · simp [h.quiet]
  · intro t q hq
    obtain ⟨o, rfl, hnear, -⟩ := h.slices hq
    have hentry := h.layout_eq_some_iff.2 ⟨hnear, hq⟩
    have ho : o ≠ 0 := by
      rintro rfl
      rw [h.layout_zero] at hentry
      cases hentry
    exact ⟨o, rfl, b.layout.mem_offsets_iff.2 ⟨q, hentry⟩, by omega, hsame hentry⟩
  · intro o q ho _ hq
    obtain ⟨r, hr⟩ := b.layout.mem_offsets_iff.1 ho
    cases (hsame hr).symm.trans hq
    exact (h.layout_eq_some_iff.1 hr).2
  · intro o ho
    obtain ⟨r, hr⟩ := b.layout.mem_offsets_iff.1 ho
    rw [Nat.zero_add]
    exact (h.layout_eq_some_iff.1 hr).1

theorem reach_layout_le (o : Nat) :
    b.layout.reach o ≤ max o (b.window.toNat + b.parked.bytes) := by
  refine b.layout.reach_le ?_ o
  intro n q hq
  obtain ⟨hnear, hparked⟩ := h.layout_eq_some_iff.1 hq
  have hbytes := Parked.bytes_erase hparked
  omega

theorem slice_of_layout {o : Nat} {q : Bytes} (hq : Layout.entry? b.layout o = some q) :
    q = stretch S o q.length := by
  obtain ⟨hnear, hparked⟩ := h.layout_eq_some_iff.1 hq
  obtain ⟨n, hn, hnear', hslice⟩ := h.slices hparked
  have hwindow := b.window.toNat_lt
  obtain rfl : o = n := b.expected.eq_of_advance_eq hn
    (by simp only [UInt32.size]; omega) (by simp only [UInt32.size]; omega)
  exact hslice

/-- A chain of what is parked is a stretch of the stream. -/
theorem flatten_chain (o : Nat) :
    (b.layout.chain o).flatten = stretch S o (b.layout.reach o - o) := by
  induction o using Layout.chain.induct b.layout with
  | case1 o hnone =>
    rw [b.layout.chain_of_none hnone, b.layout.reach_of_none hnone, Nat.sub_self]
    rfl
  | case2 o q hsome ih =>
    have hle := b.layout.le_reach (o + q.length)
    have hlength : b.layout.reach o - o =
        q.length + (b.layout.reach (o + q.length) - (o + q.length)) := by
      rw [b.layout.reach_of_some hsome]
      omega
    rw [b.layout.chain_of_some hsome, List.flatten_cons, ih, hlength, stretch_add,
      ← h.slice_of_layout hsome]

end Reached

/-! ## The two ways -/

section Ways

variable {head rest : Bytes}

/-- A segment is written at the beginning of a chain, and what follows it is parked. -/
theorem written_put {m : Layout} {s : Seq} {o : Nat} {q : Bytes} {c : Buffer} (hq : q ≠ [])
    (h : Assembling (m.put o q hq) s o m.offsets c.handoff.items c) (hsending : c.sending = none)
    (hdone : (c.write (.add (s.advance o) q)).sending = none) :
    (c.write (.add (s.advance o) q)).handoff.items = q :: m.chain (o + q.length) ∧
      (c.write (.add (s.advance o) q)).expected = s.advance (m.reach (o + q.length)) := by
  have hwritten := h.write_add hsending hq (fun _ => m.entry?_put_self hq) (Nat.le_add_right ..)
  have hall : ∀ n ∈ (m.put o q hq).offsets, n ∈ m.offsets ++ [o] := by
    intro n hn
    obtain ⟨r, hr⟩ := (m.put o q hq).mem_offsets_iff.1 hn
    by_cases ho : n = o
    · exact List.mem_append_right _ (List.mem_singleton.2 ho)
    · rw [m.entry?_put_of_ne hq ho] at hr
      exact List.mem_append_left _ (m.mem_offsets_iff.2 ⟨r, hr⟩)
  obtain ⟨hitems, hexpected, -⟩ := hwritten.complete hdone hall
  rw [m.chain_put hq] at hitems
  rw [m.reach_put hq] at hexpected
  exact ⟨hitems, hexpected⟩

theorem plain (h : AtBeginning S b) {payload : Bytes} (hpayload : payload ≠ [])
    (hlimit : b.window.toNat + b.parked.bytes + payload.length < halfCircle)
    (hdone : (b.write (.add b.expected payload)).sending = none) :
    (b.write (.add b.expected payload)).handoff.items =
        payload :: b.layout.chain payload.length ∧
      (b.write (.add b.expected payload)).expected =
        b.expected.advance (b.layout.reach payload.length) := by
  have hreach := h.reach_layout_le payload.length
  have hassembling : Assembling (b.layout.put 0 payload hpayload) b.expected 0 b.layout.offsets
      b.handoff.items b := by
    refine h.assembling ?_ ?_
    · rw [b.layout.reach_put, Nat.zero_add]
      simp only [halfCircle] at hlimit
      simp only [UInt32.size]
      omega
    · intro o q hq
      have ho : o ≠ 0 := by
        rintro rfl
        rw [h.layout_zero] at hq
        cases hq
      rw [b.layout.entry?_put_of_ne hpayload ho, hq]
  rw [← b.expected.advance_zero] at hdone
  have hwritten := written_put hpayload hassembling h.quiet hdone
  rwa [b.expected.advance_zero, Nat.zero_add] at hwritten

theorem rebased (h : AtBeginning S b) {n : Nat}
    (hlimit : b.window.toNat + b.parked.bytes + n < halfCircle)
    (hdone : (b.write (.rebase (b.expected.advance n))).sending = none) :
    (b.write (.rebase (b.expected.advance n))).handoff.items = b.layout.chain n ∧
      (b.write (.rebase (b.expected.advance n))).expected =
        b.expected.advance (b.layout.reach n) := by
  have hreach := h.reach_layout_le n
  simp only [halfCircle] at hlimit
  have hassembling : Assembling b.layout b.expected 0 b.layout.offsets b.handoff.items b := by
    refine h.assembling ?_ id
    rw [b.layout.reach_of_none h.layout_zero]
    simp only [UInt32.size]
    omega
  rw [h.items] at hassembling
  have hrebased := hassembling.write_rebase h.items h.quiet h.layout_zero (Nat.zero_le n)
    (by simp only [UInt32.size]; omega)
  obtain ⟨hitems, hexpected, -⟩ := hrebased.complete hdone fun _ ho => ho
  exact ⟨hitems, hexpected⟩

theorem rebased_of_free (h : AtBeginning S b) (hhead : head ≠ [])
    (hlimit : b.window.toNat + b.parked.bytes + (head ++ rest).length < halfCircle)
    (hfree : Layout.entry? b.layout head.length = none)
    (hdone : b.Unhindered (writesBehind b.expected head rest)) :
    ((writesBehind b.expected head rest).foldl Buffer.write b).handoff.items.flatten =
        rest ++ (b.layout.chain (head ++ rest).length).flatten ∧
      ((writesBehind b.expected head rest).foldl Buffer.write b).expected =
        b.expected.advance (b.layout.reach (head ++ rest).length) := by
  obtain ⟨hquiet, hrebased, hwritten⟩ := hdone
  rw [writesBehind, List.foldl_cons, List.foldl_cons, List.foldl_nil]
  by_cases hrest : rest = []
  · subst hrest
    rw [List.append_nil] at hlimit ⊢
    obtain ⟨hitems, hexpected⟩ := h.rebased hlimit hrebased
    rw [Buffer.write_of_isVoid _ rfl, hitems, hexpected]
    exact ⟨rfl, rfl⟩
  · have hreach := h.reach_layout_le (head ++ rest).length
    have hpos := List.length_pos_iff.2 hhead
    rw [List.length_append] at hlimit hreach ⊢
    simp only [halfCircle] at hlimit
    have hzero : Layout.entry? (b.layout.put head.length rest hrest) 0 = none := by
      rw [b.layout.entry?_put_of_ne hrest (by omega), h.layout_zero]
    have hassembling : Assembling (b.layout.put head.length rest hrest) b.expected 0
        b.layout.offsets b.handoff.items b := by
      refine h.assembling ?_ ?_
      · rw [Layout.reach_of_none _ hzero]
        simp only [UInt32.size]
        omega
      · intro o q hq
        have ho : o ≠ head.length := by
          rintro rfl
          rw [hfree] at hq
          cases hq
        rw [b.layout.entry?_put_of_ne hrest ho, hq]
    rw [h.items] at hassembling
    have hbehind := hassembling.write_rebase h.items hquiet hzero (Nat.zero_le head.length) (by
      rw [b.layout.reach_put]
      simp only [UInt32.size]
      omega)
    obtain ⟨hitems, hexpected⟩ := written_put hrest hbehind hrebased hwritten.sending
    rw [hitems, hexpected, List.flatten_cons]
    exact ⟨rfl, rfl⟩

/-- The buffer is rebased where a segment is parked, and the rest of the payload comes too
late. -/
theorem rebased_of_parked (h : AtBeginning S b)
    (hlimit : b.window.toNat + b.parked.bytes + (head ++ rest).length < halfCircle) {q : Bytes}
    (hparked : Layout.entry? b.layout head.length = some q)
    (hdone : b.Unhindered (writesBehind b.expected head rest)) :
    ((writesBehind b.expected head rest).foldl Buffer.write b).handoff.items =
        b.layout.chain head.length ∧
      ((writesBehind b.expected head rest).foldl Buffer.write b).expected =
        b.expected.advance (b.layout.reach head.length) := by
  obtain ⟨hquiet, hrebased, hwritten⟩ := hdone
  rw [writesBehind, List.foldl_cons, List.foldl_cons, List.foldl_nil]
  rw [List.length_append] at hlimit
  obtain ⟨hitems, hexpected⟩ := h.rebased (by omega) hrebased
  rw [← hitems, ← hexpected]
  by_cases hrest : rest = []
  · subst hrest
    rw [Buffer.write_of_isVoid _ rfl]
    exact ⟨rfl, rfl⟩
  · have hreach := h.reach_layout_le head.length
    have hpos := b.layout.length_pos hparked
    have hle := b.layout.le_reach (head.length + q.length)
    rw [← b.layout.reach_of_some hparked] at hle
    simp only [halfCircle] at hlimit
    have hbehind : Seq.inWindow (b.write (.rebase (b.expected.advance head.length))).expected
        (b.write (.rebase (b.expected.advance head.length))).window
        (b.expected.advance head.length) = false := by
      rw [hexpected, b.window_write hquiet]
      exact b.expected.inWindow_advance_of_lt (by omega) (by simp only [UInt32.size]; omega)
    rw [Buffer.write_eq_finish _ _ hrebased, Buffer.begin_add_outside _ hrest hbehind,
      Buffer.finish_of_sending_eq_none (by exact hrebased)]
    exact ⟨rfl, rfl⟩

end Ways

end AtBeginning

/-- The second buffer has the bytes to read that the first has behind the first `n` ones, and
both go on at the same number. -/
structure AgreesBehind (n : Nat) (plain b : Buffer) : Prop where
  bytes : b.handoff.items.flatten = plain.handoff.items.flatten.drop n
  expected : b.expected = plain.expected

instance (n : Nat) (plain b : Buffer) : Decidable (AgreesBehind n plain b) :=
  decidable_of_iff (b.handoff.items.flatten = plain.handoff.items.flatten.drop n ∧
    b.expected = plain.expected) ⟨fun h => ⟨h.1, h.2⟩, fun h => ⟨h.bytes, h.expected⟩⟩

/-- Rebasing behind the first bytes of a payload and writing the rest agrees with writing the
payload as it is, unless a segment is parked exactly there from which the stream does not go on
as far as it does behind the payload. -/
theorem rebased_as_plain_iff {S : Nat → UInt8} {b : Buffer} (h : AtBeginning S b)
    {head rest : Bytes} (hhead : head ≠ [])
    (hslice : head ++ rest = stretch S 0 (head ++ rest).length)
    (hlimit : b.window.toNat + b.parked.bytes + (head ++ rest).length < halfCircle)
    (hplain : (b.write (.add b.expected (head ++ rest))).sending = none)
    (hdone : b.Unhindered (writesBehind b.expected head rest)) :
    AgreesBehind head.length (b.write (.add b.expected (head ++ rest)))
        ((writesBehind b.expected head rest).foldl Buffer.write b) ↔
      Layout.entry? b.layout head.length = none ∨
        b.layout.reach head.length = b.layout.reach (head ++ rest).length := by
  have hpayload : head ++ rest ≠ [] := List.append_ne_nil_of_left_ne_nil hhead rest
  obtain ⟨hitems, hexpected⟩ := h.plain hpayload hlimit hplain
  have hbytes : (b.write (.add b.expected (head ++ rest))).handoff.items.flatten.drop head.length
      = rest ++ (b.layout.chain (head ++ rest).length).flatten := by
    rw [hitems, List.flatten_cons, List.append_assoc, List.drop_left]
  cases hentry : Layout.entry? b.layout head.length with
  | none =>
    obtain ⟨hitems', hexpected'⟩ := h.rebased_of_free hhead hlimit hentry hdone
    exact ⟨fun _ => Or.inl rfl,
      fun _ => ⟨hitems'.trans hbytes.symm, hexpected'.trans hexpected.symm⟩⟩
  | some q =>
    obtain ⟨hitems', hexpected'⟩ := h.rebased_of_parked hlimit hentry hdone
    constructor
    · intro hagrees
      have hsame := (hexpected'.symm.trans hagrees.expected).trans hexpected
      have hreach := h.reach_layout_le head.length
      have hreach' := h.reach_layout_le (head ++ rest).length
      rw [List.length_append] at hlimit hreach' hsame ⊢
      simp only [halfCircle] at hlimit
      exact Or.inr (b.expected.eq_of_advance_eq hsame (by simp only [UInt32.size]; omega)
        (by simp only [UInt32.size]; omega))
    · rintro (hnone | hreach)
      · cases hnone
      · refine ⟨?_, hexpected'.trans (by rw [hexpected, hreach])⟩
        rw [hbytes, hitems', h.flatten_chain, h.flatten_chain, hreach]
        -- The rest of the payload is the stretch between the two offsets.
        have hcut := hslice
        rw [List.length_append, stretch_add] at hcut
        obtain ⟨-, hrest⟩ := List.append_inj hcut (length_stretch ..).symm
        have hle := b.layout.le_reach (head ++ rest).length
        rw [List.length_append] at hle ⊢
        rw [Nat.zero_add] at hrest
        have hlength : b.layout.reach (head.length + rest.length) - head.length = rest.length +
            (b.layout.reach (head.length + rest.length) - (head.length + rest.length)) := by
          omega
        rw [hlength, stretch_add, ← hrest]

end StreamTap
