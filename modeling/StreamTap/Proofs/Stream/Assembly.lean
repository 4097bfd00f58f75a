import StreamTap.Proofs.Stream.Layout
import StreamTap.Proofs.Stream.Moves
import StreamTap.Proofs.Wire.Seq

/-!
# Assembling a layout

A buffer is given segments of a layout, in any order and any of them as often as one
likes.  `Assembly` says where it stands then: what has left it is a beginning of the
chain, the stream continues at offset `front`, and of the segments that came (`arrived`)
the ones at `front` or ahead of it are parked, each under its own number.

Segments behind `front` were overtaken.  They are pruned when a drain ends, so while
the buffer drains there may be some among the parked ones, and `low` is what is known
about how far behind they are.  When nothing is on offer all that is parked lies ahead
(`Assembling`): a segment at `front` would have been pulled.

All of this is about offsets without bound.  The numbers under which segments are
parked are offsets only up to the circle, and `limit` keeps the whole chain and the
window behind it within one round of it.
-/

namespace StreamTap

/-- A buffer that has been given the segments at the offsets `arrived` and has sent on the
chunks `sent`, with all that is parked at offset `low` or ahead. -/
structure Assembly (m : Layout) (s : Seq) (base : Nat) (arrived : List Nat)
    (sent : List Bytes) (low front : Nat) (b : Buffer) : Prop where
  limit : m.reach base + b.window.toNat < UInt32.size
  isOpen : b.isClosed = false
  expected : b.expected = s.advance front
  published : b.published = s.advance front
  delivered : b.delivered = total List.length sent
  chunks : m.chain base = sent ++ b.sending.toList ++ m.chain front
  position : front = base + total List.length (sent ++ b.sending.toList)
  known : ∀ {t p}, b.parked.find? t = some p →
    ∃ o, t = s.advance o ∧ o ∈ arrived ∧ low ≤ o ∧ m.entry? o = some p
  kept : ∀ {o p}, o ∈ arrived → front ≤ o → m.entry? o = some p →
    b.parked.find? (s.advance o) = some p
  near : ∀ {o}, o ∈ arrived → o ≤ base + b.window.toNat

namespace Assembly

variable {m : Layout} {s : Seq} {base low front : Nat} {arrived : List Nat} {sent : List Bytes}
  {b : Buffer}

/-! ## Offsets -/

theorem front_le (h : Assembly m s base arrived sent low front b) : front ≤ m.reach base := by
  have hlength := congrArg (total List.length) h.chunks
  have hposition := h.position
  rw [total_append] at hlength
  rw [Layout.reach]
  omega

theorem base_le (h : Assembly m s base arrived sent low front b) : base ≤ front := by
  have hposition := h.position
  omega

/-- No offset that matters shares its number with another. -/
theorem offset_unique (h : Assembly m s base arrived sent low front b) {o n : Nat}
    (ho : o ≤ m.reach base + b.window.toNat) (hn : n ≤ m.reach base + b.window.toNat)
    (heq : s.advance o = s.advance n) : o = n := by
  have hlimit := h.limit
  exact s.eq_of_advance_eq heq (by omega) (by omega)

theorem arrived_le (h : Assembly m s base arrived sent low front b) {o : Nat}
    (ho : o ∈ arrived) : o ≤ m.reach base + b.window.toNat := by
  have hnear := h.near ho
  have hreach := m.le_reach base
  omega

theorem of_parked (h : Assembly m s base arrived sent low front b) {o : Nat} {p : Bytes}
    (ho : o ≤ m.reach base + b.window.toNat) (hp : b.parked.find? (s.advance o) = some p) :
    o ∈ arrived ∧ low ≤ o ∧ m.entry? o = some p := by
  obtain ⟨n, hn, harrived, hlow, hentry⟩ := h.known hp
  obtain rfl := h.offset_unique ho (h.arrived_le harrived) hn
  exact ⟨harrived, hlow, hentry⟩

theorem inWindow_of_arrived (h : Assembly m s base arrived sent low front b) {o : Nat}
    (ho : o ∈ arrived) : Seq.inWindow b.expected b.window (s.advance o) = decide (front ≤ o) := by
  have hlimit := h.limit
  have hfront := h.front_le
  have hbase := h.base_le
  have hnear := h.near ho
  rw [h.expected]
  by_cases hle : front ≤ o
  · rw [s.inWindow_advance_of_le hle (by omega), decide_eq_true hle]
  · rw [s.inWindow_advance_of_lt (by omega) (by omega), decide_eq_false hle]

/-! ## Moves -/

theorem entry_of_pulled (h : Assembly m s base arrived sent low front b) {chunk : Bytes}
    (hchunk : b.parked.find? b.expected = some chunk) : m.entry? front = some chunk := by
  have hfront := h.front_le
  rw [h.expected] at hchunk
  exact (h.of_parked (by omega) hchunk).2.2

theorem pulled (h : Assembly m s base arrived sent low front b) (hsending : b.sending = none)
    {chunk : Bytes} (hchunk : b.parked.find? b.expected = some chunk) :
    Assembly m s base arrived sent low (front + chunk.length) (b.pulled chunk) := by
  have hentry := h.entry_of_pulled hchunk
  have hpos := m.length_pos hentry
  have hchunks := h.chunks
  have hposition := h.position
  rw [hsending, Option.toList_none, List.append_nil] at hchunks hposition
  constructor
  · exact h.limit
  · exact h.isOpen
  · simp only [Buffer.pulled, h.expected, Seq.advance_advance]
  · simp only [Buffer.pulled, h.expected, Seq.advance_advance]
  · exact h.delivered
  · rw [hchunks, m.chain_of_some hentry]
    simp [Buffer.pulled]
  · simp only [Buffer.pulled, Option.toList_some, total_append, total_cons, total_nil]
    omega
  · intro t p hp
    by_cases ht : t = b.expected
    · simp [ht, Buffer.pulled] at hp
    · exact h.known ((b.parked.find?_erase_of_ne ht).symm.trans hp)
  · intro o p ho hle hp
    have hne : s.advance o ≠ b.expected := by
      rw [h.expected]
      intro heq
      have hsame := h.offset_unique (h.arrived_le ho) (Nat.le_trans h.front_le (by omega)) heq
      omega
    exact (b.parked.find?_erase_of_ne hne).trans (h.kept ho (by omega) hp)
  · exact h.near

theorem prune (h : Assembly m s base arrived sent low front b) :
    Assembly m s base arrived sent front front b.prune := by
  constructor
  · exact h.limit
  · exact h.isOpen
  · exact h.expected
  · exact h.published
  · exact h.delivered
  · exact h.chunks
  · exact h.position
  · intro t p hp
    simp only [Buffer.prune, Parked.find?_filter] at hp
    split at hp
    · next hinside =>
      obtain ⟨o, rfl, harrived, -, hentry⟩ := h.known hp
      rw [h.inWindow_of_arrived harrived, decide_eq_true_iff] at hinside
      exact ⟨o, rfl, harrived, hinside, hentry⟩
    · cases hp
  · intro o p ho hle hp
    have hinside := h.inWindow_of_arrived ho
    rw [decide_eq_true hle] at hinside
    simp only [Buffer.prune, Parked.find?_filter, hinside, if_true]
    exact h.kept ho hle hp
  · exact h.near

theorem ahead (h : Assembly m s base arrived sent front front b)
    (hnone : b.parked.find? b.expected = none) :
    Assembly m s base arrived sent (front + 1) front b where
  limit := h.limit
  isOpen := h.isOpen
  expected := h.expected
  published := h.published
  delivered := h.delivered
  chunks := h.chunks
  position := h.position
  known := by
    intro t p hp
    obtain ⟨o, rfl, harrived, hlow, hentry⟩ := h.known hp
    have hne : o ≠ front := by
      rintro rfl
      rw [h.expected, hp] at hnone
      cases hnone
    exact ⟨o, rfl, harrived, by omega, hentry⟩
  kept := h.kept
  near := h.near

end Assembly

/-- A buffer that assembles a layout.  When nothing is on offer all that is parked lies
ahead of the front. -/
def Assembling (m : Layout) (s : Seq) (base : Nat) (arrived : List Nat) (sent : List Bytes)
    (b : Buffer) : Prop :=
  ∃ low front, Assembly m s base arrived sent low front b ∧
    (b.sending = none → low = front + 1)

namespace Assembly

variable {m : Layout} {s : Seq} {base low front : Nat} {arrived : List Nat} {sent : List Bytes}
  {b : Buffer}

/-- A pull that ends by pruning may begin with anything parked. -/
theorem pull_true (h : Assembly m s base arrived sent low front b) (hsending : b.sending = none) :
    Assembling m s base arrived sent (b.pull true) := by
  refine b.pull_elim (P := Assembling m s base arrived sent) true ?_ ?_ (fun h _ => by cases h)
  · intro chunk hchunk
    exact ⟨low, _, h.pulled hsending hchunk, fun hnone => by cases hnone⟩
  · intro _ hnone
    -- Nothing is parked under the expected number after pruning either.
    have hprune : b.prune.parked.find? b.prune.expected = none := by
      simp [Buffer.prune, Parked.find?_filter, hnone]
    exact ⟨_, front, h.prune.ahead hprune, fun _ => rfl⟩

/-- A pull that does not prune must begin with nothing overtaken. -/
theorem pull_false (h : Assembly m s base arrived sent front front b)
    (hsending : b.sending = none) : Assembling m s base arrived sent (b.pull false) := by
  refine b.pull_elim (P := Assembling m s base arrived sent) false ?_ (fun h _ => by cases h) ?_
  · intro chunk hchunk
    exact ⟨front, _, h.pulled hsending hchunk, fun hnone => by cases hnone⟩
  · intro _ hnone
    exact ⟨_, front, h.ahead hnone, fun _ => rfl⟩

/-- When nothing is on offer nothing is parked at the front. -/
theorem none_at_front (h : Assembly m s base arrived sent (front + 1) front b) :
    b.parked.find? b.expected = none := by
  cases hp : b.parked.find? b.expected with
  | none => rfl
  | some p =>
    have hfront := h.front_le
    rw [h.expected] at hp
    have hlow := (h.of_parked (by omega) hp).2.1
    omega

theorem arrive (h : Assembly m s base arrived sent (front + 1) front b) {o : Nat} {p : Bytes}
    (hentry : front ≤ o → m.entry? o = some p) (hnear : o ≤ base + b.window.toNat) {b' : Buffer}
    (hparked : ∀ t, b'.parked.find? t =
      if front ≤ o ∧ t = s.advance o then some p else b.parked.find? t)
    (hfront : Buffer.SameFront b' b) (hexpected : b'.expected = b.expected)
    (hpublished : b'.published = b.published) (hsending : b'.sending = b.sending) :
    Assembly m s base (arrived ++ [o]) sent front front b' where
  limit := by rw [hfront.window]; exact h.limit
  isOpen := hfront.isClosed.trans h.isOpen
  expected := hexpected.trans h.expected
  published := hpublished.trans h.published
  delivered := hfront.delivered.trans h.delivered
  chunks := by rw [hsending]; exact h.chunks
  position := by rw [hsending]; exact h.position
  known := by
    intro t q hq
    rw [hparked] at hq
    split at hq
    · next hnew =>
      cases hq
      exact ⟨o, hnew.2, List.mem_append_right _ List.mem_cons_self, hnew.1, hentry hnew.1⟩
    · obtain ⟨n, hn, harrived, hlow, hold⟩ := h.known hq
      exact ⟨n, hn, List.mem_append_left _ harrived, by omega, hold⟩
  kept := by
    intro n q hn hle hq
    rw [hparked]
    rcases List.mem_append.1 hn with hn | hn
    · split
      · next hnew =>
        have hreach := m.le_reach base
        obtain rfl := h.offset_unique (h.arrived_le hn) (by omega) hnew.2
        exact (hentry hle).symm.trans hq
      · exact h.kept hn hle hq
    · obtain rfl := List.mem_singleton.1 hn
      rw [if_pos ⟨hle, rfl⟩]
      exact (hentry hle).symm.trans hq
  near := by
    intro n hn
    rw [hfront.window]
    rcases List.mem_append.1 hn with hn | hn
    · exact h.near hn
    · obtain rfl := List.mem_singleton.1 hn
      exact hnear

theorem expectAt (h : Assembly m s base arrived [] low front b) (hsending : b.sending = none)
    {n : Nat} (hn : front ≤ n) (hlimit : m.reach n + b.window.toNat < UInt32.size) :
    Assembly m s n arrived [] low n (b.expectAt (s.advance n)) where
  limit := hlimit
  isOpen := h.isOpen
  expected := rfl
  published := rfl
  delivered := h.delivered
  chunks := by simp [Buffer.expectAt, hsending]
  position := by simp [Buffer.expectAt, hsending]
  known := h.known
  kept := fun ho hle hp => h.kept ho (Nat.le_trans hn hle) hp
  near := by
    intro o ho
    have hnear := h.near ho
    have hbase := h.base_le
    exact Nat.le_trans hnear (by simp only [Buffer.expectAt]; omega)

end Assembly

namespace Assembling

variable {m : Layout} {s : Seq} {base : Nat} {arrived : List Nat} {sent : List Bytes}
  {b : Buffer}

theorem startingAt {window : UInt32} (capacity : Nat)
    (hlimit : m.reach base + window.toNat < UInt32.size) :
    Assembling m s base [] [] (.startingAt (s.advance base) window capacity) := by
  refine ⟨base + 1, base, ⟨hlimit, rfl, rfl, rfl, rfl, rfl, rfl, ?_, ?_, ?_⟩, fun _ => rfl⟩
  · intro t p hp
    cases hp
  · intro o p ho
    cases ho
  · intro o ho
    cases ho

/-- A segment is written.  It has to be one of the layout only if it does not start before
the chain. -/
theorem begin_add (h : Assembling m s base arrived sent b) (hsending : b.sending = none)
    {o : Nat} {p : Bytes} (hpayload : p ≠ []) (hentry : base ≤ o → m.entry? o = some p)
    (hnear : o ≤ base + b.window.toNat) :
    Assembling m s base (arrived ++ [o]) sent (b.begin (.add (s.advance o) p)) := by
  obtain ⟨low, front, h, hlow⟩ := h
  obtain rfl := hlow hsending
  have hlimit := h.limit
  have hbase := h.base_le
  have hfront := h.front_le
  have hentry : front ≤ o → m.entry? o = some p := fun hle => hentry (Nat.le_trans hbase hle)
  by_cases hle : front ≤ o
  · have hwindow : Seq.inWindow b.expected b.window (s.advance o) = true := by
      rw [h.expected]
      exact s.inWindow_advance_of_le hle (by omega)
    cases hfind : b.parked.find? (s.advance o) with
    | some other =>
      obtain ⟨-, -, hother⟩ := h.of_parked (by omega) hfind
      rw [b.begin_add_taken hpayload hwindow hfind]
      have harrive : Assembly m s base (arrived ++ [o]) sent front front
          { b with duplicate := b.duplicate + 1 } := by
        refine h.arrive hentry hnear ?_ ⟨rfl, rfl, rfl⟩ rfl rfl rfl
        intro t
        split
        · next hnew => rw [hnew.2, ← hentry hle, hother]; exact hfind
        · rfl
      exact ⟨_, front, harrive.ahead h.none_at_front, fun _ => rfl⟩
    | none =>
      rw [b.begin_add_free hpayload hwindow hfind]
      have harrive : Assembly m s base (arrived ++ [o]) sent front front
          (b.park (s.advance o) p) := by
        refine h.arrive hentry hnear ?_ ⟨rfl, rfl, rfl⟩ rfl rfl rfl
        intro t
        split
        · next hnew => rw [hnew.2]; exact b.parked.find?_insert_self _ _
        · next hnew => exact b.parked.find?_insert_of_ne p fun heq => hnew ⟨hle, heq.symm⟩
      exact harrive.pull_false hsending
  · have hwindow : Seq.inWindow b.expected b.window (s.advance o) = false := by
      rw [h.expected]
      exact s.inWindow_advance_of_lt (by omega) (by omega)
    rw [b.begin_add_outside hpayload hwindow]
    have harrive : Assembly m s base (arrived ++ [o]) sent front front
        { b with outOfWindow := b.outOfWindow + 1 } := by
      refine h.arrive hentry hnear ?_ ⟨rfl, rfl, rfl⟩ rfl rfl rfl
      intro t
      rw [if_neg fun hnew => hle hnew.1]
    exact ⟨_, front, harrive.ahead h.none_at_front, fun _ => rfl⟩

theorem begin_rebase (h : Assembling m s base arrived [] b) (hsending : b.sending = none)
    (hvoid : m.entry? base = none) {n : Nat} (hn : base ≤ n)
    (hlimit : m.reach n + b.window.toNat < UInt32.size) :
    Assembling m s n arrived [] (b.begin (.rebase (s.advance n))) := by
  obtain ⟨low, front, h, -⟩ := h
  have hfront := h.front_le
  rw [Layout.reach, m.chain_of_none hvoid, total_nil] at hfront
  exact (h.expectAt hsending (by omega) hlimit).prune.pull_false hsending

theorem accepted (h : Assembling m s base arrived sent b) {chunk : Bytes}
    (hsending : b.sending = some chunk) :
    Assembling m s base arrived (sent ++ [chunk]) ((b.accepted chunk).pull true) := by
  obtain ⟨low, front, h, -⟩ := h
  have haccepted : Assembly m s base arrived (sent ++ [chunk]) low front (b.accepted chunk) := by
    refine ⟨h.limit, h.isOpen, h.expected, h.published, ?_, ?_, ?_, h.known, h.kept, h.near⟩
    · have hdelivered := h.delivered
      simp [Buffer.accepted, hdelivered]
    · have hchunks := h.chunks
      rw [hsending] at hchunks
      simpa [Buffer.accepted] using hchunks
    · have hposition := h.position
      rw [hsending] at hposition
      simpa [Buffer.accepted] using hposition
  exact haccepted.pull_true rfl

theorem taken (h : Assembling m s base arrived sent b) (chunk : Bytes) (rest : List Bytes) :
    Assembling m s base arrived sent (b.taken chunk rest) := by
  obtain ⟨low, front, h, hlow⟩ := h
  exact ⟨low, front, ⟨h.limit, h.isOpen, h.expected, h.published, h.delivered, h.chunks,
    h.position, h.known, h.kept, h.near⟩, hlow⟩

/-- A buffer whose chain cannot begin has sent nothing and still waits at the beginning. -/
theorem untouched (h : Assembling m s base arrived sent b) (hvoid : m.entry? base = none) :
    sent = [] ∧ b.published = s.advance base ∧ b.delivered = 0 := by
  obtain ⟨low, front, h, -⟩ := h
  have hfront := h.front_le
  have hbase := h.base_le
  have hchunks := h.chunks
  rw [Layout.reach, m.chain_of_none hvoid, total_nil] at hfront
  rw [m.chain_of_none hvoid] at hchunks
  have hsent : sent = [] :=
    (List.append_eq_nil_iff.1 (List.append_eq_nil_iff.1 hchunks.symm).1).1
  obtain rfl : front = base := by omega
  refine ⟨hsent, h.published, ?_⟩
  rw [h.delivered, hsent]
  rfl

theorem published_ne (h : Assembling m s base arrived sent b) {o : Nat} (ho : o < base) :
    b.published ≠ s.advance o := by
  obtain ⟨low, front, h, -⟩ := h
  have hfront := h.front_le
  have hbase := h.base_le
  rw [h.published]
  intro heq
  have hsame := h.offset_unique (by omega) (by omega) heq
  omega

/-- When all segments of the layout have come and nothing is on offer, the chain has left
the buffer, and what is parked are the segments that start behind its end. -/
theorem complete (h : Assembling m s base arrived sent b) (hsending : b.sending = none)
    (hall : ∀ o ∈ m.offsets, o ∈ arrived) :
    sent = m.chain base ∧ b.expected = s.advance (m.reach base) ∧
      ∀ t p, b.parked.find? t = some p ↔
        ∃ o, t = s.advance o ∧ m.reach base < o ∧ m.entry? o = some p := by
  obtain ⟨low, front, h, hlow⟩ := h
  obtain rfl := hlow hsending
  have hend : m.entry? front = none := by
    cases hp : m.entry? front with
    | none => rfl
    | some p =>
      have hkept := h.kept (hall front (m.mem_offsets_iff.2 ⟨p, hp⟩)) (Nat.le_refl front) hp
      rw [← h.expected, h.none_at_front] at hkept
      cases hkept
  have hchunks := h.chunks
  rw [hsending, m.chain_of_none hend, Option.toList_none, List.append_nil, List.append_nil]
    at hchunks
  have hreach : front = m.reach base := by
    rw [h.position, hsending, Option.toList_none, List.append_nil, Layout.reach, hchunks]
  refine ⟨hchunks.symm, hreach ▸ h.expected, ?_⟩
  intro t p
  rw [← hreach]
  constructor
  · intro hp
    obtain ⟨o, ho, -, hahead, hentry⟩ := h.known hp
    exact ⟨o, ho, hahead, hentry⟩
  · rintro ⟨o, rfl, hahead, hentry⟩
    exact h.kept (hall o (m.mem_offsets_iff.2 ⟨p, hentry⟩)) (by omega) hentry

end Assembling

end StreamTap
