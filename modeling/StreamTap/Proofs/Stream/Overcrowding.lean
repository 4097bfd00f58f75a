import StreamTap.Proofs.Stream.Occupancy

/-!
# A closed buffer outgrows its window

A closed buffer still takes segments in.  One that continues the stream is pulled and lost,
because the hand-off refuses it, and a drain that ends so does not prune.  What it has jumped
over stays parked although the stream will never come back to it.

How much that is was bounded by the number of refused chunks (`occupancy_run`).  Here the bound
is reached: between any two refused chunks a whole window of segments is parked, and each
refused chunk jumps over the window and lands behind it (`exists_crowded`).  So with `n` refused
chunks the room that is needed is the window `n + 1` times (`parked_bounded_iff`).  The window
and one segment more, which would be enough if every drain pruned, is too little after a single
refused chunk unless the window is one byte or none.
-/

namespace StreamTap

/-- A call is started, and it moves as far as it can on a closed buffer with no other calls. -/
def writing (w : Write) : List Occurrence := [.start 0 (.write w), .move 0, .move 0]

namespace History

variable {h : History} {w : Write}

theorem run_writing_of_none (hpending : h.session.pending = []) (hw : w.isVoid = false)
    (hnone : (h.buffer.begin w).sending = none) :
    h.run (writing w) =
      { session := ⟨h.buffer.begin w, []⟩
        record := { h.record with begun := h.record.begun ++ [w] }
        answers := h.answers ++ [(0, .done)] } := by
  have hnone : (h.session.buffer.begin w).sending = none := hnone
  have hbegun := h.record.note_begin 0 (b := h.session.buffer) hw
  simp only [Task.Step.ofWriter, hnone, Option.isSome_none, Bool.false_eq_true, if_false] at hbegun
  simp [writing, happen, buffer, hpending, Call.task, hw, Task.step, Task.Step.ofWriter, hnone,
    resume, hbegun]

theorem run_writing_of_some (hpending : h.session.pending = []) (hw : w.isVoid = false)
    {chunk : Bytes} (hsome : (h.buffer.begin w).sending = some chunk)
    (hclosed : (h.buffer.begin w).isClosed = true) :
    h.run (writing w) =
      { session := ⟨(h.buffer.begin w).lost chunk, []⟩
        record :=
          { h.record with begun := h.record.begun ++ [w], lost := h.record.lost ++ [chunk] }
        answers := h.answers ++ [(0, .done)] } := by
  have hsome : (h.session.buffer.begin w).sending = some chunk := hsome
  have hclosed : (h.session.buffer.begin w).isClosed = true := hclosed
  have hoffer : (h.session.buffer.begin w).canOffer = true :=
    (Buffer.canOffer_iff _).2 ⟨⟨chunk, hsome⟩, Or.inl hclosed⟩
  have hlost := Buffer.offer_of_closed _ hsome hclosed
  have hnone : ((h.session.buffer.begin w).lost chunk).sending = none := rfl
  have hbegun := h.record.note_begin 0 (b := h.session.buffer) hw
  simp only [Task.Step.ofWriter, hsome, Option.isSome_some, if_true] at hbegun
  have hrefused := Record.note_lost { h.record with begun := h.record.begun ++ [w] } 0 hsome hclosed
  simp only [Task.Step.ofWriter, hnone, Option.isSome_none, Bool.false_eq_true, if_false]
    at hrefused
  simp [writing, happen, buffer, hpending, Call.task, hw, Task.step, Task.Step.ofWriter, hsome,
    hoffer, hlost, hnone, resume, hbegun, hrefused]

end History

/-! ## A crowd -/

/-- Where the stream goes on after `n` chunks that are one byte longer than the window. -/
def landing (window : UInt32) (n : Nat) : Nat := n * (window.toNat + 1)

theorem landing_succ (window : UInt32) (n : Nat) :
    landing window (n + 1) = landing window n + window.toNat + 1 := by
  rw [landing, landing, Nat.succ_mul, Nat.add_assoc]

/-- A closed buffer at rest that has refused `n` chunks.  Each of them has jumped over a window
full of segments, and the next `d` segments are parked behind the last landing. -/
structure Crowded (s : Seq) (window : UInt32) (n d : Nat) (h : History) : Prop where
  rest : h.session.pending = []
  closed : h.buffer.isClosed = true
  quiet : h.buffer.sending = none
  sameWindow : h.buffer.window = window
  expected : h.buffer.expected = s.advance (landing window n)
  lost : h.record.lost.length = n
  parked : h.buffer.parked.size = window.toNat * n + d
  known : ∀ {t p}, h.buffer.parked.find? t = some p →
    ∃ o, t = s.advance o ∧ o ≤ landing window n + d ∧ o ≠ landing window n

namespace Crowded

variable {s : Seq} {window : UInt32} {n d : Nat} {h : History}

theorem startingAt (s : Seq) (window : UInt32) (capacity : Nat) :
    Crowded s window 0 0 ((History.ofBuffer (.startingAt s window capacity)).run [.close]) where
  rest := rfl
  closed := rfl
  quiet := rfl
  sameWindow := rfl
  expected := by
    rw [landing, Nat.zero_mul, Seq.advance_zero]
    rfl
  lost := rfl
  parked := rfl
  known := by
    intro t p hp
    cases hp

theorem free (hc : Crowded s window n d h) {o : Nat} (hround : o < UInt32.size)
    (hfar : landing window n + d < UInt32.size)
    (ho : landing window n + d < o ∨ o = landing window n) :
    h.buffer.parked.find? (s.advance o) = none := by
  cases hp : h.buffer.parked.find? (s.advance o) with
  | none => rfl
  | some p =>
    obtain ⟨m, hm, hle, hne⟩ := hc.known hp
    have hsame := s.eq_of_advance_eq hm (by omega) (by omega)
    omega

theorem park (hc : Crowded s window n d h) (hd : d < window.toNat)
    (hround : landing window n + window.toNat < UInt32.size) :
    Crowded s window n (d + 1)
      (h.run (writing (.add (s.advance (landing window n + (d + 1))) [0]))) := by
  have hfree : h.buffer.parked.find? (s.advance (landing window n + (d + 1))) = none :=
    hc.free (by omega) (by omega) (Or.inl (by omega))
  have hwindow : Seq.inWindow h.buffer.expected h.buffer.window
      (s.advance (landing window n + (d + 1))) = true := by
    rw [hc.expected, hc.sameWindow]
    exact s.inWindow_advance_of_le (by omega) (by omega)
  have hne : s.advance (landing window n + (d + 1)) ≠ s.advance (landing window n) := by
    intro heq
    have hsame := s.eq_of_advance_eq heq (by omega) (by omega)
    omega
  have hnone : (h.buffer.parked.insert (s.advance (landing window n + (d + 1))) [0]).find?
      h.buffer.expected = none := by
    rw [hc.expected, Parked.find?_insert_of_ne _ _ hne]
    exact hc.free (by omega) (by omega) (Or.inr rfl)
  have hbegin : h.buffer.begin (.add (s.advance (landing window n + (d + 1))) [0]) =
      h.buffer.park (s.advance (landing window n + (d + 1))) [0] := by
    rw [Buffer.begin_add_free _ (by simp) hwindow hfree]
    exact Buffer.pull_false_of_none _ hnone
  rw [History.run_writing_of_none hc.rest rfl (by rw [hbegin]; exact hc.quiet), hbegin]
  refine ⟨rfl, hc.closed, hc.quiet, hc.sameWindow, hc.expected, hc.lost, ?_, ?_⟩
  · have hsize := Parked.size_insert [0] hfree
    have hparked := hc.parked
    simp only [History.buffer, Buffer.park] at hsize hparked ⊢
    omega
  · intro t p hp
    by_cases ht : s.advance (landing window n + (d + 1)) = t
    · exact ⟨_, ht.symm, Nat.le_refl _, by omega⟩
    · have hold : h.buffer.parked.find? t = some p :=
        (Parked.find?_insert_of_ne _ _ ht).symm.trans hp
      obtain ⟨o, ho, hle, hne⟩ := hc.known hold
      exact ⟨o, ho, by omega, hne⟩

/-- The window is full, and the stream jumps over it. -/
theorem jump (hc : Crowded s window n window.toNat h)
    (hround : landing window n + window.toNat < UInt32.size) {chunk : Bytes}
    (hlength : chunk.length = window.toNat + 1) :
    Crowded s window (n + 1) 0
      (h.run (writing (.add (s.advance (landing window n)) chunk))) := by
  have hpayload : chunk ≠ [] := by
    rintro rfl
    cases hlength
  rw [← hc.expected]
  have hfree : h.buffer.parked.find? h.buffer.expected = none := by
    rw [hc.expected]
    exact hc.free (by omega) (by omega) (Or.inr rfl)
  have hwindow : Seq.inWindow h.buffer.expected h.buffer.window h.buffer.expected = true := by
    rw [Seq.inWindow_iff_distance_le, Seq.distance_self]
    exact Nat.zero_le _
  have hbegin : h.buffer.begin (.add h.buffer.expected chunk) =
      (h.buffer.park h.buffer.expected chunk).pulled chunk := by
    rw [Buffer.begin_add_free _ hpayload hwindow hfree]
    exact Buffer.pull_of_some _ (Parked.find?_insert_self ..) false
  have hsome : (h.buffer.begin (.add h.buffer.expected chunk)).sending = some chunk := by
    rw [hbegin]
    rfl
  rw [History.run_writing_of_some hc.rest (by simp [Write.isVoid, hpayload]) hsome
    (by rw [hbegin]; exact hc.closed), hbegin]
  refine ⟨rfl, hc.closed, rfl, hc.sameWindow, ?_, ?_, ?_, ?_⟩
  · have hexpected := hc.expected
    simp only [History.buffer, Buffer.lost, Buffer.pulled, Buffer.park] at hexpected ⊢
    rw [hexpected, Seq.advance_advance, hlength, landing_succ, Nat.add_assoc]
  · have hlost := hc.lost
    simp only [List.length_append, List.length_singleton, hlost]
  · have hin := Parked.size_insert chunk hfree
    have hout := Parked.size_erase (h.buffer.parked.find?_insert_self h.buffer.expected chunk)
    have hparked := hc.parked
    have hmore : window.toNat * (n + 1) = window.toNat * n + window.toNat := Nat.mul_succ ..
    simp only [History.buffer, Buffer.lost, Buffer.pulled, Buffer.park] at hin hout hparked ⊢
    omega
  · -- The segment that was jumped with is out again, and the others lie before the new landing.
    intro t p hp
    have hp : ((h.buffer.parked.insert h.buffer.expected chunk).erase h.buffer.expected).find? t =
      some p := hp
    by_cases ht : t = h.buffer.expected
    · rw [ht, Parked.find?_erase_self] at hp
      cases hp
    · rw [Parked.find?_erase_of_ne _ ht, Parked.find?_insert_of_ne _ _ (Ne.symm ht)] at hp
      obtain ⟨o, ho, hle, hne⟩ := hc.known hp
      have hnext := landing_succ window n
      exact ⟨o, ho, by omega, by omega⟩

theorem fill (hc : Crowded s window n 0 h)
    (hround : landing window n + window.toNat < UInt32.size) (hd : d ≤ window.toNat) :
    ∃ schedule, Crowded s window n d (h.run schedule) := by
  induction d with
  | zero => exact ⟨[], hc⟩
  | succ d ih =>
    obtain ⟨schedule, hbefore⟩ := ih (Nat.le_of_succ_le hd)
    refine ⟨schedule ++ writing (.add (s.advance (landing window n + (d + 1))) [0]), ?_⟩
    rw [History.run_append]
    exact hbefore.park hd hround

end Crowded

/-- As long as the numbers have not come around, every refused chunk can leave a whole window of
segments behind. -/
theorem exists_crowded (s : Seq) (window : UInt32) (capacity : Nat) {n : Nat}
    (hround : landing window n + window.toNat < UInt32.size) :
    ∃ schedule, Crowded s window n window.toNat
      ((History.ofBuffer (.startingAt s window capacity)).run schedule) := by
  induction n with
  | zero =>
    obtain ⟨schedule, hfull⟩ :=
      (Crowded.startingAt s window capacity).fill hround (Nat.le_refl _)
    refine ⟨[.close] ++ schedule, ?_⟩
    rwa [History.run_append]
  | succ n ih =>
    have hnext := landing_succ window n
    have hbefore : landing window n + window.toNat < UInt32.size := by omega
    obtain ⟨schedule, hfull⟩ := ih hbefore
    have hlength : (List.replicate (window.toNat + 1) 0 : Bytes).length = window.toNat + 1 :=
      List.length_replicate
    obtain ⟨more, hagain⟩ := (hfull.jump hbefore hlength).fill hround (Nat.le_refl _)
    rw [← History.run_append, ← History.run_append] at hagain
    exact ⟨_, hagain⟩

/-- However many calls there are and wherever the close stands among them, no more is parked than
the window for each refused chunk and once more.  This cannot be improved: as long as the numbers
have not come around, a bound is kept between the calls of all histories with at most `n` refused
chunks exactly if it is the window `n + 1` times or more.  So the window and one segment more is
such a bound if the window times `n` is at most one, and not otherwise. -/
theorem parked_bounded_iff (s : Seq) (window : UInt32) (capacity : Nat) :
    (∀ schedule,
      let h := (History.ofBuffer (.startingAt s window capacity)).run schedule
      h.buffer.parked.size ≤ window.toNat * (h.record.lost.length + 1)) ∧
    ∀ n bound, n * (window.toNat + 1) + window.toNat < UInt32.size →
      ((∀ schedule,
        let h := (History.ofBuffer (.startingAt s window capacity)).run schedule
        h.WritersDone → h.record.lost.length ≤ n → h.buffer.parked.size ≤ bound) ↔
        window.toNat * (n + 1) ≤ bound) := by
  have hall : ∀ schedule,
      let h := (History.ofBuffer (.startingAt s window capacity)).run schedule
      h.buffer.parked.size ≤ window.toNat * (h.record.lost.length + 1) := fun schedule =>
    (occupancy_run s window capacity schedule).parked
  refine ⟨hall, fun n bound hround => ⟨?_, ?_⟩⟩
  · intro hbound
    obtain ⟨schedule, hfull⟩ := exists_crowded s window capacity hround
    have hdone : ((History.ofBuffer (.startingAt s window capacity)).run schedule).WritersDone := by
      intro p hp
      rw [hfull.rest] at hp
      cases hp
    have hparked := hbound schedule hdone (Nat.le_of_eq hfull.lost)
    rwa [hfull.parked] at hparked
  · intro hwindow schedule h _ hlost
    calc h.buffer.parked.size
        ≤ window.toNat * (h.record.lost.length + 1) := hall schedule
      _ ≤ window.toNat * (n + 1) := Nat.mul_le_mul_left _ (Nat.succ_le_succ hlost)
      _ ≤ bound := hwindow

/-- A window of two has room for three segments as long as nothing is refused. -/
theorem parked_bounded_iff_two :
    0 * (2 + 1) + 2 < UInt32.size ∧ 1 * (2 + 1) + 2 < UInt32.size ∧
      (∀ schedule,
        let h := (History.ofBuffer (.startingAt 4294967294 2 1)).run schedule
        h.WritersDone → h.record.lost.length ≤ 0 → h.buffer.parked.size ≤ 2 + 1) ∧
      ¬∀ schedule,
        let h := (History.ofBuffer (.startingAt 4294967294 2 1)).run schedule
        h.WritersDone → h.record.lost.length ≤ 1 → h.buffer.parked.size ≤ 2 + 1 := by
  obtain ⟨-, hexact⟩ := parked_bounded_iff 4294967294 2 1
  refine ⟨by decide, by decide, (hexact 0 3 (by decide)).2 (by decide), fun hbound => ?_⟩
  exact absurd ((hexact 1 3 (by decide)).1 hbound) (by decide)

/-- The window is filled, jumped over and filled again. -/
def outgrowing : List Occurrence :=
  .close :: [.add 1 [97], .add 2 [98], .add 0 [0, 0, 0], .add 4 [99], .add 5 [100]].flatMap writing

/-- After one refused chunk a window of two has four segments parked. -/
theorem parked_outgrowing :
    let h := (History.ofBuffer (.startingAt 0 2 4)).run outgrowing
    h.WritersDone ∧ h.buffer.window = 2 ∧ h.buffer.expected = 3 ∧ h.record.lost = [[0, 0, 0]] ∧
      h.buffer.parked.segments = [⟨1, [97]⟩, ⟨2, [98]⟩, ⟨4, [99]⟩, ⟨5, [100]⟩] ∧
      ¬h.buffer.parked.size ≤ h.buffer.window.toNat + 1 :=
  ⟨by decide, by decide, by decide, by decide, by decide, by decide⟩

end StreamTap
