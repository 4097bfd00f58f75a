import StreamTap.Proofs.Stream.Moves
import StreamTap.Stream.Session

/-!
# A whole write

Every offer that changes something lowers the `weight` (`weight_offer_lt`), so a
drain comes to an end.  `finish` is the drain carried as far as the hand-off has
room, and what offers keep, `finish` keeps (`finish_keeps`).

`write` is the turn of a writer that is alone with the buffer, as the scheduler of a
session gives it.  It is the beginning of the write followed by its drain
(`write_eq_finish`), so the number of moves that the scheduler allows is enough.
-/

namespace StreamTap

namespace Buffer

/-! ## The weight -/

theorem weight_add_parked {a b : Buffer} (hsending : a.sending = b.sending)
    (hhandoff : a.handoff = b.handoff) :
    a.weight + 3 * b.parked.size = b.weight + 3 * a.parked.size := by
  simp only [weight, hsending, hhandoff]
  omega

theorem weight_prune_le (b : Buffer) : b.prune.weight ≤ b.weight := by
  have hsize := b.parked.size_filter (Seq.inWindow b.expected b.window)
  have hprune : b.prune.parked.size ≤ b.parked.size := by
    simp only [prune]
    omega
  have hweight := weight_add_parked (a := b.prune) (b := b) rfl rfl
  omega

theorem weight_pull_le {b : Buffer} (h : b.sending = none) (moved : Bool) :
    (b.pull moved).weight ≤ b.weight := by
  refine b.pull_elim (P := fun a => a.weight ≤ b.weight) moved ?_ ?_ ?_
  · intro chunk hchunk
    have hsize := Parked.size_erase hchunk
    simp only [weight, pulled, h, Option.isSome_none, Option.isSome_some, if_true,
      Bool.false_eq_true, if_false]
    omega
  · exact fun _ _ => b.weight_prune_le
  · exact fun _ _ => Nat.le_refl _

theorem weight_offer_lt {b : Buffer} (h : b.canOffer = true) : b.offer.weight < b.weight := by
  refine b.offer_elim (P := fun a => a.weight < b.weight) h ?_ ?_
  · intro chunk hsending _ _
    have hpull := weight_pull_le (b := b.accepted chunk) rfl true
    have haccept : (b.accepted chunk).weight + 1 = b.weight := by
      simp [weight, accepted, hsending]
      omega
    omega
  · intro chunk hsending _
    simp [weight, lost, hsending]

/-! ## A drain to its end -/

/-- Offers as long as an offer changes something. -/
def finish (b : Buffer) : Buffer :=
  if _h : b.canOffer = true then b.offer.finish else b
termination_by b.weight
decreasing_by exact weight_offer_lt _h

variable {b : Buffer}

theorem finish_of_canOffer (h : b.canOffer = true) : b.finish = b.offer.finish := by
  rw [finish, dif_pos h]

theorem finish_of_not_canOffer (h : b.canOffer = false) : b.finish = b := by
  rw [finish, dif_neg (by simp [h])]

theorem finish_of_sending_eq_none (h : b.sending = none) : b.finish = b :=
  finish_of_not_canOffer (b.canOffer_of_sending_eq_none h)

/-- What every offer keeps, a drain to its end keeps. -/
theorem finish_keeps {P : Buffer → Prop} (step : ∀ a, P a → a.canOffer = true → P a.offer)
    (h : P b) : P b.finish := by
  induction b using finish.induct with
  | case1 a hoffer ih =>
    rw [finish_of_canOffer hoffer]
    exact ih (step a h hoffer)
  | case2 a hstuck =>
    rw [finish_of_not_canOffer (by simpa using hstuck)]
    exact h

theorem canOffer_finish (b : Buffer) : b.finish.canOffer = false := by
  induction b using finish.induct with
  | case1 a hoffer ih => rwa [finish_of_canOffer hoffer]
  | case2 a hstuck =>
    have hstuck : a.canOffer = false := by simpa using hstuck
    rwa [finish_of_not_canOffer hstuck]

/-! ## A writer that is alone -/

/-- A whole write by a writer that is alone with the buffer, as far as the hand-off
has room. -/
def write (b : Buffer) (w : Write) : Buffer := ((Task.write w).turn b true).1

end Buffer

namespace Task

theorem moves_draining {b : Buffer} {n : Nat} (myTurn : Bool) (h : b.weight ≤ n) :
    (Task.draining.moves myTurn n b).1 = b.finish := by
  induction n generalizing b with
  | zero =>
    have hnone : b.sending = none := by
      cases hs : b.sending with
      | none => rfl
      | some chunk => simp [Buffer.weight, hs] at h
    rw [Buffer.finish_of_sending_eq_none hnone]
    rfl
  | succ n ih =>
    cases hoffer : b.canOffer with
    | false => simp [moves, step, hoffer, Buffer.finish_of_not_canOffer hoffer]
    | true =>
      have hlt := Buffer.weight_offer_lt hoffer
      rw [Buffer.finish_of_canOffer hoffer]
      cases hs : b.offer.sending with
      | none =>
        simp [moves, step, hoffer, Step.ofWriter, hs, Buffer.finish_of_sending_eq_none hs]
      | some chunk =>
        simp only [moves, step, hoffer, if_true, Step.ofWriter, hs, Option.isSome_some]
        exact ih (by omega)

end Task

namespace Buffer

theorem write_of_isVoid (b : Buffer) {w : Write} (h : w.isVoid = true) : b.write w = b := by
  simp [write, Task.turn, Task.weight, Task.moves, Task.step, h]

theorem weight_begin_le (b : Buffer) (w : Write) (h : b.sending = none) :
    (b.begin w).weight ≤ b.weight + 3 := by
  cases hvoid : w.isVoid with
  | true => simp [b.begin_of_isVoid hvoid]
  | false =>
    refine b.begin_elim (P := fun a => a.weight ≤ b.weight + 3) hvoid ?_ ?_ ?_ ?_
    · exact fun _ _ _ _ _ => Nat.le_add_right ..
    · exact fun _ _ _ _ _ _ _ => Nat.le_add_right ..
    · intro seq payload _ _ _ hfree
      have hpull := weight_pull_le (b := b.park seq payload) h false
      have hsize : (b.park seq payload).parked.size = b.parked.size + 1 :=
        Parked.size_insert payload hfree
      have hweight := weight_add_parked (a := b.park seq payload) (b := b) rfl rfl
      omega
    · intro seq _
      have hpull := weight_pull_le (b := (b.expectAt seq).prune) h false
      have hprune : (b.expectAt seq).prune.weight ≤ b.weight := (b.expectAt seq).weight_prune_le
      omega

/-- A whole write is its beginning and the drain that follows. -/
theorem write_eq_finish (b : Buffer) (w : Write) (h : b.sending = none) :
    b.write w = (b.begin w).finish := by
  cases hvoid : w.isVoid with
  | true =>
    rw [b.write_of_isVoid hvoid, b.begin_of_isVoid hvoid, finish_of_sending_eq_none h]
  | false =>
    have hweight := b.weight_begin_le w h
    have hfuel : b.weight + (Task.write w).weight = b.weight + 4 + 1 := rfl
    obtain ⟨n, hn⟩ : ∃ n, b.weight + 4 = n := ⟨_, rfl⟩
    rw [hn] at hfuel
    simp only [write, Task.turn, hfuel, Task.moves, Task.step, hvoid, Bool.false_eq_true,
      if_false, if_true, Task.Step.ofWriter]
    cases hs : (b.begin w).sending with
    | none => simp [finish_of_sending_eq_none hs]
    | some chunk =>
      simp only [Option.isSome_some, if_true]
      exact Task.moves_draining true (by omega)

end Buffer

end StreamTap
