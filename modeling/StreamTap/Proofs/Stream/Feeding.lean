import StreamTap.Proofs.Stream.Assembly
import StreamTap.Proofs.Stream.Drain

/-!
# Writes that do not wait

When nobody reads and the hand-off has room for everything, writes are made one after
another, and what has left the buffer is what stands in its hand-off.  `Unhindered` says
of a list of writes that none of them waits.  What such writes do to a buffer that
assembles a layout follows from what their moves do.
-/

namespace StreamTap

namespace Buffer

/-- Nothing is on offer before, between and after the writes when they are made one after
another. -/
def Unhindered (b : Buffer) : List Write → Prop
  | [] => b.sending = none
  | w :: ws => b.sending = none ∧ (b.write w).Unhindered ws

theorem Unhindered.sending {b : Buffer} {ws : List Write} (h : b.Unhindered ws) :
    b.sending = none := by
  cases ws with
  | nil => exact h
  | cons w ws => exact h.1

theorem Unhindered.sending_foldl {b : Buffer} {ws : List Write} (h : b.Unhindered ws) :
    (ws.foldl write b).sending = none := by
  induction ws generalizing b with
  | nil => exact h
  | cons w ws ih => exact ih h.2

theorem window_finish (b : Buffer) : b.finish.window = b.window := by
  refine finish_keeps (P := fun a => a.window = b.window) ?_ rfl
  intro a ha hoffer
  refine a.offer_elim (P := fun c => c.window = b.window) hoffer ?_ ?_
  · intro chunk _ _ _
    rw [window_pull]
    exact ha
  · exact fun _ _ _ => ha

theorem window_write (b : Buffer) (h : b.sending = none) (w : Write) :
    (b.write w).window = b.window := by
  cases hw : w.isVoid with
  | true => rw [b.write_of_isVoid hw]
  | false => rw [b.write_eq_finish w h, window_finish, (b.sameFront_begin hw).window]

end Buffer

namespace Assembling

variable {m : Layout} {s : Seq} {base : Nat} {arrived : List Nat} {b : Buffer}

theorem finish (h : Assembling m s base arrived b.handoff.items b) :
    Assembling m s base arrived b.finish.handoff.items b.finish := by
  refine Buffer.finish_keeps (P := fun a => Assembling m s base arrived a.handoff.items a) ?_ h
  intro a ha hoffer
  refine a.offer_elim (P := fun c => Assembling m s base arrived c.handoff.items c) hoffer ?_ ?_
  · intro chunk hsending _ _
    rw [Buffer.handoff_pull]
    exact ha.accepted hsending
  · intro chunk _ hclosed
    obtain ⟨low, front, hassembly, -⟩ := ha
    rw [hassembly.isOpen] at hclosed
    cases hclosed

theorem write_add (h : Assembling m s base arrived b.handoff.items b) (hsending : b.sending = none)
    {o : Nat} {p : Bytes} (hpayload : p ≠ []) (hentry : base ≤ o → m.entry? o = some p)
    (hnear : o ≤ base + b.window.toNat) :
    Assembling m s base (arrived ++ [o]) (b.write (.add (s.advance o) p)).handoff.items
      (b.write (.add (s.advance o) p)) := by
  have hvoid : (Write.add (s.advance o) p).isVoid = false := by simp [Write.isVoid, hpayload]
  have hbegin := h.begin_add hsending hpayload hentry hnear
  rw [← (b.sameFront_begin hvoid).handoff] at hbegin
  rw [b.write_eq_finish _ hsending]
  exact hbegin.finish

theorem write_rebase (h : Assembling m s base arrived [] b) (hitems : b.handoff.items = [])
    (hsending : b.sending = none) (hvoid : m.entry? base = none) {n : Nat} (hn : base ≤ n)
    (hlimit : m.reach n + b.window.toNat < UInt32.size) :
    Assembling m s n arrived (b.write (.rebase (s.advance n))).handoff.items
      (b.write (.rebase (s.advance n))) := by
  have hbegin := h.begin_rebase hsending hvoid hn hlimit
  rw [← hitems, ← (b.sameFront_begin (w := .rebase (s.advance n)) rfl).handoff] at hbegin
  rw [b.write_eq_finish _ hsending]
  exact hbegin.finish

end Assembling

end StreamTap
