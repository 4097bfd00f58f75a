import StreamTap.Proofs.Stream.History

/-!
# The accounts of a buffer

A buffer keeps running counts instead of counting.  `Accounts` says that they are
right at every moment of every history: what is parked, queued and delivered adds up,
the chunks that were handed over are those that were read and those still in the
hand-off, and each segment that was asked to be taken in has had exactly one fate.

`accounts_run` is the main result.  It goes through the steps of which moves are made
(`pulled`, `prune`, `park`, `accepted` and so on), one lemma for each.
-/

namespace StreamTap

def Write.isAdd : Write → Bool
  | .add _ _ => true
  | .rebase _ => false

/-- The segments that were refused or given up, that are parked or on offer, and that
were handed over or lost. -/
def fates (b : Buffer) (r : Record) : Nat :=
  b.outOfWindow + b.duplicate + b.stale + b.parked.size + b.sending.toList.length
    + r.handed.length + r.lost.length

/-- The running counts of a buffer are right. -/
structure Accounts (b : Buffer) (r : Record) : Prop where
  buffered : b.buffered = b.parked.bytes
  published : b.published = b.expected
  available : b.available =
    total List.length b.handoff.items + total List.length b.sending.toList
  delivered : b.delivered = total List.length r.handed
  queue : r.handed = r.taken ++ b.handoff.items
  fates : fates b r = (r.begun.filter Write.isAdd).length

namespace Accounts

variable {b : Buffer} {r : Record}

theorem startingAt (seq : Seq) (window : UInt32) (capacity : Nat) :
    Accounts (.startingAt seq window capacity) {} :=
  ⟨rfl, rfl, rfl, rfl, rfl, rfl⟩

/-! ## Steps of which moves are made -/

theorem pulled {chunk : Bytes} (h : Accounts b r) (hsending : b.sending = none)
    (hchunk : b.parked.find? b.expected = some chunk) : Accounts (b.pulled chunk) r where
  buffered := by
    have hbytes := Parked.bytes_erase hchunk
    have hbuffered := h.buffered
    simp only [Buffer.pulled]
    omega
  published := rfl
  available := by
    have havailable := h.available
    simp only [hsending, Option.toList_none, total_nil] at havailable
    simp [Buffer.pulled, havailable]
  delivered := h.delivered
  queue := h.queue
  fates := by
    have hsize := Parked.size_erase hchunk
    have hfates := h.fates
    simp only [StreamTap.fates, hsending, Option.toList_none, List.length_nil] at hfates
    simp only [StreamTap.fates, Buffer.pulled, Option.toList_some, List.length_singleton]
    omega

theorem prune (h : Accounts b r) : Accounts b.prune r where
  buffered := by
    have hbytes := b.parked.bytes_filter (Seq.inWindow b.expected b.window)
    have hbuffered := h.buffered
    simp only [Buffer.prune]
    omega
  published := h.published
  available := h.available
  delivered := h.delivered
  queue := h.queue
  fates := by
    have hsize := b.parked.size_filter (Seq.inWindow b.expected b.window)
    have hfates := h.fates
    simp only [StreamTap.fates] at hfates
    simp only [StreamTap.fates, Buffer.prune]
    omega

theorem pull (h : Accounts b r) (hsending : b.sending = none) (moved : Bool) :
    Accounts (b.pull moved) r :=
  b.pull_elim (P := fun a => Accounts a r) moved (fun _ hchunk => h.pulled hsending hchunk)
    (fun _ _ => h.prune) (fun _ _ => h)

theorem began (h : Accounts b r) {a : Buffer} {w : Write}
    (hbuffered : a.buffered = a.parked.bytes) (hpublished : a.published = a.expected)
    (hfront : Buffer.SameFront a b) (havailable : a.available = b.available)
    (hsending : a.sending = b.sending)
    (hfates : StreamTap.fates a r = StreamTap.fates b r + (if w.isAdd then 1 else 0)) :
    Accounts a { r with begun := r.begun ++ [w] } where
  buffered := hbuffered
  published := hpublished
  available := by rw [havailable, hfront.handoff, hsending, h.available]
  delivered := hfront.delivered.trans h.delivered
  queue := by rw [hfront.handoff]; exact h.queue
  fates := by
    have hold := h.fates
    have hsame : StreamTap.fates a { r with begun := r.begun ++ [w] } = StreamTap.fates a r := rfl
    rw [hsame, hfates, hold, List.filter_append, List.length_append]
    cases hadd : w.isAdd with
    | true => simp [hadd]
    | false => simp [hadd]

theorem park (h : Accounts b r) {seq : Seq} {payload : Bytes}
    (hfree : b.parked.find? seq = none) :
    Accounts (b.park seq payload) { r with begun := r.begun ++ [.add seq payload] } := by
  have hbytes := Parked.bytes_insert payload hfree
  have hsize := Parked.size_insert payload hfree
  have hbuffered := h.buffered
  refine h.began ?_ h.published ⟨rfl, rfl, rfl⟩ rfl rfl ?_
  · simp only [Buffer.park]
    omega
  · simp only [StreamTap.fates, Buffer.park, Write.isAdd, if_true]
    omega

theorem expectAt (h : Accounts b r) (seq : Seq) :
    Accounts (b.expectAt seq) { r with begun := r.begun ++ [.rebase seq] } :=
  h.began (w := .rebase seq) h.buffered rfl ⟨rfl, rfl, rfl⟩ rfl rfl rfl

theorem begin (h : Accounts b r) (hsending : b.sending = none) {w : Write}
    (hw : w.isVoid = false) : Accounts (b.begin w) { r with begun := r.begun ++ [w] } := by
  refine b.begin_elim (P := fun a => Accounts a _) hw ?_ ?_ ?_ ?_
  · rintro seq payload rfl _ _
    refine h.began (w := .add seq payload) h.buffered h.published ⟨rfl, rfl, rfl⟩ rfl rfl ?_
    simp only [StreamTap.fates, Write.isAdd, if_true]
    omega
  · rintro seq payload other rfl _ _ _
    refine h.began (w := .add seq payload) h.buffered h.published ⟨rfl, rfl, rfl⟩ rfl rfl ?_
    simp only [StreamTap.fates, Write.isAdd, if_true]
    omega
  · rintro seq payload rfl _ _ hfree
    exact (h.park hfree).pull hsending false
  · rintro seq rfl
    exact (h.expectAt seq).prune.pull hsending false

theorem accepted {chunk : Bytes} (h : Accounts b r) (hsending : b.sending = some chunk) :
    Accounts (b.accepted chunk) { r with handed := r.handed ++ [chunk] } where
  buffered := h.buffered
  published := h.published
  available := by
    have havailable := h.available
    simp only [hsending, Option.toList_some, total_cons, total_nil] at havailable
    simp only [Buffer.accepted, total_append, total_cons, total_nil, Option.toList_none]
    omega
  delivered := by simp [Buffer.accepted, h.delivered]
  queue := by simp [Buffer.accepted, h.queue, Record.taken]
  fates := by
    have hfates := h.fates
    simp only [StreamTap.fates, hsending, Option.toList_some, List.length_singleton] at hfates
    simp only [StreamTap.fates, Buffer.accepted, Option.toList_none, List.length_nil,
      List.length_append, List.length_singleton]
    omega

theorem lost {chunk : Bytes} (h : Accounts b r) (hsending : b.sending = some chunk) :
    Accounts (b.lost chunk) { r with lost := r.lost ++ [chunk] } where
  buffered := h.buffered
  published := h.published
  available := by
    have havailable := h.available
    simp only [hsending, Option.toList_some, total_cons, total_nil] at havailable
    simp only [Buffer.lost, Option.toList_none, total_nil]
    omega
  delivered := h.delivered
  queue := h.queue
  fates := by
    have hfates := h.fates
    simp only [StreamTap.fates, hsending, Option.toList_some, List.length_singleton] at hfates
    simp only [StreamTap.fates, Buffer.lost, Option.toList_none, List.length_nil,
      List.length_append, List.length_singleton]
    omega

theorem taken {number : Nat} {chunk : Bytes} {rest : List Bytes} (h : Accounts b r)
    (hitems : b.handoff.items = chunk :: rest) :
    Accounts (b.taken chunk rest)
      { r with receipts := r.receipts ++ [(number, chunk)] } where
  buffered := h.buffered
  published := h.published
  available := by
    have havailable := h.available
    simp only [hitems, total_cons] at havailable
    simp only [Buffer.taken]
    omega
  delivered := h.delivered
  queue := by
    have hqueue := h.queue
    rw [hitems] at hqueue
    simpa [Buffer.taken, Record.taken] using hqueue
  fates := h.fates

/-! ## Whole histories -/

theorem change {closing : Prop} {b' : Buffer} {r' : Record} (h : Accounts b r)
    (hchange : Change closing b r b' r') : Accounts b' r' := by
  cases hchange with
  | begun w hsending hw => exact h.begin hsending hw
  | handed chunk hsending _ _ => exact (h.accepted hsending).pull rfl true
  | lost chunk hsending _ => exact h.lost hsending
  | taken chunk rest hitems => exact h.taken hitems
  | closed _ => exact ⟨h.buffered, h.published, h.available, h.delivered, h.queue, h.fates⟩

end Accounts

/-- The running counts are right at every moment of every history. -/
theorem accounts_run {b : Buffer} (hsending : b.sending = none) (h : Accounts b {})
    (schedule : List Occurrence) :
    Accounts ((History.ofBuffer b).run schedule).buffer
      ((History.ofBuffer b).run schedule).record :=
  History.run_keeps hsending h fun _ _ _ hdone hchange => hdone.change hchange

end StreamTap
