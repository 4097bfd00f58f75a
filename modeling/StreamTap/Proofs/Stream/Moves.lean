import StreamTap.Proofs.Stream.Parked
import StreamTap.Stream.Buffer

/-!
# The moves of a buffer

What `pull`, `begin` and `offer` do, with a name for each way they can go and an
elimination rule that lists the ways.  Later proofs cite these and do not open the
moves.
-/

namespace StreamTap

namespace Buffer

variable (b : Buffer)

/-! ## What a pull does -/

/-- The buffer with the chunk that continues the stream on offer. -/
def pulled (chunk : Bytes) : Buffer :=
  { b with
    expected := b.expected.advance chunk.length
    parked := b.parked.erase b.expected
    published := b.expected.advance chunk.length
    sending := some chunk
    buffered := b.buffered - chunk.length
    available := b.available + chunk.length }

theorem pull_of_some {chunk : Bytes} (h : b.parked.find? b.expected = some chunk)
    (moved : Bool) : b.pull moved = b.pulled chunk := by
  simp [pull, h, pulled]

theorem pull_true_of_none (h : b.parked.find? b.expected = none) : b.pull true = b.prune := by
  simp [pull, h]

theorem pull_false_of_none (h : b.parked.find? b.expected = none) : b.pull false = b := by
  simp [pull, h]

theorem pull_elim {P : Buffer → Prop} (moved : Bool)
    (some : ∀ chunk, b.parked.find? b.expected = some chunk → P (b.pulled chunk))
    (stale : moved = true → b.parked.find? b.expected = none → P b.prune)
    (rest : moved = false → b.parked.find? b.expected = none → P b) : P (b.pull moved) := by
  cases h : b.parked.find? b.expected with
  | some chunk =>
    rw [b.pull_of_some h]
    exact some chunk h
  | none =>
    cases moved with
    | true =>
      rw [b.pull_true_of_none h]
      exact stale rfl h
    | false =>
      rw [b.pull_false_of_none h]
      exact rest rfl h

/-! ## What the beginning of a write does -/

/-- The buffer with one more segment, before anything is pulled. -/
def park (seq : Seq) (payload : Bytes) : Buffer :=
  { b with
    parked := b.parked.insert seq payload
    buffered := b.buffered + payload.length }

/-- The buffer that goes on at another number, before anything is given up. -/
def expectAt (seq : Seq) : Buffer := { b with expected := seq, published := seq }

theorem begin_of_isVoid {w : Write} (h : w.isVoid = true) : b.begin w = b := by
  cases w with
  | add seq payload => simp_all [begin, Write.isVoid]
  | rebase seq => cases h

theorem begin_rebase (seq : Seq) :
    b.begin (.rebase seq) = (b.expectAt seq).prune.pull false := rfl

section Add

variable {seq : Seq} {payload : Bytes}

theorem begin_add_outside (hpayload : payload ≠ [])
    (h : Seq.inWindow b.expected b.window seq = false) :
    b.begin (.add seq payload) = { b with outOfWindow := b.outOfWindow + 1 } := by
  simp [begin, hpayload, h]

theorem begin_add_taken (hpayload : payload ≠ [])
    (hwindow : Seq.inWindow b.expected b.window seq = true) {other : Bytes}
    (h : b.parked.find? seq = some other) :
    b.begin (.add seq payload) = { b with duplicate := b.duplicate + 1 } := by
  simp [begin, hpayload, hwindow, h]

theorem begin_add_free (hpayload : payload ≠ [])
    (hwindow : Seq.inWindow b.expected b.window seq = true)
    (h : b.parked.find? seq = none) :
    b.begin (.add seq payload) = (b.park seq payload).pull false := by
  simp [begin, park, hpayload, hwindow, h]

end Add

theorem begin_elim {P : Buffer → Prop} {w : Write} (hw : w.isVoid = false)
    (outside : ∀ seq payload, w = .add seq payload → payload ≠ [] →
      Seq.inWindow b.expected b.window seq = false →
      P { b with outOfWindow := b.outOfWindow + 1 })
    (taken : ∀ seq payload other, w = .add seq payload → payload ≠ [] →
      Seq.inWindow b.expected b.window seq = true → b.parked.find? seq = some other →
      P { b with duplicate := b.duplicate + 1 })
    (free : ∀ seq payload, w = .add seq payload → payload ≠ [] →
      Seq.inWindow b.expected b.window seq = true → b.parked.find? seq = none →
      P ((b.park seq payload).pull false))
    (rebase : ∀ seq, w = .rebase seq → P ((b.expectAt seq).prune.pull false)) :
    P (b.begin w) := by
  cases w with
  | rebase seq => exact rebase seq rfl
  | add seq payload =>
    have hpayload : payload ≠ [] := by
      rintro rfl
      cases hw
    cases hwindow : Seq.inWindow b.expected b.window seq with
    | false =>
      rw [b.begin_add_outside hpayload hwindow]
      exact outside seq payload rfl hpayload hwindow
    | true =>
      cases h : b.parked.find? seq with
      | some other =>
        rw [b.begin_add_taken hpayload hwindow h]
        exact taken seq payload other rfl hpayload hwindow h
      | none =>
        rw [b.begin_add_free hpayload hwindow h]
        exact free seq payload rfl hpayload hwindow h

/-! ## What an offer does -/

section Offer

variable {chunk : Bytes}

/-- The buffer whose hand-off has accepted the chunk on offer, before the next one is
pulled. -/
def accepted (chunk : Bytes) : Buffer :=
  { b with
    handoff := { b.handoff with items := b.handoff.items ++ [chunk] }
    sending := none
    delivered := b.delivered + chunk.length }

def lost (chunk : Bytes) : Buffer :=
  { b with sending := none, available := b.available - chunk.length }

theorem offer_of_open (hsending : b.sending = some chunk) (hopen : b.isClosed = false)
    (hroom : b.handoff.items.length < b.handoff.capacity) :
    b.offer = (b.accepted chunk).pull true := by
  have hopen : b.handoff.isClosed = false := hopen
  simp [offer, hsending, Channel.send, hopen, hroom, accepted]

theorem offer_of_closed (hsending : b.sending = some chunk) (hclosed : b.isClosed = true) :
    b.offer = b.lost chunk := by
  have hclosed : b.handoff.isClosed = true := hclosed
  simp [offer, hsending, Channel.send, hclosed, lost]

theorem canOffer_iff :
    b.canOffer = true ↔ (∃ chunk, b.sending = some chunk) ∧
      (b.isClosed = true ∨ b.handoff.items.length < b.handoff.capacity) := by
  simp [canOffer, Option.isSome_iff_exists]

theorem canOffer_of_sending_eq_none (h : b.sending = none) : b.canOffer = false := by
  simp [canOffer, h]

theorem offer_elim {P : Buffer → Prop} (h : b.canOffer = true)
    (accept : ∀ chunk, b.sending = some chunk → b.isClosed = false →
      b.handoff.items.length < b.handoff.capacity → P ((b.accepted chunk).pull true))
    (lose : ∀ chunk, b.sending = some chunk → b.isClosed = true → P (b.lost chunk)) :
    P b.offer := by
  obtain ⟨⟨chunk, hsending⟩, hgo⟩ := b.canOffer_iff.1 h
  cases hclosed : b.isClosed with
  | true =>
      rw [b.offer_of_closed hsending hclosed]
      exact lose chunk hsending hclosed
  | false =>
    have hroom := hgo.resolve_left (by simp [hclosed])
    rw [b.offer_of_open hsending hclosed hroom]
    exact accept chunk hsending hclosed hroom

end Offer

/-! ## What a reader does -/

def taken (chunk : Bytes) (rest : List Bytes) : Buffer :=
  { b with
    handoff := { b.handoff with items := rest }
    available := b.available - chunk.length }

theorem take_cases :
    (∃ chunk rest, b.handoff.items = chunk :: rest ∧ b.take = .chunk chunk (b.taken chunk rest)) ∨
      b.handoff.items = [] ∧ b.isClosed = false ∧ b.take = .nothing ∨
      b.handoff.items = [] ∧ b.isClosed = true ∧ b.take = .closed := by
  unfold take Channel.receive isClosed
  cases hitems : b.handoff.items with
  | cons chunk rest => exact Or.inl ⟨chunk, rest, rfl, rfl⟩
  | nil =>
    cases hclosed : b.handoff.isClosed with
    | false => exact Or.inr (Or.inl ⟨rfl, rfl, by simp⟩)
    | true => exact Or.inr (Or.inr ⟨rfl, rfl, by simp⟩)

/-! ## What the moves leave alone -/

/-- Two buffers with the same window and the same hand-off that have delivered the
same. -/
structure SameFront (a b : Buffer) : Prop where
  window : a.window = b.window
  handoff : a.handoff = b.handoff
  delivered : a.delivered = b.delivered

theorem sameFront_pull (moved : Bool) : SameFront (b.pull moved) b :=
  b.pull_elim (P := fun a => SameFront a b) moved (fun _ _ => ⟨rfl, rfl, rfl⟩)
    (fun _ _ => ⟨rfl, rfl, rfl⟩) (fun _ _ => ⟨rfl, rfl, rfl⟩)

theorem sameFront_begin {w : Write} (hw : w.isVoid = false) : SameFront (b.begin w) b := by
  refine b.begin_elim (P := fun a => SameFront a b) hw ?_ ?_ ?_ ?_
  · exact fun _ _ _ _ _ => ⟨rfl, rfl, rfl⟩
  · exact fun _ _ _ _ _ _ _ => ⟨rfl, rfl, rfl⟩
  · intro seq payload _ _ _ _
    have h := (b.park seq payload).sameFront_pull false
    exact ⟨h.window, h.handoff, h.delivered⟩
  · intro seq _
    have h := (b.expectAt seq).prune.sameFront_pull false
    exact ⟨h.window, h.handoff, h.delivered⟩

theorem SameFront.isClosed {a b : Buffer} (h : SameFront a b) : a.isClosed = b.isClosed :=
  congrArg Channel.isClosed h.handoff

theorem isClosed_pull (moved : Bool) : (b.pull moved).isClosed = b.isClosed :=
  (b.sameFront_pull moved).isClosed

theorem isClosed_begin (w : Write) : (b.begin w).isClosed = b.isClosed := by
  cases hvoid : w.isVoid with
  | true => rw [b.begin_of_isVoid hvoid]
  | false => exact (b.sameFront_begin hvoid).isClosed

theorem isClosed_offer (hoffer : b.canOffer = true) : b.offer.isClosed = b.isClosed := by
  refine b.offer_elim (P := fun a => a.isClosed = b.isClosed) hoffer ?_ fun _ _ _ => rfl
  intro chunk _ _ _
  exact (b.accepted chunk).isClosed_pull true

theorem isSome_sending_pull (h : b.sending.isSome = true) (moved : Bool) :
    (b.pull moved).sending.isSome = true :=
  b.pull_elim (P := fun a => a.sending.isSome = true) moved (fun _ _ => rfl) (fun _ _ => h)
    (fun _ _ => h)

theorem isSome_sending_begin (h : b.sending.isSome = true) {w : Write} (hw : w.isVoid = false) :
    (b.begin w).sending.isSome = true := by
  refine b.begin_elim (P := fun a => a.sending.isSome = true) hw ?_ ?_ ?_ ?_
  · exact fun _ _ _ _ _ => h
  · exact fun _ _ _ _ _ _ _ => h
  · exact fun seq payload _ _ _ _ => (b.park seq payload).isSome_sending_pull h false
  · exact fun seq _ => (b.expectAt seq).prune.isSome_sending_pull h false

@[simp] theorem handoff_pull (moved : Bool) : (b.pull moved).handoff = b.handoff :=
  (b.sameFront_pull moved).handoff

@[simp] theorem window_pull (moved : Bool) : (b.pull moved).window = b.window :=
  (b.sameFront_pull moved).window

end Buffer

end StreamTap
