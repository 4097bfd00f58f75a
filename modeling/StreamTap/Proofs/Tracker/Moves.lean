import StreamTap.Proofs.Stream.Feeding
import StreamTap.Tracker.Basic

/-!
# The moves of a tracker

An errand concerns one pair, and its moves leave everything else alone (`Besides`).  Every
move lowers the weight of the tracker (`weight_step_lt`), so `settle` makes all the moves
that can be made (`step_settle`): afterwards the packet at hand is done or has to wait.

An errand that is done and had writes to make has made them, one whole write after another
(`settle_deliver`).
-/

namespace StreamTap

def Errand.place : Errand → Nat
  | .announce place => place
  | .deliver place _ _ => place

namespace Pair

@[simp] theorem buffer_withBuffer (p : Pair) (b : Buffer) (d : Direction) :
    (p.withBuffer b d).buffer d = b := by
  cases d <;> rfl

theorem buffer_withBuffer_of_ne (p : Pair) (b : Buffer) {d d' : Direction} (h : d ≠ d') :
    (p.withBuffer b d).buffer d' = p.buffer d' := by
  cases d <;> cases d' <;> first | rfl | exact absurd rfl h

@[simp] theorem withBuffer_withBuffer (p : Pair) (b c : Buffer) (d : Direction) :
    (p.withBuffer b d).withBuffer c d = p.withBuffer c d := by
  cases d <;> rfl

@[simp] theorem withBuffer_buffer (p : Pair) (d : Direction) :
    p.withBuffer (p.buffer d) d = p := by
  cases d <;> rfl

theorem weight_withBuffer (p : Pair) (b : Buffer) (d : Direction) :
    (p.withBuffer b d).weight + (p.buffer d).weight = p.weight + b.weight := by
  cases d <;> simp only [weight, withBuffer, buffer] <;> omega

end Pair

namespace Tracker

variable {t t' : Tracker}

/-! ## What a move does -/

theorem step_of_errand_none (h : t.errand = none) : t.step = none := by
  simp [step, h]

/-- Without announcements there is nothing to do; otherwise the pair is announced, or closed
because nobody hears of it. -/
theorem step_announce {place : Nat} (herrand : t.errand = some (.announce place))
    (h : t.step = some t') :
    t' = { t with errand := none } ∨
      (∃ channel, t' = { t with announcements := some channel, errand := none }) ∨
      t' = { t.modifyPair place Pair.close with errand := none } := by
  simp only [step, herrand] at h
  cases hnews : t.announcements with
  | none =>
    rw [hnews] at h
    exact Or.inl (hnews ▸ (Option.some.inj h).symm)
  | some channel =>
    simp only [hnews] at h
    cases hsend : channel.send place with
    | accepted channel' =>
      rw [hsend] at h
      exact Or.inr (Or.inl ⟨channel', (Option.some.inj h).symm⟩)
    | refused =>
      rw [hsend] at h
      exact Or.inr (Or.inr (Option.some.inj h).symm)
    | full =>
      rw [hsend] at h
      cases h

/-- The chunk on offer is accepted; or there is none and the next write begins; or there is
no next write. -/
theorem step_deliver {place : Nat} {d : Direction} {ws : List Write}
    (herrand : t.errand = some (.deliver place d ws)) (h : t.step = some t') :
    ∃ pair, t.pairs[place]? = some pair ∧
      (((pair.buffer d).canOffer = true ∧ t' = t.putBuffer place d (pair.buffer d).offer) ∨
        (∃ w rest, ws = w :: rest ∧ (pair.buffer d).sending = none ∧
          t' = { t.putBuffer place d ((pair.buffer d).begin w) with
            errand := some (.deliver place d rest) }) ∨
        (ws = [] ∧ (pair.buffer d).sending = none ∧
          t' = { t with
            counts := { t.counts with routed := t.counts.routed + 1 }
            errand := none })) := by
  simp only [step, herrand] at h
  cases hpair : t.pairs[place]? with
  | none =>
    rw [hpair] at h
    cases h
  | some pair =>
    simp only [hpair, Option.bind_eq_bind, Option.bind_some] at h
    refine ⟨pair, rfl, ?_⟩
    cases hsending : (pair.buffer d).sending with
    | some chunk =>
      rw [hsending, Option.isSome_some, if_pos rfl] at h
      split at h
      · next hoffer => exact Or.inl ⟨hoffer, (Option.some.inj h).symm⟩
      · cases h
    | none =>
      rw [hsending, Option.isSome_none, if_neg Bool.false_ne_true] at h
      cases ws with
      | nil => exact Or.inr (Or.inr ⟨rfl, rfl, (Option.some.inj h).symm⟩)
      | cons w rest => exact Or.inr (Or.inl ⟨w, rest, rfl, rfl, (Option.some.inj h).symm⟩)

/-! ## What a move leaves alone -/

/-- Two trackers that differ in the pair at one place at most, and in their errand, counts and
announcements. -/
structure Besides (place : Nat) (t t' : Tracker) : Prop where
  connections : t'.connections = t.connections
  streams : t'.streams = t.streams
  stream : t'.stream = t.stream
  captureResponse : t'.captureResponse = t.captureResponse
  length : t'.pairs.length = t.pairs.length
  others : ∀ n, n ≠ place → t'.pairs[n]? = t.pairs[n]?

namespace Besides

variable {place : Nat}

theorem refl (place : Nat) (t : Tracker) : Besides place t t :=
  ⟨rfl, rfl, rfl, rfl, rfl, fun _ _ => rfl⟩

theorem trans {t'' : Tracker} (h : Besides place t t') (h' : Besides place t' t'') :
    Besides place t t'' where
  connections := h'.connections.trans h.connections
  streams := h'.streams.trans h.streams
  stream := h'.stream.trans h.stream
  captureResponse := h'.captureResponse.trans h.captureResponse
  length := h'.length.trans h.length
  others := fun n hn => (h'.others n hn).trans (h.others n hn)

theorem modifyPair (place : Nat) (t : Tracker) (f : Pair → Pair) :
    Besides place t (t.modifyPair place f) where
  connections := rfl
  streams := rfl
  stream := rfl
  captureResponse := rfl
  length := List.length_modify ..
  others := by
    intro n hn
    exact List.getElem?_modify_ne f t.pairs (Ne.symm hn)

end Besides

/-- A move of an errand concerns the pair of the errand only. -/
theorem besides_step {e : Errand} (herrand : t.errand = some e) (h : t.step = some t') :
    Besides e.place t t' ∧ ∀ e', t'.errand = some e' → e'.place = e.place := by
  cases e with
  | announce place =>
    have hclose := Besides.modifyPair place t Pair.close
    rcases step_announce herrand h with rfl | ⟨channel, rfl⟩ | rfl
    · exact ⟨⟨rfl, rfl, rfl, rfl, rfl, fun _ _ => rfl⟩, fun _ he => by cases he⟩
    · exact ⟨⟨rfl, rfl, rfl, rfl, rfl, fun _ _ => rfl⟩, fun _ he => by cases he⟩
    · exact ⟨⟨rfl, rfl, rfl, rfl, hclose.length, hclose.others⟩, fun _ he => by cases he⟩
  | deliver place d ws =>
    obtain ⟨pair, -, ⟨-, rfl⟩ | ⟨w, rest, rfl, -, rfl⟩ | ⟨-, -, rfl⟩⟩ := step_deliver herrand h
    · refine ⟨Besides.modifyPair place t _, fun e' he => ?_⟩
      cases herrand.symm.trans he
      rfl
    · have hput := Besides.modifyPair place t fun p =>
        p.withBuffer ((pair.buffer d).begin w) d
      refine ⟨⟨rfl, rfl, rfl, rfl, hput.length, hput.others⟩, fun e' he => ?_⟩
      cases he
      rfl
    · exact ⟨⟨rfl, rfl, rfl, rfl, rfl, fun _ _ => rfl⟩, fun _ he => by cases he⟩

theorem moves_of_step_none (h : t.step = none) (n : Nat) : t.moves n = t := by
  cases n with
  | zero => rfl
  | succ n => simp [moves, h]

theorem moves_of_step_some (h : t.step = some t') (n : Nat) : t.moves (n + 1) = t'.moves n := by
  simp [moves, h]

theorem besides_moves {e : Errand} (herrand : t.errand = some e) (n : Nat) :
    Besides e.place t (t.moves n) := by
  induction n generalizing t e with
  | zero => exact .refl ..
  | succ n ih =>
    cases hstep : t.step with
    | none =>
      rw [moves_of_step_none hstep]
      exact .refl ..
    | some t' =>
      rw [moves_of_step_some hstep]
      obtain ⟨hbesides, hplace⟩ := besides_step herrand hstep
      cases herrand' : t'.errand with
      | none =>
        rw [moves_of_step_none (step_of_errand_none herrand')]
        exact hbesides
      | some e' =>
        have hrest := ih herrand'
        rw [hplace e' herrand'] at hrest
        exact hbesides.trans hrest

theorem settle_of_errand_none (h : t.errand = none) : t.settle = t :=
  moves_of_step_none (step_of_errand_none h) _

theorem registers_settle (t : Tracker) :
    t.settle.connections = t.connections ∧ t.settle.streams = t.streams := by
  cases herrand : t.errand with
  | none =>
    rw [settle_of_errand_none herrand]
    exact ⟨rfl, rfl⟩
  | some e =>
    have hbesides := besides_moves herrand t.weight
    exact ⟨hbesides.connections, hbesides.streams⟩

/-- A pair that is announced stays as it is, or is closed because nobody hears of it. -/
theorem pairs_settle_announce {place : Nat} (herrand : t.errand = some (.announce place)) :
    t.settle.pairs = t.pairs ∨ t.settle.pairs = t.pairs.modify place Pair.close := by
  unfold settle
  cases t.weight with
  | zero => exact Or.inl rfl
  | succ n =>
    cases hstep : t.step with
    | none =>
      rw [moves_of_step_none hstep]
      exact Or.inl rfl
    | some t' =>
      rw [moves_of_step_some hstep]
      rcases step_announce herrand hstep with rfl | ⟨channel, rfl⟩ | rfl <;>
        rw [moves_of_step_none (step_of_errand_none rfl)]
      · exact Or.inl rfl
      · exact Or.inl rfl
      · exact Or.inr rfl

/-! ## All moves are made -/

theorem total_modify (measure : Pair → Nat) {pairs : List Pair} {place : Nat} {pair : Pair}
    (h : pairs[place]? = some pair) (f : Pair → Pair) :
    total measure (pairs.modify place f) + measure pair
      = total measure pairs + measure (f pair) := by
  induction pairs generalizing place with
  | nil => cases h
  | cons p ps ih =>
    cases place with
    | zero =>
      cases h
      simp only [List.modify_zero_cons, total_cons]
      omega
    | succ place =>
      have hrest := ih h
      simp only [List.modify_succ_cons, total_cons]
      omega

theorem weight_putBuffer {place : Nat} (d : Direction) {pair : Pair}
    (h : t.pairs[place]? = some pair) (b : Buffer) :
    total Pair.weight (t.putBuffer place d b).pairs + (pair.buffer d).weight
      = total Pair.weight t.pairs + b.weight := by
  have hmodify := total_modify Pair.weight h fun p => p.withBuffer b d
  have hpair := pair.weight_withBuffer b d
  simp only [putBuffer, modifyPair]
  omega

theorem total_modify_close (pairs : List Pair) (place : Nat) :
    total Pair.weight (pairs.modify place Pair.close) = total Pair.weight pairs := by
  cases h : pairs[place]? with
  | none => rw [List.modify_eq_self (List.getElem?_eq_none_iff.1 h)]
  | some pair =>
    have hmodify := total_modify Pair.weight h Pair.close
    have hclose : pair.close.weight = pair.weight := rfl
    omega

theorem weight_step_lt (h : t.step = some t') : t'.weight < t.weight := by
  cases herrand : t.errand with
  | none =>
    rw [step_of_errand_none herrand] at h
    cases h
  | some e =>
    cases e with
    | announce place =>
      rcases step_announce herrand h with rfl | ⟨channel, rfl⟩ | rfl
      · simp [weight, herrand, Errand.weight]
      · simp [weight, herrand, Errand.weight]
      · simp [weight, herrand, Errand.weight, modifyPair, total_modify_close]
    | deliver place d ws =>
      obtain ⟨pair, hpair, ⟨hoffer, rfl⟩ | ⟨w, rest, rfl, hsending, rfl⟩ | ⟨rfl, -, rfl⟩⟩ :=
        step_deliver herrand h
      · have hput := weight_putBuffer d hpair (pair.buffer d).offer
        have hlt := Buffer.weight_offer_lt hoffer
        have hsame : (t.putBuffer place d (pair.buffer d).offer).errand = t.errand := rfl
        simp only [weight, hsame]
        omega
      · have hput := weight_putBuffer d hpair ((pair.buffer d).begin w)
        have hle := (pair.buffer d).weight_begin_le w hsending
        simp only [weight, herrand, Option.map_some, Option.getD_some, Errand.weight,
          List.length_cons]
        omega
      · simp [weight, herrand, Errand.weight]

theorem step_moves {n : Nat} (h : t.weight ≤ n) : (t.moves n).step = none := by
  induction n generalizing t with
  | zero =>
    cases hstep : t.step with
    | none => rw [moves_of_step_none hstep, hstep]
    | some t' =>
      have hlt := weight_step_lt hstep
      omega
  | succ n ih =>
    cases hstep : t.step with
    | none => rw [moves_of_step_none hstep, hstep]
    | some t' =>
      have hlt := weight_step_lt hstep
      rw [moves_of_step_some hstep]
      exact ih (by omega)

/-- A tracker that has settled cannot move: its errand is done or has to wait. -/
theorem step_settle (t : Tracker) : t.settle.step = none := step_moves (Nat.le_refl _)

/-! ## An errand that is done -/

theorem pairs_putBuffer {place : Nat} {pair : Pair} (h : t.pairs[place]? = some pair)
    (d : Direction) (b : Buffer) :
    (t.putBuffer place d b).pairs[place]? = some (pair.withBuffer b d) := by
  simp [putBuffer, modifyPair, h]

/-- Moves that bring an errand with writes to its end make the whole writes, and none of them
has waited. -/
theorem moves_deliver {place : Nat} {d : Direction} {ws : List Write} {pair : Pair} (n : Nat)
    (herrand : t.errand = some (.deliver place d ws)) (hpair : t.pairs[place]? = some pair)
    (hidle : (t.moves n).isIdle = true) :
    (pair.buffer d).finish.Unhindered ws ∧
      (t.moves n).pairs[place]? =
        some (pair.withBuffer (ws.foldl Buffer.write (pair.buffer d).finish) d) := by
  induction n generalizing t ws pair with
  | zero => simp [moves, isIdle, herrand] at hidle
  | succ n ih =>
    cases hstep : t.step with
    | none =>
      rw [moves_of_step_none hstep, isIdle, herrand] at hidle
      cases hidle
    | some t' =>
      rw [moves_of_step_some hstep] at hidle ⊢
      obtain ⟨pair', hpair', hways⟩ := step_deliver herrand hstep
      rw [hpair] at hpair'
      cases hpair'
      rcases hways with ⟨hoffer, rfl⟩ | ⟨w, rest, rfl, hsending, rfl⟩ | ⟨rfl, hsending, rfl⟩
      · -- The chunk on offer is accepted: as much is left to finish as before.
        have hput := pairs_putBuffer hpair d (pair.buffer d).offer
        have hrest := ih (t := t.putBuffer place d (pair.buffer d).offer) herrand hput hidle
        rw [Pair.buffer_withBuffer, Pair.withBuffer_withBuffer,
          ← Buffer.finish_of_canOffer hoffer] at hrest
        exact hrest
      · have hput := pairs_putBuffer hpair d ((pair.buffer d).begin w)
        have hrest := ih (t := { t.putBuffer place d ((pair.buffer d).begin w) with
          errand := some (.deliver place d rest) }) rfl hput hidle
        rw [Pair.buffer_withBuffer, Pair.withBuffer_withBuffer,
          ← Buffer.write_eq_finish _ w hsending] at hrest
        rw [Buffer.finish_of_sending_eq_none hsending]
        exact ⟨⟨hsending, hrest.1⟩, hrest.2⟩
      · rw [moves_of_step_none (step_of_errand_none rfl), Buffer.finish_of_sending_eq_none hsending,
          List.foldl_nil, Pair.withBuffer_buffer]
        exact ⟨hsending, hpair⟩

theorem settle_deliver {place : Nat} {d : Direction} {ws : List Write} {pair : Pair}
    (herrand : t.errand = some (.deliver place d ws)) (hpair : t.pairs[place]? = some pair)
    (hsending : (pair.buffer d).sending = none) (hidle : t.settle.isIdle = true) :
    (pair.buffer d).Unhindered ws ∧
      t.settle.pairs[place]? =
        some (pair.withBuffer (ws.foldl Buffer.write (pair.buffer d)) d) := by
  have hmoves := moves_deliver t.weight herrand hpair hidle
  rw [Buffer.finish_of_sending_eq_none hsending] at hmoves
  exact hmoves

end Tracker

end StreamTap
