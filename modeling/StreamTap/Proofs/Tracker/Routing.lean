import StreamTap.Proofs.Tracker.Course

/-!
# Packets of an established connection

While a connection is established, a packet does one of three things to it.  A packet of
another connection does nothing, and neither does one without payload whose only flag is
ACK.  A packet with payload is written into the buffer for its direction.

So a list of packets, each of them handled without waiting, comes to the two buffers of the
connection as two lists of writes (`Fed`), one for each direction, whatever else the tracker
has done in between (`routed`).
-/

namespace StreamTap

/-- The flags of which only ACK is set. -/
def Flags.ackAlone : Flags where
  fin := false
  syn := false
  rst := false
  psh := false
  ack := true
  urg := false

namespace Tracker

/-- A tracker with nothing at hand, and the pair of a connection that is established in it. -/
structure Watched (flow : Flow) (place : Nat) (pair : Pair) (t : Tracker) : Prop where
  filed : Filed t
  idle : t.errand = none
  phase : t.phaseOf flow = .established
  registered : t.streams.find? flow = some place
  pair : t.pairs[place]? = some pair

theorem phaseOf_noticed (t : Tracker) (p : Packet) :
    (t.noticed p).phaseOf p.connection = t.phaseOf p.connection := by
  unfold phaseOf noticed
  simp only [Registry.find?_ensure_self]
  cases t.connections.find? p.connection with
  | none => rfl
  | some c => rfl

/-- The writes that the payload of a packet asks of the buffer for its direction. -/
def payloadWrites (capture : Bool) (b : Buffer) (p : Packet) : List Write :=
  match p.direction with
  | .inbound => inboundWrites b p.seq p.payload
  | .outbound => if capture then [.add p.seq p.payload] else []

/-- One list of packets after another comes to a buffer, and none of their writes waits. -/
inductive Fed (capture : Bool) : Buffer → List Packet → Buffer → Prop
  | nil (b : Buffer) : Fed capture b [] b
  | cons {b b' : Buffer} {p : Packet} {ps : List Packet} :
      b.Unhindered (payloadWrites capture b p) →
      Fed capture ((payloadWrites capture b p).foldl Buffer.write b) ps b' →
      Fed capture b (p :: ps) b'

namespace Fed

variable {capture : Bool} {b b' : Buffer} {ps qs : List Packet}

theorem append_iff :
    Fed capture b (ps ++ qs) b' ↔ ∃ c, Fed capture b ps c ∧ Fed capture c qs b' := by
  constructor
  · intro h
    induction ps generalizing b with
    | nil => exact ⟨b, .nil b, h⟩
    | cons p ps ih =>
      cases h with
      | cons hunhindered hrest =>
        obtain ⟨c, hps, hqs⟩ := ih hrest
        exact ⟨c, .cons hunhindered hps, hqs⟩
  · rintro ⟨c, hps, hqs⟩
    induction hps with
    | nil => exact hqs
    | cons hunhindered _ ih => exact .cons hunhindered (ih hqs)

theorem sending (h : Fed capture b ps b') (hsending : b.sending = none) : b'.sending = none := by
  induction h with
  | nil => exact hsending
  | cons hunhindered _ ih => exact ih hunhindered.sending_foldl

end Fed

namespace Watched

variable {flow : Flow} {place : Nat} {pair : Pair} {t : Tracker} {p : Packet}

theorem other (h : Watched flow place pair t) (hother : p.connection ≠ flow)
    (hidle : (t.handle p).errand = none) : Watched flow place pair (t.handle p) := by
  have helse := Elsewhere.handle h.filed h.idle h.registered hother hidle
  refine ⟨(Orderly.handle t p).filed h.filed, hidle, ?_, helse.registered.trans h.registered,
    helse.pair.trans h.pair⟩
  have hphase := h.phase
  unfold phaseOf at hphase ⊢
  rw [helse.connection]
  exact hphase

/-- What handling a packet of the connection leaves as it was. -/
theorem keeps (h : Watched flow place pair t) (hflow : p.connection = flow)
    {a : Tracker} (haccept : t.accept p = a)
    (hconnections : a.connections = (t.noticed p).connections)
    (hstreams : a.streams = t.streams) {pair' : Pair} (hidle : (t.handle p).errand = none)
    (hpair : (t.handle p).pairs[place]? = some pair') : Watched flow place pair' (t.handle p) := by
  have hsame : (t.handle p).connections = a.connections ∧ (t.handle p).streams = a.streams := by
    rw [← haccept]
    exact (t.accept p).registers_settle
  refine ⟨(Orderly.handle t p).filed h.filed, hidle, ?_, ?_, hpair⟩
  · have hphase := h.phase
    rw [← hflow, ← phaseOf_noticed, hflow] at hphase
    unfold phaseOf at hphase ⊢
    rw [hsame.1, hconnections]
    exact hphase
  · rw [hsame.2, hstreams]
    exact h.registered

theorem phase_noticed (h : Watched flow place pair t) (hflow : p.connection = flow) :
    (t.noticed p).phaseOf p.connection = .established := by
  rw [phaseOf_noticed, hflow]
  exact h.phase

theorem acknowledged (h : Watched flow place pair t) (hflow : p.connection = flow)
    (hbare : p.hasPayload = false) (hflags : p.flags = .ackAlone) :
    Watched flow place pair (t.handle p) := by
  have hphase := h.phase_noticed hflow
  obtain ⟨event, hevent, hnext⟩ : ∃ event, Event.ofPacket p = some event ∧
      Phase.established.next event = none := by
    unfold Event.ofPacket
    rw [hflags]
    cases p.direction with
    | inbound => exact ⟨.receiveAck, rfl, rfl⟩
    | outbound => exact ⟨.sendAck, rfl, rfl⟩
  have haccept : t.accept p = (t.noticed p).ignore := by
    rw [accept_eq, if_neg (by simp [hbare]), hevent]
    rcases (t.noticed p).trigger_cases event p with ⟨-, htrigger⟩ | ⟨c, phase, hc, hmoved, -⟩
    · exact htrigger
    · have hthere : c.phase = .established := by
        rwa [phaseOf, hc] at hphase
      rw [hthere, hnext] at hmoved
      cases hmoved
  have hidle : (t.accept p).errand = none := by
    rw [haccept]
    exact h.idle
  refine h.keeps hflow haccept rfl rfl ?_ ?_
  · rw [handle, settle_of_errand_none hidle]
    exact hidle
  · rw [handle, settle_of_errand_none hidle, haccept]
    exact h.pair

theorem carried (h : Watched flow place pair t) (hflow : p.connection = flow)
    (hpayload : p.hasPayload = true) (hsending : (pair.buffer p.direction).sending = none)
    (hidle : (t.handle p).errand = none) :
    (pair.buffer p.direction).Unhindered
        (payloadWrites t.captureResponse (pair.buffer p.direction) p) ∧
      Watched flow place (pair.withBuffer
        ((payloadWrites t.captureResponse (pair.buffer p.direction) p).foldl Buffer.write
          (pair.buffer p.direction)) p.direction) (t.handle p) := by
  have hroute : t.accept p = (t.noticed p).route p := by
    rw [accept_eq, if_pos hpayload, if_pos (h.phase_noticed hflow)]
  have hfound : (t.noticed p).pairOf? p.connection = some (place, pair) := by
    rw [pairOf?_eq_some_iff, hflow]
    exact ⟨h.registered, h.pair⟩
  -- Whenever an errand comes of the packet, settling makes its writes.
  have hdeliver : ∀ ws, (t.noticed p).route p =
        { t.noticed p with errand := some (.deliver place p.direction ws) } →
      (pair.buffer p.direction).Unhindered ws ∧ Watched flow place (pair.withBuffer
        (ws.foldl Buffer.write (pair.buffer p.direction)) p.direction) (t.handle p) := by
    intro ws hws
    have haccept := hroute.trans hws
    have hpair : (t.accept p).pairs[place]? = some pair := by
      rw [haccept]
      exact h.pair
    have hdone : (t.accept p).settle.isIdle = true := by
      rw [isIdle, ← handle, hidle]
      rfl
    have hsettle := settle_deliver (by rw [haccept]) hpair hsending hdone
    exact ⟨hsettle.1, h.keeps hflow haccept rfl rfl hidle hsettle.2⟩
  unfold route at hroute hdeliver
  rw [hfound] at hroute hdeliver
  unfold payloadWrites
  cases hdirection : p.direction with
  | inbound =>
    simp only [hdirection] at hdeliver
    exact hdeliver _ rfl
  | outbound =>
    simp only [hdirection] at hdeliver hroute
    cases hcapture : t.captureResponse with
    | true => exact hdeliver _ (if_pos hcapture)
    | false =>
      have haccept : t.accept p = t.noticed p := by
        rw [hroute]
        exact if_neg (by simp [noticed, hcapture])
      have hquiet : (t.accept p).errand = none := by
        rw [haccept]
        exact h.idle
      rw [hdirection] at hsending
      refine ⟨hsending, h.keeps hflow haccept rfl rfl hidle ?_⟩
      rw [handle, settle_of_errand_none hquiet, haccept]
      simp only [Bool.false_eq_true, if_false, List.foldl_nil, Pair.withBuffer_buffer]
      exact h.pair

end Watched

/-! ## Lists of packets -/

/-- The packets among those of a list that carry payload of a connection in one direction. -/
def carriedBy (flow : Flow) (d : Direction) (ps : List Packet) : List Packet :=
  ps.filter fun p => p.connection = flow ∧ p.direction = d ∧ p.hasPayload = true

theorem mem_carriedBy_iff {flow : Flow} {d : Direction} {ps : List Packet} {p : Packet} :
    p ∈ carriedBy flow d ps ↔
      p ∈ ps ∧ p.connection = flow ∧ p.direction = d ∧ p.hasPayload = true := by
  simp [carriedBy]

section Lists

variable {flow : Flow} {place : Nat} {pair : Pair} {t : Tracker} {p : Packet}

theorem carriedBy_cons (flow : Flow) (d : Direction) (p : Packet) (ps : List Packet) :
    carriedBy flow d (p :: ps) = carriedBy flow d [p] ++ carriedBy flow d ps :=
  List.filter_append [p] ps

theorem carriedBy_singleton {d : Direction} (hflow : p.connection = flow)
    (hd : p.direction = d) (hpayload : p.hasPayload = true) : carriedBy flow d [p] = [p] := by
  simp [carriedBy, hflow, hd, hpayload]

theorem carriedBy_singleton_of_not {d : Direction}
    (h : ¬(p.connection = flow ∧ p.direction = d ∧ p.hasPayload = true)) :
    carriedBy flow d [p] = [] := by
  simp only [carriedBy, List.filter_cons, decide_eq_true_eq, h, if_false, List.filter_nil]

/-- A packet comes to the buffers of an established connection as the writes of its payload,
if it is one of the connection and has payload, and not at all otherwise. -/
theorem routed_one (h : Watched flow place pair t) (hsending : ∀ d, (pair.buffer d).sending = none)
    (hbare : p.connection = flow → p.hasPayload = false → p.flags = .ackAlone)
    (hidle : (t.handle p).errand = none) :
    ∃ pair', Watched flow place pair' (t.handle p) ∧
      ∀ d, Fed t.captureResponse (pair.buffer d) (carriedBy flow d [p]) (pair'.buffer d) := by
  by_cases hflow : p.connection = flow
  · cases hpayload : p.hasPayload with
    | false =>
      refine ⟨pair, h.acknowledged hflow hpayload (hbare hflow hpayload), fun d => ?_⟩
      rw [carriedBy_singleton_of_not (by simp [hpayload])]
      exact .nil _
    | true =>
      obtain ⟨hunhindered, hwritten⟩ := h.carried hflow hpayload (hsending p.direction) hidle
      refine ⟨_, hwritten, fun d => ?_⟩
      by_cases hd : p.direction = d
      · subst hd
        rw [Pair.buffer_withBuffer, carriedBy_singleton hflow rfl hpayload]
        exact .cons hunhindered (.nil _)
      · rw [Pair.buffer_withBuffer_of_ne _ _ hd, carriedBy_singleton_of_not fun h => hd h.2.1]
        exact .nil _
  · refine ⟨pair, h.other hflow hidle, fun d => ?_⟩
    rw [carriedBy_singleton_of_not fun h => hflow h.1]
    exact .nil _

/-- The packets of a list come to the buffers of an established connection as the writes of
its payload, one direction apart from the other, and nothing else comes to them. -/
theorem routed (ps : List Packet) (h : Watched flow place pair t)
    (hsending : ∀ d, (pair.buffer d).sending = none)
    (hbare : ∀ p ∈ ps, p.connection = flow → p.hasPayload = false → p.flags = .ackAlone)
    (hidle : ∀ k, ((ps.take k).foldl handle t).isIdle = true) :
    ∃ pair', Watched flow place pair' (ps.foldl handle t) ∧
      ∀ d, Fed t.captureResponse (pair.buffer d) (carriedBy flow d ps) (pair'.buffer d) := by
  induction ps generalizing t pair with
  | nil => exact ⟨pair, h, fun d => .nil _⟩
  | cons p ps ih =>
    have hfirst : (t.handle p).errand = none := Option.isNone_iff_eq_none.1 (hidle 1)
    obtain ⟨pair', hwatched, hfed⟩ :=
      routed_one h hsending (hbare p List.mem_cons_self) hfirst
    obtain ⟨pair'', hlast, hrest⟩ := ih hwatched (fun d => (hfed d).sending (hsending d))
      (fun q hq => hbare q (List.mem_cons_of_mem p hq)) (fun k => hidle (k + 1))
    refine ⟨pair'', hlast, fun d => ?_⟩
    have hnext := hrest d
    rw [(Orderly.handle t p).captureResponse] at hnext
    rw [carriedBy_cons, Fed.append_iff]
    exact ⟨pair'.buffer d, hfed d, hnext⟩

end Lists

/-! ## The moment a connection is established -/

variable {t : Tracker} {p : Packet}

theorem phaseOf_handle (t : Tracker) (p : Packet) (flow : Flow) :
    (t.handle p).phaseOf flow = (t.accept p).phaseOf flow := by
  unfold phaseOf handle
  rw [(t.accept p).registers_settle.1]

/-- A packet that establishes its connection does so as the last one of the handshake. -/
theorem accept_establishes (hbefore : t.phaseOf p.connection ≠ .established)
    (hafter : (t.accept p).phaseOf p.connection = .established) :
    ∃ c : Connection, ((t.noticed p).transited p c).connections.find? p.connection = some c ∧
      (∃ c₀, (t.noticed p).connections.find? p.connection = some c₀ ∧ c.flow = c₀.flow) ∧
      c.phase = .established ∧
      t.accept p = ((t.noticed p).transited p c).establish c p := by
  rw [← phaseOf_noticed] at hbefore
  rw [accept_eq] at hafter ⊢
  cases hpayload : p.hasPayload with
  | true =>
    rw [hpayload, if_pos rfl, if_neg hbefore] at hafter
    exact absurd hafter hbefore
  | false =>
    rw [hpayload, if_neg Bool.false_ne_true] at hafter
    rw [if_neg Bool.false_ne_true]
    cases hevent : Event.ofPacket p with
    | none =>
      rw [hevent] at hafter
      exact absurd hafter hbefore
    | some event =>
      rw [hevent] at hafter
      rcases (t.noticed p).trigger_cases event p with
        ⟨-, htrigger⟩ | ⟨c₀, phase, hc₀, -, hways⟩
      · simp only [htrigger] at hafter
        exact absurd hafter hbefore
      · rcases hways with ⟨rfl, htrigger⟩ | ⟨-, htrigger⟩ | ⟨hestablished, -, htrigger⟩
        · exact ⟨c₀.after event p .established, Registry.find?_insert_self _ _ _, ⟨c₀, hc₀, rfl⟩,
            rfl, htrigger⟩
        · simp only [htrigger] at hafter
          simp [phaseOf, release] at hafter
        · simp only [htrigger] at hafter
          simp only [phaseOf, transited, Registry.find?_insert_self] at hafter
          exact absurd hafter hestablished

def opening (t : Tracker) (c : Connection) (p : Packet) : Pair :=
  .opened c.flow (match c.synSeq with | some seq => seq.advance 1 | none => p.seq) p.ack t.stream

theorem pairs_establish (t : Tracker) (c : Connection) (p : Packet) :
    (t.establish c p).pairs[t.pairs.length]? = some (t.opening c p) := by
  obtain ⟨n, hbesides⟩ := t.closePairOf_besides c.flow
  have hpairs : (t.establish c p).pairs =
      (t.closePairOf c.flow).pairs ++ [(t.closePairOf c.flow).opening c p] := rfl
  rw [hpairs, ← hbesides.length, List.getElem?_concat_length, opening, opening, hbesides.stream]

/-- After the packet that establishes a connection its pair is registered, as it was opened
or closed at once. -/
theorem watched_of_established (hfiled : Filed t)
    (hbefore : t.phaseOf p.connection ≠ .established)
    (hafter : (t.handle p).phaseOf p.connection = .established)
    (hidle : (t.handle p).errand = none) :
    ∃ c place pair, (t.handle p).connections.find? p.connection = some c ∧
      Watched p.connection place pair (t.handle p) ∧
      (pair = t.opening c p ∨ pair.inbound.isClosed = true) := by
  rw [phaseOf_handle] at hafter
  obtain ⟨c, hfound, ⟨c₀, hc₀, hflow₀⟩, hphase, haccept⟩ := accept_establishes hbefore hafter
  have hflow : c.flow = p.connection :=
    hflow₀.trans (((Orderly.noticed t p).filed hfiled).named hc₀)
  obtain ⟨n, hbesides⟩ := ((t.noticed p).transited p c).closePairOf_besides c.flow
  have hregisters := (t.accept p).registers_settle
  have hconnections : (t.handle p).connections.find? p.connection = some c := by
    rw [handle, hregisters.1, haccept, establish]
    simp only [hbesides.connections]
    exact hfound
  have hstreams : (t.handle p).streams.find? p.connection = some t.pairs.length := by
    rw [handle, hregisters.2, haccept, establish, hflow]
    exact Registry.find?_insert_self _ _ _
  have hopened : (t.accept p).pairs[t.pairs.length]? = some (t.opening c p) := by
    rw [haccept]
    exact pairs_establish ((t.noticed p).transited p c) c p
  have hwatched : ∀ pair, (t.handle p).pairs[t.pairs.length]? = some pair →
      Watched p.connection t.pairs.length pair (t.handle p) := by
    intro pair hpair
    refine ⟨(Orderly.handle t p).filed hfiled, hidle, ?_, hstreams, hpair⟩
    rw [phaseOf, hconnections]
    exact hphase
  have herrand : ∀ e, (t.accept p).errand = some e → e = .announce t.pairs.length := by
    intro e he
    rw [haccept] at he
    obtain ⟨_, _, rfl⟩ := Option.map_eq_some_iff.1 he
    rfl
  cases he : (t.accept p).errand with
  | none =>
    rw [← settle_of_errand_none he] at hopened
    exact ⟨c, _, _, hconnections, hwatched _ hopened, Or.inl rfl⟩
  | some e =>
    obtain rfl := herrand e he
    rcases pairs_settle_announce he with hsame | hclosed
    · rw [← hsame] at hopened
      exact ⟨c, _, _, hconnections, hwatched _ hopened, Or.inl rfl⟩
    · have hpair : (t.handle p).pairs[t.pairs.length]? = some (t.opening c p).close := by
        rw [handle, hclosed, List.getElem?_modify_eq, hopened]
        rfl
      exact ⟨c, _, _, hconnections, hwatched _ hpair, Or.inr rfl⟩

end Tracker

end StreamTap
