import StreamTap.Proofs.Tracker.Ageing
import StreamTap.Proofs.Tracker.Alone

/-!
# The handshake behind a pair

The numbers that a new pair starts with come from packets that may lie far back: the inbound one
from the client's SYN, the outbound one from the acknowledgement that completes the handshake.
`remembered` keeps, for one connection, the packets that were handled since the connection was
last unknown, and `controls` takes from them those without payload and reset.  Among these a
handshake is read off in the plainest way, by the first SYN, the first answer behind it and the
first acknowledgement behind that (`Packet.first?`).

The phase of a connection says how far this reading comes, and the number of the client's SYN
that is on file is that of the first one (`Reached`).  Every packet keeps this (`Told.perform`),
so a connection is established by the third packet of the reading and by no other
(`seeded_by_handshake`).  SYNs that come again, resets in the middle and payload that comes too
early are passed over by the reading, and so they are by the tracker.
-/

namespace StreamTap

/-! ## Reading a handshake -/

namespace Packet

/-- Whether a packet can be a step of a handshake: it carries nothing and resets nothing. -/
def isControl (p : Packet) : Bool := !p.hasPayload && !p.flags.rst

/-- The client's SYN. -/
def opens (p : Packet) : Bool := p.direction == .inbound && p.flags.syn && !p.flags.ack

/-- The service's answer to a SYN. -/
def answers (p : Packet) : Bool := p.direction == .outbound && p.flags.syn && p.flags.ack

/-- The client's acknowledgement of the answer. -/
def completes (p : Packet) : Bool :=
  p.direction == .inbound && p.flags.ack && !p.flags.syn && !p.flags.fin

/-- The packets that can be steps of a handshake. -/
def controls (ps : List Packet) : List Packet := ps.filter isControl

/-- The first packet of a kind, and what comes behind it. -/
def first? (kind : Packet → Bool) : List Packet → Option (Packet × List Packet)
  | [] => none
  | p :: ps => if kind p then some (p, ps) else first? kind ps

variable {kind : Packet → Bool} {p q : Packet} {ps rest : List Packet}

theorem first?_append_of_some (h : first? kind ps = some (p, rest)) (qs : List Packet) :
    first? kind (ps ++ qs) = some (p, rest ++ qs) := by
  induction ps with
  | nil => cases h
  | cons q ps ih =>
    rw [List.cons_append, first?]
    rw [first?] at h
    split at h
    · next hq =>
      cases h
      rw [if_pos hq]
    · next hq =>
      rw [if_neg hq]
      exact ih h

theorem first?_append_of_none (h : first? kind ps = none) (qs : List Packet) :
    first? kind (ps ++ qs) = first? kind qs := by
  induction ps with
  | nil => rfl
  | cons q ps ih =>
    rw [List.cons_append, first?]
    rw [first?] at h
    split at h
    · cases h
    · next hq =>
      rw [if_neg hq]
      exact ih h

theorem first?_concat (h : first? kind ps = none) (hp : kind p = true) :
    first? kind (ps ++ [p]) = some (p, []) := by
  rw [first?_append_of_none h, first?, if_pos hp]

theorem first?_concat_of_not (h : first? kind ps = none) (hp : kind p = false) :
    first? kind (ps ++ [p]) = none := by
  rw [first?_append_of_none h, first?, if_neg (by simp [hp])]
  rfl

theorem controls_concat (h : p.isControl = true) : controls (ps ++ [p]) = controls ps ++ [p] := by
  simp [controls, h]

theorem controls_concat_of_not (h : p.isControl = false) :
    controls (ps ++ [p]) = controls ps := by
  simp [controls, h]

/-- The three kinds are what the service takes for the three events of a handshake. -/
theorem kind_iff_event (h : p.flags.rst = false) :
    (p.opens = true ↔ Event.ofPacket p = some .receiveSyn) ∧
      (p.answers = true ↔ Event.ofPacket p = some .sendSynAck) ∧
      (p.completes = true ↔ Event.ofPacket p = some .receiveAck) := by
  simp only [opens, answers, completes, Event.ofPacket, Event.ofFlags, h]
  cases p.direction <;> cases p.flags.syn <;> cases p.flags.ack <;> cases p.flags.fin <;> decide

/-- A reset without payload is taken for one and for nothing else. -/
theorem event_of_reset (h : p.flags.rst = true) : Event.ofPacket p = some .receiveRst := by
  simp [Event.ofPacket, Event.ofFlags, h]

end Packet

open Packet (controls first? opens answers completes)

/-! ## What becomes of a connection -/

/-- A connection after one of its packets, if it has not ended with it. -/
def Connection.upon (c : Connection) (p : Packet) : Option Connection :=
  if p.hasPayload then some c
  else
    match Event.ofPacket p with
    | none => some c
    | some event =>
      match c.phase.next event with
      | none => some c
      | some .closed => none
      | some phase => some (c.after event p phase)

def Connection.unknown (flow : Flow) : Connection := ⟨flow, .listen, none⟩

namespace Tracker

variable {t : Tracker} {flow : Flow} {p : Packet} {deed : Deed}

theorem find?_noticed (t : Tracker) (p : Packet) :
    (t.noticed p).connections.find? p.connection =
      some ((t.connections.find? p.connection).getD (.unknown p.connection)) :=
  Registry.find?_ensure_self ..

theorem connections_establish (t : Tracker) (c : Connection) (p : Packet) :
    (t.establish c p).connections = t.connections := by
  obtain ⟨_, hbesides⟩ := t.closePairOf_besides c.flow
  exact hbesides.connections

theorem find?_accept (t : Tracker) (p : Packet) :
    (t.accept p).connections.find? p.connection =
      ((t.connections.find? p.connection).getD (.unknown p.connection)).upon p := by
  have hnoticed := t.find?_noticed p
  generalize (t.connections.find? p.connection).getD (.unknown p.connection) = c at hnoticed ⊢
  rw [accept_eq, Connection.upon]
  cases p.hasPayload with
  | true =>
    simp only [if_true]
    split
    · rw [(SameFile.route (t.noticed p) p p.connection).connection, hnoticed]
    · exact hnoticed
  | false =>
    simp only [Bool.false_eq_true, if_false]
    cases Event.ofPacket p with
    | none => exact hnoticed
    | some event =>
      simp only
      cases hnext : c.phase.next event with
      | none =>
        rw [trigger_of_stuck hnoticed hnext]
        exact hnoticed
      | some phase =>
        rw [trigger_of_next hnoticed hnext]
        cases phase with
        | established =>
          simp only [connections_establish]
          exact Registry.find?_insert_self _ _ _
        | closed => exact Registry.find?_erase_self _ _
        | _ => simp only [transited, Registry.find?_insert_self]

/-! ## What is remembered of a connection -/

/-- The packet of a connection that a deed hands to the tracker, if it does. -/
def handed (t : Tracker) (flow : Flow) : Deed → List Packet
  | .accept p => if t.isIdle ∧ p.connection = flow then [p] else []
  | _ => []

/-- What is remembered of a connection after a deed.  With a connection that is not on file any
more all is forgotten. -/
def remember (t : Tracker) (flow : Flow) (seen : List Packet) (deed : Deed) : List Packet :=
  if (t.perform deed).connections.contains flow then seen ++ t.handed flow deed else []

/-- The packets of a connection that were handled since it was last unknown, when those in `seen`
are remembered at the beginning. -/
def remembered (flow : Flow) : Tracker → List Packet → List Deed → List Packet
  | _, seen, [] => seen
  | t, seen, deed :: deeds => remembered flow (t.perform deed) (t.remember flow seen deed) deeds

theorem remembered_concat (t : Tracker) (seen : List Packet) (deeds : List Deed) (deed : Deed) :
    remembered flow t seen (deeds ++ [deed]) =
      (t.course deeds).remember flow (remembered flow t seen deeds) deed := by
  induction deeds generalizing t seen with
  | nil => rfl
  | cons first deeds ih => exact ih _ _

/-- A deed hands over a packet of the connection, or leaves what is on file for it alone. -/
theorem handed_or_same (hfiled : Filed t) (flow : Flow) (deed : Deed) :
    (∃ p, deed = .accept p ∧ t.isIdle = true ∧ p.connection = flow) ∨
      t.handed flow deed = [] ∧
        (t.perform deed).connections.find? flow = t.connections.find? flow := by
  by_cases hown : ∃ p, deed = .accept p ∧ p.connection = flow
  · obtain ⟨p, rfl, hflow⟩ := hown
    cases hidle : t.isIdle with
    | true => exact Or.inl ⟨p, rfl, rfl, hflow⟩
    | false => exact Or.inr (by simp [handed, perform, hidle])
  · have hother : ∀ p, deed = .accept p → p.connection ≠ flow :=
      fun p hp hflow => hown ⟨p, hp, hflow⟩
    refine Or.inr ⟨?_, (SameFile.perform hfiled hother).connection⟩
    cases deed with
    | accept p => simp [handed, hother p rfl]
    | _ => rfl

/-! ## How far the reading comes -/

/-- How far a handshake is read off a list of packets when the connection is in the given phase
and has this number of the client's SYN on file. -/
inductive Reached (cs : List Packet) : Phase → Option Seq → Prop
  | listen : first? opens cs = none → Reached cs .listen none
  | synReceived1 {syn : Packet} {behind : List Packet} :
      first? opens cs = some (syn, behind) → first? answers behind = none →
      Reached cs .synReceived1 (some syn.seq)
  | synReceived2 {syn answer : Packet} {behind rest : List Packet} :
      first? opens cs = some (syn, behind) → first? answers behind = some (answer, rest) →
      first? completes rest = none → Reached cs .synReceived2 (some syn.seq)
  /-- With an open pair, the reading is over. -/
  | paired {phase : Phase} (number : Option Seq) : phase.isPaired = true → Reached cs phase number

namespace Reached

variable {cs ps : List Packet} {phase phase' : Phase} {number : Option Seq} {event : Event}
  {c c' : Connection}

theorem completed (h : Reached cs .synReceived2 number) (hp : completes p = true) :
    ∃ syn answer behind rest, first? opens (cs ++ [p]) = some (syn, behind) ∧
      first? answers behind = some (answer, rest) ∧ first? completes rest = some (p, []) ∧
      number = some syn.seq := by
  cases h with
  | synReceived2 hsyn hanswer hnone =>
    exact ⟨_, _, _, _, Packet.first?_append_of_some hsyn [p],
      Packet.first?_append_of_some hanswer [p], Packet.first?_concat hnone hp, rfl⟩
  | paired _ hpaired => cases hpaired

theorem stay (h : Reached cs phase number) (hreset : p.flags.rst = false)
    (hstay : ∀ event, Event.ofPacket p = some event → phase.next event = none) :
    Reached (cs ++ [p]) phase number := by
  obtain ⟨hopens, hanswers, hcompletes⟩ := Packet.kind_iff_event hreset
  -- A packet of a kind that leads on from this phase would not be passed over.
  have hnot : ∀ {kind : Packet → Bool} {event : Event}, phase.next event ≠ none →
      (kind p = true ↔ Event.ofPacket p = some event) → kind p = false := by
    intro kind event hnext hkind
    rw [Bool.eq_false_iff]
    exact fun hp => hnext (hstay event (hkind.1 hp))
  cases h with
  | listen hnone =>
    exact .listen (Packet.first?_concat_of_not hnone (hnot (by decide) hopens))
  | synReceived1 hsyn hnone =>
    exact .synReceived1 (Packet.first?_append_of_some hsyn [p])
      (Packet.first?_concat_of_not hnone (hnot (by decide) hanswers))
  | synReceived2 hsyn hanswer hnone =>
    exact .synReceived2 (Packet.first?_append_of_some hsyn [p])
      (Packet.first?_append_of_some hanswer [p])
      (Packet.first?_concat_of_not hnone (hnot (by decide) hcompletes))
  | paired _ hpaired => exact .paired _ hpaired

theorem next (h : Reached cs phase number) (hreset : p.flags.rst = false)
    (hevent : Event.ofPacket p = some event) (hnext : phase.next event = some phase')
    (hclosed : phase' ≠ .closed) :
    Reached (cs ++ [p]) phase' (if event = .receiveSyn then some p.seq else number) := by
  obtain ⟨hopens, hanswers, hcompletes⟩ := Packet.kind_iff_event hreset
  cases h with
  | listen hnone =>
    obtain rfl := Phase.eq_receiveSyn_of_next_listen hnext hclosed
    cases hnext
    exact .synReceived1 (Packet.first?_concat hnone (hopens.2 hevent)) rfl
  | synReceived1 hsyn hnone =>
    cases event <;> cases hnext
    exact .synReceived2 (Packet.first?_append_of_some hsyn [p])
      (Packet.first?_concat hnone (hanswers.2 hevent)) rfl
  | synReceived2 hsyn hanswer hnone =>
    cases event <;> cases hnext
    exact .paired _ rfl
  | paired _ hpaired =>
    refine .paired _ ?_
    by_cases hestablished : phase' = .established
    · rw [hestablished]
      rfl
    · rw [Phase.isPaired_next hnext hestablished hclosed]
      exact hpaired

/-- A packet that does not end its connection is read as the tracker takes it. -/
theorem upon (h : Reached (controls ps) c.phase c.synSeq) (hupon : c.upon p = some c') :
    Reached (controls (ps ++ [p])) c'.phase c'.synSeq := by
  unfold Connection.upon at hupon
  cases hpayload : p.hasPayload with
  | true =>
    rw [hpayload, if_pos rfl] at hupon
    cases hupon
    rw [Packet.controls_concat_of_not (by simp [Packet.isControl, hpayload])]
    exact h
  | false =>
    rw [hpayload, if_neg Bool.false_ne_true] at hupon
    cases hreset : p.flags.rst with
    | true =>
      rw [Packet.controls_concat_of_not (by simp [Packet.isControl, hreset])]
      rw [Packet.event_of_reset hreset] at hupon
      -- A reset ends the connection or leads nowhere.
      cases hphase : c.phase <;> simp only [hphase, Phase.next] at hupon <;> cases hupon <;>
        exact h
    | false =>
      rw [Packet.controls_concat (by simp [Packet.isControl, hpayload, hreset])]
      cases hevent : Event.ofPacket p with
      | none =>
        rw [hevent] at hupon
        cases hupon
        exact h.stay hreset fun event hsome => by rw [hevent] at hsome; cases hsome
      | some event =>
        simp only [hevent] at hupon
        cases hnext : c.phase.next event with
        | none =>
          rw [hnext] at hupon
          cases hupon
          refine h.stay hreset fun event' hsome => ?_
          rw [hevent] at hsome
          cases hsome
          exact hnext
        | some phase =>
          rw [hnext] at hupon
          have hclosed : phase ≠ .closed := by
            rintro rfl
            cases hupon
          have hafter : c' = c.after event p phase := by
            cases phase <;> first | exact absurd rfl hclosed | exact (Option.some.inj hupon).symm
          rw [hafter]
          exact h.next hreset hevent hnext hclosed

end Reached

/-- What is on file for a connection can be told from the packets that are remembered of it. -/
structure Told (t : Tracker) (flow : Flow) (seen : List Packet) : Prop where
  unknown : t.connections.find? flow = none → seen = []
  known : ∀ c, t.connections.find? flow = some c → Reached (controls seen) c.phase c.synSeq

namespace Told

variable {seen : List Packet}

theorem ofSettings (s : Settings) (announcements : Option (Channel Nat)) (flow : Flow) :
    Told (ofSettings s announcements) flow [] :=
  ⟨fun _ => rfl, fun _ hc => by cases hc⟩

/-- How far the reading has come when the next packet is noticed. -/
theorem reached (h : Told t flow seen) :
    Reached (controls seen) ((t.connections.find? flow).getD (.unknown flow)).phase
      ((t.connections.find? flow).getD (.unknown flow)).synSeq := by
  cases hc : t.connections.find? flow with
  | none =>
    rw [h.unknown hc]
    exact .listen rfl
  | some c => exact h.known c hc

theorem perform (h : Told t flow seen) (hfiled : Filed t) (deed : Deed) :
    Told (t.perform deed) flow (t.remember flow seen deed) := by
  -- With a connection that is not on file nothing is remembered.
  suffices hknown : ∀ c, (t.perform deed).connections.find? flow = some c →
      Reached (controls (seen ++ t.handed flow deed)) c.phase c.synSeq by
    refine ⟨fun hnone => ?_, fun c hc => ?_⟩
    · simp [remember, Registry.contains, hnone]
    · simp only [remember, Registry.contains, hc, Option.isSome_some, if_true]
      exact hknown c hc
  rcases handed_or_same hfiled flow deed with ⟨p, rfl, hidle, rfl⟩ | ⟨hhanded, hsame⟩
  · have hhanded : t.handed p.connection (.accept p) = [p] := by simp [handed, hidle]
    have haccept : t.perform (.accept p) = t.accept p := by simp [Tracker.perform, hidle]
    rw [hhanded, haccept, find?_accept]
    exact fun c hc => h.reached.upon hc
  · rw [hhanded, hsame, List.append_nil]
    exact h.known

theorem course (h : Told t flow seen) (hfiled : Filed t) (deeds : List Deed) :
    Told (t.course deeds) flow (remembered flow t seen deeds) := by
  induction deeds generalizing t seen with
  | nil => exact h
  | cons deed deeds ih => exact ih (h.perform hfiled deed) ((Orderly.perform t deed).filed hfiled)

end Told

/-! ## The moment a pair is opened -/

/-- A buffer that expects the given number and has not been used. -/
structure Untouched (b : Buffer) (seq : Seq) : Prop where
  expected : b.expected = seq
  published : b.published = seq
  isOpen : b.isClosed = false
  parked : b.parked.segments = []
  handoff : b.handoff.items = []
  sending : b.sending = none
  counts : b.buffered = 0 ∧ b.available = 0 ∧ b.outOfWindow = 0 ∧ b.duplicate = 0 ∧
    b.stale = 0 ∧ b.delivered = 0

theorem untouched_opened (flow : Flow) (inbound outbound : Seq) (s : StreamSettings) :
    Untouched (Pair.opened flow inbound outbound s).inbound inbound ∧
      Untouched (Pair.opened flow inbound outbound s).outbound outbound :=
  ⟨⟨rfl, rfl, rfl, rfl, rfl, rfl, rfl, rfl, rfl, rfl, rfl, rfl⟩,
    ⟨rfl, rfl, rfl, rfl, rfl, rfl, rfl, rfl, rfl, rfl, rfl, rfl⟩⟩

/-- The packet that establishes a connection acknowledges the service's answer to the client's
SYN, and the pair starts behind this SYN. -/
theorem established_of_upon {c c' : Connection} (hupon : c.upon p = some c')
    (hbefore : c.phase ≠ .established) (hafter : c'.phase = .established) :
    p.hasPayload = false ∧ Event.ofPacket p = some .receiveAck ∧ c.phase = .synReceived2 ∧
      c' = c.after .receiveAck p .established := by
  unfold Connection.upon at hupon
  split at hupon
  · cases hupon
    exact absurd hafter hbefore
  · next hpayload =>
    split at hupon
    · cases hupon
      exact absurd hafter hbefore
    · next event hevent =>
      split at hupon
      · cases hupon
        exact absurd hafter hbefore
      · cases hupon
      · next phase _ hnext =>
        cases hupon
        obtain rfl : phase = .established := hafter
        obtain ⟨hphase, rfl⟩ := Phase.of_next_established hnext
        exact ⟨by simpa using hpayload, hevent, hphase, rfl⟩

theorem pairOf?_accept {c : Connection} {seq : Seq} (hfiled : Filed t)
    (hnoticed : (t.noticed p).connections.find? p.connection = some c)
    (hpayload : p.hasPayload = false) (hevent : Event.ofPacket p = some .receiveAck)
    (hphase : c.phase = .synReceived2) (hnumber : c.synSeq = some seq) :
    (t.accept p).pairOf? p.connection =
      some (t.pairs.length, .opened p.connection (seq.advance 1) p.ack t.stream) := by
  have hflow : c.flow = p.connection := ((Orderly.noticed t p).filed hfiled).named hnoticed
  have hnext : c.phase.next .receiveAck = some .established := by
    rw [hphase]
    rfl
  have haccept : t.accept p = ((t.noticed p).transited p
      (c.after .receiveAck p .established)).establish (c.after .receiveAck p .established) p := by
    rw [accept_eq, hpayload, if_neg Bool.false_ne_true, hevent]
    exact trigger_of_next hnoticed hnext
  have hpair := pairOf?_establish
    ((t.noticed p).transited p (c.after .receiveAck p .established))
    (c.after .receiveAck p .established) p
  rw [← haccept] at hpair
  simp only [Connection.after, opening, hflow, hnumber, reduceCtorEq, if_false] at hpair
  exact hpair

/-- A connection is established by the packet that completes the handshake as it is read off the
packets without payload and reset since the connection was last unknown: the first SYN, the first
answer behind it, the first acknowledgement behind the answer.  Its pair is new; the inbound
buffer starts behind the SYN, the outbound one where the packet acknowledges, and both are open
and unused. -/
theorem seeded_by_handshake (s : Settings) (announcements : Option (Channel Nat))
    (deeds : List Deed) (deed : Deed) (flow : Flow) :
    let t₀ := ofSettings s announcements
    let t := t₀.course deeds
    t.phaseOf flow ≠ .established → (t.perform deed).phaseOf flow = .established →
    ∃ syn answer ack behind rest pair,
      deed = .accept ack ∧ ack.connection = flow ∧
        first? opens (controls (remembered flow t₀ [] (deeds ++ [deed]))) = some (syn, behind) ∧
        first? answers behind = some (answer, rest) ∧
        first? completes rest = some (ack, []) ∧
        (t.perform deed).pairOf? flow = some (t.pairs.length, pair) ∧
        pair = .opened flow (syn.seq.advance 1) ack.ack s.stream ∧
        Untouched pair.inbound (syn.seq.advance 1) ∧ Untouched pair.outbound ack.ack := by
  intro t₀ t hbefore hafter
  have hsettings : Orderly t₀ t := Orderly.course t₀ deeds
  have hfiled : Filed t := hsettings.filed (.ofSettings s announcements)
  have htold : Told t flow (remembered flow t₀ [] deeds) :=
    (Told.ofSettings s announcements flow).course (.ofSettings s announcements) deeds
  have hseen : remembered flow t₀ [] (deeds ++ [deed]) =
      t.remember flow (remembered flow t₀ [] deeds) deed := remembered_concat t₀ [] deeds deed
  generalize remembered flow t₀ [] deeds = seen at htold hseen
  rcases handed_or_same hfiled flow deed with ⟨p, rfl, hidle, rfl⟩ | ⟨-, hsame⟩
  · have haccept : t.perform (.accept p) = t.accept p := by simp [perform, hidle]
    rw [haccept] at hafter ⊢
    -- The connection before the packet and after it.
    have hreached := htold.reached
    have hnoticed := t.find?_noticed p
    have hfind := t.find?_accept p
    generalize (t.connections.find? p.connection).getD (.unknown p.connection) = c
      at hreached hnoticed hfind
    have hphase : c.phase ≠ .established := by
      rw [← phaseOf_of_some hnoticed, phaseOf_noticed]
      exact hbefore
    obtain ⟨c', hc'⟩ : ∃ c', c.upon p = some c' := by
      cases hupon : c.upon p with
      | none =>
        rw [phaseOf, hfind, hupon] at hafter
        cases hafter
      | some c' => exact ⟨c', rfl⟩
    have hestablished : c'.phase = .established := by rwa [phaseOf, hfind, hc'] at hafter
    obtain ⟨hpayload, hevent, hwaiting, -⟩ := established_of_upon hc' hphase hestablished
    -- What is read with the packet.
    have hreset : p.flags.rst = false := by
      cases hflag : p.flags.rst with
      | false => rfl
      | true =>
        rw [Packet.event_of_reset hflag] at hevent
        cases hevent
    have hread : controls (remembered p.connection t₀ [] (deeds ++ [.accept p])) =
        controls seen ++ [p] := by
      rw [hseen, remember, haccept, Registry.contains, hfind, hc', Option.isSome_some, if_pos rfl,
        show t.handed p.connection (.accept p) = [p] by simp [handed, hidle]]
      exact Packet.controls_concat (by simp [Packet.isControl, hpayload, hreset])
    rw [hwaiting] at hreached
    obtain ⟨syn, answer, behind, rest, hsyn, hanswer, hlast, hnumber⟩ :=
      hreached.completed ((Packet.kind_iff_event hreset).2.2.2 hevent)
    have hpair := pairOf?_accept hfiled hnoticed hpayload hevent hwaiting hnumber
    obtain ⟨hinbound, houtbound⟩ := untouched_opened p.connection (syn.seq.advance 1) p.ack t.stream
    exact ⟨syn, answer, p, behind, rest, _, rfl, rfl, hread ▸ hsyn, hanswer, hlast, hpair,
      congrArg _ hsettings.stream, hinbound, houtbound⟩
  · rw [phaseOf, hsame, ← phaseOf] at hafter
    exact absurd hafter hbefore

/-- A reset before the handshake, then a SYN that is repeated with another number, another reset
and payload that comes too early. -/
def stammered : List Deed :=
  [.accept (spoken 4000 .inbound 8 (.ofByte 4) []),
    .accept (spoken 4000 .inbound 4294967289 (.ofByte 2) []),
    .accept (spoken 4000 .inbound 77 (.ofByte 2) []),
    .accept (spoken 4000 .outbound 9 (.ofByte 4) []),
    .accept (spoken 4000 .outbound 4294967293 (.ofByte 18) []),
    .accept (spoken 4000 .inbound 4294967290 .ackAlone [1])]

theorem seeded_by_handshake_stammered :
    ∃ pair, (((ofSettings {} none).course stammered).perform (.accept greeted)).pairOf?
        greeted.connection = some (0, pair) ∧
      Untouched pair.inbound 4294967290 ∧ Untouched pair.outbound 4294967294 := by
  obtain ⟨syn, _, ack, _, _, pair, hack, -, hsyn, -, -, hpair, -, hinbound, houtbound⟩ :=
    seeded_by_handshake {} none stammered (.accept greeted) greeted.connection (by decide)
      (by decide)
  cases hack
  have hfirst : (first? opens (controls (remembered greeted.connection (ofSettings {} none) []
      (stammered ++ [.accept greeted])))).map (fun found => found.1.seq) = some 4294967289 := by
    decide
  rw [hsyn, Option.map_some, Option.some.injEq] at hfirst
  rw [hfirst] at hinbound
  exact ⟨pair, hpair, hinbound, houtbound⟩

end Tracker

end StreamTap
