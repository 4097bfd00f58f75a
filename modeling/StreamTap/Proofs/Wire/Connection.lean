import StreamTap.Wire.Datagram

/-!
# Which packets share a connection

A connection is named by the flow from the client to the service, and which of the two ends
of a decoded packet is the service is told by the ports alone: it is the destination, if that
has the port of the service, and otherwise the source (`direction_of_decode`).

So two decoded packets that travel the same way share a connection, and no packets between
other endpoints do.  Packets that travel opposite ways share one as long as their two ports
differ.  When both ends have the port of the service, each end is taken for the service by
the packets that go to it, and the two ways are two connections (`connection_eq_iff`).
-/

namespace StreamTap

namespace Packet

variable {service : UInt16} {data data₁ data₂ : Bytes} {p q : Packet}

/-! ## The direction of a decoded packet -/

theorem directionOf_cases {source destination : UInt16} {d : Direction}
    (h : directionOf source destination service = some d) :
    (d = .inbound ∧ destination = service) ∨
      (d = .outbound ∧ source = service ∧ destination ≠ service) := by
  unfold directionOf at h
  split at h
  · next hto => exact Or.inl ⟨(Option.some.inj h).symm, hto⟩
  · next hto =>
    split at h
    · next hfrom => exact Or.inr ⟨(Option.some.inj h).symm, hfrom, hto⟩
    · cases h

theorem directionOf_of_decode (h : decode data service = .ok p) :
    directionOf p.source.port p.destination.port service = some p.direction := by
  unfold decode at h
  cases hfind : Enclosed.find data with
  | error e =>
    rw [hfind] at h
    cases h
  | ok enclosed =>
    cases hread : Header.read enclosed.segment with
    | error e =>
      simp only [hfind, hread, bind, Except.bind] at h
      cases h
    | ok header =>
      simp only [hfind, hread, bind, Except.bind] at h
      split at h
      · cases h
      · next d hd =>
        cases h
        exact hd

/-- A decoded packet goes to the service, or it comes from there and goes elsewhere. -/
theorem direction_of_decode (h : decode data service = .ok p) :
    (p.direction = .inbound ∧ p.destination.port = service) ∨
      (p.direction = .outbound ∧ p.source.port = service ∧ p.destination.port ≠ service) :=
  directionOf_cases (directionOf_of_decode h)

/-! ## The connection of a decoded packet -/

theorem connection_of_inbound (h : p.direction = .inbound) : p.connection = p.flow := by
  rw [connection, h]

theorem connection_of_outbound (h : p.direction = .outbound) :
    p.connection = p.flow.reverse := by
  rw [connection, h]

/-- Decoded packets share a connection exactly if they travel between the same endpoints, be
it the same way or, from one port to another, opposite ways. -/
theorem connection_eq_iff (hp : decode data₁ service = .ok p) (hq : decode data₂ service = .ok q) :
    p.connection = q.connection ↔
      p.flow = q.flow ∨ (p.flow = q.flow.reverse ∧ p.source.port ≠ p.destination.port) := by
  rcases direction_of_decode hp with ⟨hpd, hpto⟩ | ⟨hpd, hpfrom, hpto⟩ <;>
    rcases direction_of_decode hq with ⟨hqd, hqto⟩ | ⟨hqd, hqfrom, hqto⟩
  · rw [connection_of_inbound hpd, connection_of_inbound hqd]
    refine ⟨Or.inl, fun h => h.resolve_right ?_⟩
    -- Going to the service both and opposite ways, they would go between two of its ports.
    rintro ⟨hflow, hports⟩
    have hsource : p.source = q.destination := congrArg Flow.source hflow
    exact hports (by rw [hsource, hqto, hpto])
  · rw [connection_of_inbound hpd, connection_of_outbound hqd]
    constructor
    · intro hflow
      have hsource : p.source = q.destination := congrArg Flow.source hflow
      exact Or.inr ⟨hflow, by rwa [hsource, hpto]⟩
    · rintro (hflow | ⟨hflow, -⟩)
      · have hdestination : p.destination = q.destination := congrArg Flow.destination hflow
        exact absurd (by rw [← hdestination, hpto]) hqto
      · exact hflow
  · rw [connection_of_outbound hpd, connection_of_inbound hqd]
    constructor
    · intro hflow
      have hreverse : p.flow = q.flow.reverse := congrArg Flow.reverse hflow
      exact Or.inr ⟨hreverse, by rw [hpfrom]; exact Ne.symm hpto⟩
    · rintro (hflow | ⟨hflow, -⟩)
      · have hdestination : p.destination = q.destination := congrArg Flow.destination hflow
        exact absurd (by rw [hdestination, hqto]) hpto
      · rw [hflow, Flow.reverse_reverse]
  · rw [connection_of_outbound hpd, connection_of_outbound hqd, Flow.reverse_inj]
    refine ⟨Or.inl, fun h => h.resolve_right ?_⟩
    rintro ⟨hflow, -⟩
    have hsource : p.source = q.destination := congrArg Flow.source hflow
    exact hqto (by rw [← hsource, hpfrom])

/-- A datagram of version 4 with a bare TCP header. -/
def bareDatagram (source destination : UInt8) (sourcePort destinationPort flags : UInt8) :
    Bytes :=
  [0x45, 0, 0, 40, 0, 0, 0, 0, 64, 6, 0, 0, 10, 0, 0, source, 10, 0, 0, destination,
    0, sourcePort, 0, destinationPort, 0, 0, 0, 1, 0, 0, 0, 1, 0x50, flags, 0, 0, 0, 0, 0, 0]

/-- The first two datagrams of a handshake. -/
theorem connection_eq_iff_handshake :
    ∃ p q, decode (bareDatagram 1 2 80 7 2) 7 = .ok p ∧
      decode (bareDatagram 2 1 7 80 18) 7 = .ok q ∧ p.connection = q.connection := by
  obtain ⟨p, hp⟩ : ∃ p, decode (bareDatagram 1 2 80 7 2) 7 = .ok p := ⟨_, rfl⟩
  obtain ⟨q, hq⟩ : ∃ q, decode (bareDatagram 2 1 7 80 18) 7 = .ok q := ⟨_, rfl⟩
  refine ⟨p, q, hp, hq, (connection_eq_iff hp hq).2 (Or.inr ?_)⟩
  cases hp
  cases hq
  exact ⟨rfl, by decide⟩

/-- Between two ports of the service the two ways are kept apart. -/
theorem connection_ne_between_services :
    ∃ p q, decode (bareDatagram 1 2 7 7 2) 7 = .ok p ∧ decode (bareDatagram 2 1 7 7 18) 7 = .ok q ∧
      p.flow = q.flow.reverse ∧ p.connection ≠ q.connection :=
  ⟨_, _, rfl, rfl, rfl, by decide⟩

end Packet

end StreamTap
