import StreamTap.Proofs.Wire.Encoding

/-!
# Datagrams are cut apart inside their bounds

How long the parts of a datagram are is told by the datagram itself, and none of these fields
can be trusted.  `decode` looks at a byte, or cuts something off, only where it has made sure
before that the datagram is long enough.

To say so, reading is done here once more by a reader that does not know its bounds: a byte that
is not there, or a cut that is not possible, ends it without any outcome (`decode?`).  This
never happens, and what it reads is what `decode` reads (`decode?_eq`).

Where the outcome is a packet, the datagram is an IP header, a TCP header, the payload of the
packet and a rest.  `Dissected` says how long these parts are in terms of the numbers that the
fields write.
-/

namespace StreamTap

namespace Bytes

variable {data : Bytes} {start stop : Nat}

/-- The bytes between two positions, if these are in order and inside the string. -/
def slice? (data : Bytes) (start stop : Nat) : Option Bytes :=
  if h : start ≤ stop ∧ stop ≤ data.length then some (data.slice start stop h) else none

theorem slice?_eq (h : start ≤ stop ∧ stop ≤ data.length) :
    data.slice? start stop = some (data.slice start stop h) := dif_pos h

theorem toNat_upper (b : UInt8) : (b >>> 4).toNat = b.toNat / 16 := by
  rw [UInt8.toNat_shiftRight, Nat.shiftRight_eq_div_pow]
  rfl

theorem toNat_lower (b : UInt8) : (b &&& 0x0f).toNat = b.toNat % 16 := by
  rw [UInt8.toNat_and]
  exact Nat.and_two_pow_sub_one_eq_mod b.toNat 4

end Bytes

namespace Packet

variable {data : Bytes}

/-! ## Reading without knowing the bounds -/

/-- What is found in a datagram: the segment, and the hosts it comes from and goes to. -/
abbrev Found := Bytes × Host × Host

def Enclosed.found (e : Enclosed data) : Found := (e.segment, e.source, e.destination)

def Enclosed.ofIPv4? (data : Bytes) : Option (Except DecodeError Found) :=
  if data.length < 20 then some (.error .shortIPv4)
  else do
    let headerLength := ((← data[0]?) &&& 0x0f).toNat * 4
    if headerLength < 20 ∨ data.length < headerLength + tcpHeaderLength then
      return .error .noTCPHeader
    else if (← data[9]?) ≠ tcp then return .error (.notTCP (← data[9]?))
    else
      let declared := (Bytes.word16 (← data[2]?) (← data[3]?)).toNat
      let stop :=
        if headerLength ≤ declared ∧ declared ≤ data.length then declared else data.length
      let source := .v4 ⟨← data[12]?, ← data[13]?, ← data[14]?, ← data[15]?⟩
      let destination := .v4 ⟨← data[16]?, ← data[17]?, ← data[18]?, ← data[19]?⟩
      return .ok (← data.slice? headerLength stop, source, destination)

def Enclosed.ofIPv6? (data : Bytes) : Option (Except DecodeError Found) :=
  if data.length < ipv6HeaderLength + tcpHeaderLength then some (.error .shortIPv6)
  else do
    if (← data[6]?) ≠ tcp then return .error (.nextHeaderNotTCP (← data[6]?))
    else
      let declared := (Bytes.word16 (← data[4]?) (← data[5]?)).toNat
      let stop := min (ipv6HeaderLength + declared) data.length
      let source := .v6 (ipv6OfBytes (← data.slice? 8 24)) 0
      let destination := .v6 (ipv6OfBytes (← data.slice? 24 40)) 0
      return .ok (← data.slice? ipv6HeaderLength stop, source, destination)

def Enclosed.find? (data : Bytes) : Option (Except DecodeError Found) :=
  match data.head?.map (fun b : UInt8 => (b >>> 4).toNat) with
  | none => some (.error .empty)
  | some 4 => ofIPv4? data
  | some 6 => ofIPv6? data
  | some v => some (.error (.unsupportedVersion v))

def Header.read? (segment : Bytes) : Option (Except DecodeError Header) :=
  if segment.length < tcpHeaderLength then some (.error .shortSegment)
  else do
    let headerLength := ((← segment[12]?) >>> 4).toNat * 4
    if headerLength < tcpHeaderLength ∨ segment.length < headerLength then
      return .error (.badDataOffset headerLength)
    else
      return .ok {
        sourcePort := Bytes.word16 (← segment[0]?) (← segment[1]?)
        destinationPort := Bytes.word16 (← segment[2]?) (← segment[3]?)
        seq := Bytes.word32 (← segment[4]?) (← segment[5]?) (← segment[6]?) (← segment[7]?)
        ack := Bytes.word32 (← segment[8]?) (← segment[9]?) (← segment[10]?) (← segment[11]?)
        flags := .ofByte (← segment[13]?)
        payload := ← segment.slice? headerLength segment.length }

/-- `decode` with bytes that may be missing: nothing at all if one of those it asks for is, or
if it makes a cut that is not possible. -/
def decode? (data : Bytes) (service : UInt16) : Option (Except DecodeError Packet) := do
  match ← Enclosed.find? data with
  | .error e => return .error e
  | .ok (segment, sourceHost, destinationHost) =>
    match ← Header.read? segment with
    | .error e => return .error e
    | .ok header =>
      match directionOf header.sourcePort header.destinationPort service with
      | none => return .error (.unrelatedPorts header.sourcePort header.destinationPort service)
      | some direction =>
        return .ok {
          source := ⟨sourceHost, header.sourcePort⟩
          destination := ⟨destinationHost, header.destinationPort⟩
          seq := header.seq
          ack := header.ack
          flags := header.flags
          payload := header.payload
          direction }

theorem Enclosed.ofIPv4?_eq (data : Bytes) :
    ofIPv4? data = some ((ofIPv4 data).map Enclosed.found) := by
  unfold ofIPv4? ofIPv4
  by_cases hshort : data.length < 20
  · rw [if_pos hshort, dif_pos hshort]
    rfl
  · rw [if_neg hshort, dif_neg hshort]
    simp (disch := omega) only [List.getElem?_eq_getElem, Option.bind_eq_bind, Option.bind_some]
    by_cases hheader : (data[0] &&& 0x0f).toNat * 4 < 20 ∨
        data.length < (data[0] &&& 0x0f).toNat * 4 + tcpHeaderLength
    · rw [if_pos hheader, dif_pos hheader]
      rfl
    · rw [if_neg hheader, dif_neg hheader]
      by_cases hprotocol : data[9] ≠ tcp
      · rw [if_pos hprotocol, if_pos hprotocol]
        rfl
      · rw [if_neg hprotocol, if_neg hprotocol, Bytes.slice?_eq]
        rfl

theorem Enclosed.ofIPv6?_eq (data : Bytes) :
    ofIPv6? data = some ((ofIPv6 data).map Enclosed.found) := by
  unfold ofIPv6? ofIPv6
  by_cases hshort : data.length < ipv6HeaderLength + tcpHeaderLength
  · rw [if_pos hshort, dif_pos hshort]
    rfl
  · have hlong : 60 ≤ data.length := Nat.le_of_not_lt hshort
    rw [if_neg hshort, dif_neg hshort]
    simp (disch := omega) only [List.getElem?_eq_getElem, Option.bind_eq_bind, Option.bind_some]
    by_cases hprotocol : data[6] ≠ tcp
    · rw [if_pos hprotocol, if_pos hprotocol]
      rfl
    · rw [if_neg hprotocol, if_neg hprotocol,
        Bytes.slice?_eq (show 8 ≤ 24 ∧ 24 ≤ data.length by omega),
        Bytes.slice?_eq (show 24 ≤ 40 ∧ 40 ≤ data.length by omega), Bytes.slice?_eq]
      rfl

theorem Enclosed.find?_eq (data : Bytes) : find? data = some ((find data).map found) := by
  unfold find? find
  generalize data.head?.map (fun b : UInt8 => (b >>> 4).toNat) = version
  split
  · rfl
  · exact ofIPv4?_eq data
  · exact ofIPv6?_eq data
  · simp only [Except.map]

theorem Header.read?_eq (segment : Bytes) : read? segment = some (read segment) := by
  unfold read? read
  by_cases hshort : segment.length < tcpHeaderLength
  · rw [if_pos hshort, dif_pos hshort]
  · have hlong : 20 ≤ segment.length := Nat.le_of_not_lt hshort
    rw [if_neg hshort, dif_neg hshort]
    simp (disch := omega) only [List.getElem?_eq_getElem, Option.bind_eq_bind, Option.bind_some]
    by_cases hbad : (segment[12] >>> 4).toNat * 4 < tcpHeaderLength ∨
        segment.length < (segment[12] >>> 4).toNat * 4
    · rw [if_pos hbad, dif_pos hbad]
      rfl
    · rw [if_neg hbad, dif_neg hbad, Bytes.slice?_eq]
      rfl

/-- No byte is missing and every cut is possible. -/
theorem decode?_eq (data : Bytes) (service : UInt16) :
    decode? data service = some (decode data service) := by
  simp only [decode?, decode, Enclosed.find?_eq, Option.bind_eq_bind, Option.bind_some]
  cases Enclosed.find data with
  | error e => rfl
  | ok enclosed =>
    simp only [Except.map, Enclosed.found, Header.read?_eq, Option.bind_some]
    cases hread : Header.read enclosed.segment with
    | error e => simp only [bind, Except.bind, hread]; rfl
    | ok header =>
      simp only [bind, Except.bind, hread]
      cases directionOf header.sourcePort header.destinationPort service <;> rfl

/-! ## The parts of a datagram -/

/-- The length of the IP header of a datagram, and of the datagram without what is behind it, as
the fields of this header tell. -/
inductive Measured (data : Bytes) : (header whole : Nat) → Prop
  /-- The declared length counts if it covers the header and nothing that is missing. -/
  | v4 {first high low : UInt8} {header declared : Nat} :
      data[0]? = some first → data[2]? = some high → data[3]? = some low →
      first.toNat / 16 = 4 → header = 4 * (first.toNat % 16) →
      declared = 256 * high.toNat + low.toNat →
      Measured data header
        (if header ≤ declared ∧ declared ≤ data.length then declared else data.length)
  /-- The header is not part of the declared length. -/
  | v6 {first high low : UInt8} :
      data[0]? = some first → data[4]? = some high → data[5]? = some low →
      first.toNat / 16 = 6 →
      Measured data 40 (min (40 + (256 * high.toNat + low.toNat)) data.length)

/-- A datagram in its parts. -/
structure Dissected (data ipHeader tcpHeader payload rest : Bytes) : Prop where
  whole : data = ipHeader ++ tcpHeader ++ payload ++ rest
  ip : Measured data ipHeader.length (ipHeader ++ tcpHeader ++ payload).length
  tcp : ∃ offset, tcpHeader[12]? = some offset ∧ tcpHeader.length = 4 * (offset.toNat / 16)

theorem Enclosed.measured_ofIPv4 {e : Enclosed data} {first : UInt8}
    (hfirst : data[0]? = some first) (hversion : first.toNat / 16 = 4)
    (h : ofIPv4 data = .ok e) : Measured data e.start e.stop := by
  unfold ofIPv4 at h
  split at h
  · cases h
  next hshort =>
  dsimp only at h
  split at h
  · cases h
  split at h
  · cases h
  cases h
  have hbyte : ∀ i (hi : i < data.length), data[i]? = some data[i] :=
    fun i _ => List.getElem?_eq_getElem _
  refine .v4 hfirst (hbyte 2 (by omega)) (hbyte 3 (by omega)) hversion ?_ (Bytes.toNat_word16 _ _)
  have hbegins : data[0] = first := Option.some.inj ((hbyte 0 (by omega)).symm.trans hfirst)
  rw [← hbegins, ← Bytes.toNat_lower]
  exact Nat.mul_comm _ _

theorem Enclosed.measured_ofIPv6 {e : Enclosed data} {first : UInt8}
    (hfirst : data[0]? = some first) (hversion : first.toNat / 16 = 6)
    (h : ofIPv6 data = .ok e) : Measured data e.start e.stop := by
  unfold ofIPv6 at h
  split at h
  · cases h
  next hshort =>
  have hlong : 60 ≤ data.length := Nat.le_of_not_lt hshort
  dsimp only at h
  split at h
  · cases h
  cases h
  have hbyte : ∀ i (hi : i < data.length), data[i]? = some data[i] :=
    fun i _ => List.getElem?_eq_getElem _
  simp only [Bytes.toNat_word16]
  exact .v6 hfirst (hbyte 4 (by omega)) (hbyte 5 (by omega)) hversion

theorem Enclosed.measured {e : Enclosed data} (h : find data = .ok e) :
    Measured data e.start e.stop := by
  unfold find at h
  rw [List.head?_eq_getElem?] at h
  cases hfirst : data[0]? with
  | none =>
    rw [hfirst] at h
    cases h
  | some first =>
    rw [hfirst, Option.map_some, Bytes.toNat_upper] at h
    split at h
    · cases h
    · next hversion => exact measured_ofIPv4 hfirst (Option.some.inj hversion) h
    · next hversion => exact measured_ofIPv6 hfirst (Option.some.inj hversion) h
    · cases h

/-- In front of the payload of a segment there is its header. -/
theorem Header.eq_append_payload {segment : Bytes} {header : Header}
    (h : read segment = .ok header) :
    ∃ front offset, segment = front ++ header.payload ∧ front[12]? = some offset ∧
      front.length = 4 * (offset.toNat / 16) := by
  unfold read at h
  split at h
  · cases h
  next hshort =>
  have hlong : 20 ≤ segment.length := Nat.le_of_not_lt hshort
  dsimp only at h
  split at h
  · cases h
  next hbad =>
  cases h
  simp only [tcpHeaderLength] at hbad
  refine ⟨segment.take ((segment[12] >>> 4).toNat * 4), segment[12], ?_, ?_, ?_⟩
  · have hwhole := Bytes.take_append_slice_append_drop segment
      ((segment[12] >>> 4).toNat * 4) segment.length (by omega)
    rw [List.drop_length, List.append_nil] at hwhole
    exact hwhole.symm
  · rw [List.getElem?_take_of_lt (by omega), List.getElem?_eq_getElem]
  · rw [List.length_take, Nat.min_eq_left (by omega), Bytes.toNat_upper, Nat.mul_comm]

theorem exists_enclosed_of_decode {service : UInt16} {p : Packet}
    (h : decode data service = .ok p) :
    ∃ enclosed header, Enclosed.find data = .ok enclosed ∧
      Header.read enclosed.segment = .ok header ∧ p.payload = header.payload := by
  unfold decode at h
  cases hfind : Enclosed.find data with
  | error e =>
    rw [hfind] at h
    cases h
  | ok enclosed =>
    cases hread : Header.read enclosed.segment with
    | error e =>
      simp only [hfind, hread, bind, Except.bind] at h
      cases h
    | ok header =>
      simp only [hfind, hread, bind, Except.bind] at h
      split at h
      · cases h
      · cases h
        exact ⟨enclosed, header, rfl, hread, rfl⟩

theorem dissected_of_decode {service : UInt16} {p : Packet} (h : decode data service = .ok p) :
    ∃ ipHeader tcpHeader rest, Dissected data ipHeader tcpHeader p.payload rest := by
  obtain ⟨e, header, hfind, hread, hpayload⟩ := exists_enclosed_of_decode h
  obtain ⟨front, offset, hsegment, hoffset, hfront⟩ := Header.eq_append_payload hread
  rw [← hpayload] at hsegment
  have hwhole := Bytes.take_append_slice_append_drop data e.start e.stop e.inside
  have hstart : (data.take e.start).length = e.start := by
    have hinside := e.inside
    rw [List.length_take]
    omega
  have hstop : (data.take e.start ++ e.segment).length = e.stop := by
    have hinside := e.inside
    rw [List.length_append, hstart, Enclosed.segment, Bytes.length_slice]
    omega
  rw [← Enclosed.segment, hsegment] at hwhole
  rw [hsegment] at hstop
  refine ⟨data.take e.start, front, data.drop e.stop, ?_, ?_, offset, hoffset, hfront⟩
  · rw [List.append_assoc (data.take e.start)]
    exact hwhole.symm
  · rw [List.append_assoc, hstart, hstop]
    exact Enclosed.measured hfind

/-- Whatever a datagram is, every byte that decoding looks at is there and every cut it makes is
possible.  If there is a packet in the datagram, its payload is what lies between two headers
and a rest, each as long as the fields of the datagram tell. -/
theorem decoded_within_bounds (data : Bytes) (service : UInt16) :
    decode? data service = some (decode data service) ∧
      ∀ p, decode data service = .ok p →
        ∃ ipHeader tcpHeader rest, Dissected data ipHeader tcpHeader p.payload rest :=
  ⟨decode?_eq data service, fun _ h => dissected_of_decode h⟩

/-- A datagram with options in both headers, three bytes of payload and a byte behind them. -/
def paddedDatagram (declared : UInt8) : Bytes :=
  [0x46, 0, 0, declared, 0, 0, 0, 0, 64, 6, 0, 0, 10, 0, 0, 1, 10, 0, 0, 2, 1, 1, 1, 0,
    0, 80, 0, 7, 0, 0, 0, 1, 0, 0, 0, 1, 0x60, 16, 0, 0, 0, 0, 0, 0, 1, 1, 1, 0, 97, 98, 99, 0]

/-- The byte behind the payload belongs to it if the declared length does not even cover the
header that declares it. -/
theorem decoded_within_bounds_padded :
    ∃ p q, decode (paddedDatagram 51) 7 = .ok p ∧ decode (paddedDatagram 23) 7 = .ok q ∧
      p.payload = [97, 98, 99] ∧ q.payload = [97, 98, 99, 0] ∧
      (∃ ipHeader tcpHeader rest,
        Dissected (paddedDatagram 51) ipHeader tcpHeader p.payload rest) ∧
      ∃ ipHeader tcpHeader rest,
        Dissected (paddedDatagram 23) ipHeader tcpHeader q.payload rest := by
  obtain ⟨p, hp⟩ : ∃ p, decode (paddedDatagram 51) 7 = .ok p := ⟨_, rfl⟩
  obtain ⟨q, hq⟩ : ∃ q, decode (paddedDatagram 23) 7 = .ok q := ⟨_, rfl⟩
  refine ⟨p, q, hp, hq, ?_, ?_, (decoded_within_bounds _ 7).2 p hp,
    (decoded_within_bounds _ 7).2 q hq⟩
  · cases hp
    rfl
  · cases hq
    rfl

end Packet

end StreamTap
