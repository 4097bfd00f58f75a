import StreamTap.Proofs.Wire.Encoding

/-!
# Written datagrams are read back

Decoding a datagram that was written, whatever a link layer has put behind it, gives the packet
back (`decode_encode`): the addresses, ports and numbers as they were, the six flags of the
control byte, and the payload without the padding.  Only a service whose port is neither of the
two gets an error.

The proof follows the steps of `decode`.  Every byte that these look at is known, because what
lies before the options has a fixed length (`Bytes.getElem_eq`), and every cut they make falls on
a seam of what was written (`Bytes.slice_eq`).
-/

namespace StreamTap

namespace Bytes

theorem getElem_eq {data known : Bytes} (hdata : data = known) {i : Nat} {b : UInt8}
    (h : known[i]? = some b) (hi : i < data.length) : data[i] = b := by
  subst hdata
  exact (List.getElem_eq_iff hi).2 h

theorem slice_eq {data a b c : Bytes} (hdata : data = a ++ b ++ c) {start stop : Nat}
    (hstart : start = a.length) (hstop : stop = a.length + b.length)
    (h : start ≤ stop ∧ stop ≤ data.length) : data.slice start stop h = b := by
  subst hdata hstart hstop
  rw [slice, ← List.length_append, List.take_left, List.drop_left]

end Bytes

namespace Packet

/-! ## The header of the segment -/

/-- What the header of a segment tells when it is read. -/
def Header.ofSegment (s : TCPSegment) : Header where
  sourcePort := s.sourcePort
  destinationPort := s.destinationPort
  seq := s.seq
  ack := s.ack
  flags := .ofByte s.control
  payload := s.payload

theorem Header.read_encode (s : TCPSegment) : Header.read s.encode = .ok (.ofSegment s) := by
  obtain ⟨data, hdata⟩ : ∃ data, data = s.encode := ⟨_, rfl⟩
  have hlength : data.length = 4 * s.options.headerWords + s.payload.length := by
    rw [hdata, s.length_encode]
  have hlong : 20 ≤ data.length := hdata ▸ s.le_length_encode
  have hwords : (data[12] >>> 4).toNat * 4 = 4 * s.options.headerWords := by
    rw [Bytes.getElem_eq hdata (i := 12) rfl, Bytes.toNat_upper_ofHalves, Nat.mul_comm]
  have hshort : ¬data.length < tcpHeaderLength := Nat.not_lt_of_le hlong
  have hbad : ¬((data[12] >>> 4).toNat * 4 < tcpHeaderLength ∨
      data.length < (data[12] >>> 4).toNat * 4) := by
    simp only [hwords, hlength, HeaderOptions.headerWords, tcpHeaderLength]
    omega
  rw [← hdata]
  simp only [Header.read]
  rw [dif_neg hshort, dif_neg hbad]
  simp only [Header.ofSegment, Except.ok.injEq, Header.mk.injEq]
  refine ⟨?_, ?_, ?_, ?_, ?_, ?_⟩
  · rw [Bytes.getElem_eq hdata (i := 0) rfl, Bytes.getElem_eq hdata (i := 1) rfl,
      Bytes.word16_ofWord16]
  · rw [Bytes.getElem_eq hdata (i := 2) rfl, Bytes.getElem_eq hdata (i := 3) rfl,
      Bytes.word16_ofWord16]
  · rw [Bytes.getElem_eq hdata (i := 4) rfl, Bytes.getElem_eq hdata (i := 5) rfl,
      Bytes.getElem_eq hdata (i := 6) rfl, Bytes.getElem_eq hdata (i := 7) rfl,
      Bytes.word32_ofWord32]
  · rw [Bytes.getElem_eq hdata (i := 8) rfl, Bytes.getElem_eq hdata (i := 9) rfl,
      Bytes.getElem_eq hdata (i := 10) rfl, Bytes.getElem_eq hdata (i := 11) rfl,
      Bytes.word32_ofWord32]
  · rw [Bytes.getElem_eq hdata (i := 13) rfl]
  · refine Bytes.slice_eq (a := s.header) (c := []) ?_ ?_ ?_ _
    · rw [hdata, List.append_nil, TCPSegment.encode]
    · rw [hwords, s.length_header]
    · rw [hlength, s.length_header]

/-! ## The segment is found -/

section Find

variable {padding : Bytes}

theorem Enclosed.ofIPv4_encode (d : IPv4Datagram) :
    ∃ e, ofIPv4 (d.header ++ d.segment.encode ++ padding) = .ok e ∧
      e.segment = d.segment.encode ∧ e.source = .v4 d.source ∧
      e.destination = .v4 d.destination := by
  obtain ⟨data, hdata⟩ : ∃ data, data = d.header ++ d.segment.encode ++ padding := ⟨_, rfl⟩
  have hlength : data.length = d.length + padding.length := by
    rw [hdata, List.length_append, List.length_append, d.length_header, IPv4Datagram.length]
  have hsegment := d.segment.le_length_encode
  have hlong : 20 ≤ data.length := by
    rw [hlength, IPv4Datagram.length]
    omega
  have hstart : (data[0] &&& 0x0f).toNat * 4 = 4 * d.options.headerWords := by
    rw [Bytes.getElem_eq hdata (i := 0) rfl, Bytes.toNat_lower_ofHalves, Nat.mul_comm]
  have hheader : ¬((data[0] &&& 0x0f).toNat * 4 < 20 ∨
      data.length < (data[0] &&& 0x0f).toNat * 4 + tcpHeaderLength) := by
    simp only [hstart, hlength, IPv4Datagram.length, HeaderOptions.headerWords, tcpHeaderLength]
    omega
  have hprotocol : data[9] = tcp := Bytes.getElem_eq hdata (i := 9) rfl _
  have hdeclared : (Bytes.word16 data[2] data[3]).toNat = d.length := by
    rw [Bytes.getElem_eq hdata (i := 2) rfl, Bytes.getElem_eq hdata (i := 3) rfl,
      Bytes.word16_ofWord16]
    exact UInt16.toNat_ofNat_of_lt' d.fits
  have hplausible : (data[0] &&& 0x0f).toNat * 4 ≤ (Bytes.word16 data[2] data[3]).toNat ∧
      (Bytes.word16 data[2] data[3]).toNat ≤ data.length := by
    rw [hstart, hdeclared, hlength, IPv4Datagram.length]
    omega
  rw [← hdata]
  simp only [ofIPv4]
  rw [dif_neg (Nat.not_lt_of_le hlong), dif_neg hheader, if_neg (not_not_intro hprotocol)]
  refine ⟨_, rfl, ?_, ?_, ?_⟩
  · refine Bytes.slice_eq hdata ?_ ?_ _
    · exact hstart.trans d.length_header.symm
    · refine (if_pos hplausible).trans ?_
      rw [hdeclared, d.length_header, IPv4Datagram.length]
  · simp only [Bytes.getElem_eq hdata (i := 12) rfl, Bytes.getElem_eq hdata (i := 13) rfl,
      Bytes.getElem_eq hdata (i := 14) rfl, Bytes.getElem_eq hdata (i := 15) rfl]
  · simp only [Bytes.getElem_eq hdata (i := 16) rfl, Bytes.getElem_eq hdata (i := 17) rfl,
      Bytes.getElem_eq hdata (i := 18) rfl, Bytes.getElem_eq hdata (i := 19) rfl]

theorem ipv6OfBytes_bytes (a : IPv6) : ipv6OfBytes a.bytes = a := by
  have hgroups : ∀ gs : List UInt16, ipv6OfBytes.groups (gs.flatMap Bytes.ofWord16) = gs := by
    intro gs
    induction gs with
    | nil => rfl
    | cons g gs ih =>
      rw [List.flatMap_cons, Bytes.ofWord16, List.cons_append, List.cons_append, List.nil_append,
        ipv6OfBytes.groups, Bytes.word16_ofWord16, ih]
  rw [ipv6OfBytes, IPv6.bytes, hgroups, IPv6.mk.injEq, IPv6.groups_ofGroups a.length_groups]

theorem Enclosed.ofIPv6_encode (d : IPv6Datagram) :
    ∃ e, ofIPv6 (d.header ++ d.segment.encode ++ padding) = .ok e ∧
      e.segment = d.segment.encode ∧ e.source = .v6 d.source 0 ∧
      e.destination = .v6 d.destination 0 := by
  obtain ⟨data, hdata⟩ : ∃ data, data = d.header ++ d.segment.encode ++ padding := ⟨_, rfl⟩
  have hlength : data.length = 40 + d.segment.encode.length + padding.length := by
    rw [hdata, List.length_append, List.length_append, d.length_header]
  have hsegment := d.segment.le_length_encode
  have hlong : 60 ≤ data.length := by omega
  have hshort : ¬data.length < ipv6HeaderLength + tcpHeaderLength := Nat.not_lt_of_le hlong
  have hprotocol : data[6] = tcp := Bytes.getElem_eq hdata (i := 6) rfl _
  have hdeclared : (Bytes.word16 data[4] data[5]).toNat = d.segment.encode.length := by
    rw [Bytes.getElem_eq hdata (i := 4) rfl, Bytes.getElem_eq hdata (i := 5) rfl,
      Bytes.word16_ofWord16]
    exact UInt16.toNat_ofNat_of_lt' d.fits
  rw [← hdata]
  simp only [ofIPv6]
  rw [dif_neg hshort, if_neg (not_not_intro hprotocol)]
  refine ⟨_, rfl, ?_, ?_, ?_⟩
  · refine Bytes.slice_eq hdata ?_ ?_ _
    · exact d.length_header.symm
    · simp only [hdeclared, hlength, d.length_header, ipv6HeaderLength]
      omega
  · have hslice : data = d.front ++ d.source.bytes
        ++ (d.destination.bytes ++ d.segment.encode ++ padding) := by
      simp only [hdata, IPv6Datagram.header, List.append_assoc]
    simp only [Host.v6.injEq, and_true]
    rw [Bytes.slice_eq hslice d.length_front.symm (by rw [d.source.length_bytes, d.length_front]),
      ipv6OfBytes_bytes]
  · have hslice : data = d.front ++ d.source.bytes ++ d.destination.bytes
        ++ (d.segment.encode ++ padding) := by
      simp only [hdata, IPv6Datagram.header, List.append_assoc]
    simp only [Host.v6.injEq, and_true]
    rw [Bytes.slice_eq hslice _ _, ipv6OfBytes_bytes]
    · rw [List.length_append, d.source.length_bytes, d.length_front]
    · rw [List.length_append, d.source.length_bytes, d.length_front, d.destination.length_bytes]

end Find

/-! ## Decoding -/

/-- The packet that a datagram is, when it travels in the given direction. -/
def ofDatagram (d : Datagram) (direction : Direction) : Packet where
  source := ⟨d.source, d.segment.sourcePort⟩
  destination := ⟨d.destination, d.segment.destinationPort⟩
  seq := d.segment.seq
  ack := d.segment.ack
  flags := .ofByte d.segment.control
  payload := d.segment.payload
  direction

theorem Enclosed.find_encode (d : Datagram) (padding : Bytes) :
    ∃ e, find (d.encode ++ padding) = .ok e ∧ e.segment = d.segment.encode ∧
      e.source = d.source ∧ e.destination = d.destination := by
  cases d with
  | v4 d =>
    have hversion : (Bytes.ofHalves 4 d.options.headerWords >>> 4).toNat = 4 :=
      Bytes.toNat_upper_ofHalves 4 _
    have hhead : (d.header ++ d.segment.encode ++ padding).head? =
        some (Bytes.ofHalves 4 d.options.headerWords) := rfl
    simp only [find, Datagram.encode, hhead, Option.map_some, hversion]
    exact ofIPv4_encode d
  | v6 d =>
    have hversion : (Bytes.ofHalves 6 d.upperClass >>> 4).toNat = 6 :=
      Bytes.toNat_upper_ofHalves 6 _
    have hhead : (d.header ++ d.segment.encode ++ padding).head? =
        some (Bytes.ofHalves 6 d.upperClass) := rfl
    simp only [find, Datagram.encode, hhead, Option.map_some, hversion]
    exact ofIPv6_encode d

/-- The six flags are the six low bits of the control byte. -/
theorem toByte_ofByte (b : UInt8) : (Flags.ofByte b).toByte = b &&& 0x3f := by
  have hall : ∀ n < UInt8.size,
      (Flags.ofByte (UInt8.ofNat n)).toByte = UInt8.ofNat n &&& 0x3f := by
    decide +kernel
  have hb := hall b.toNat b.toNat_lt
  rwa [UInt8.ofNat_toNat] at hb

/-- A datagram that was written and padded is read as the packet that was written, seen by a
service at one of its ports; seen by any other service it is turned away.  No flag is lost: the
control byte without its two high bits can be told from the flags. -/
theorem decode_encode (d : Datagram) (padding : Bytes) (service : UInt16) :
    decode (d.encode ++ padding) service =
        (if d.segment.destinationPort = service then .ok (ofDatagram d .inbound)
        else if d.segment.sourcePort = service then .ok (ofDatagram d .outbound)
        else .error (.unrelatedPorts d.segment.sourcePort d.segment.destinationPort service)) ∧
      ∀ direction, (ofDatagram d direction).flags.toByte = d.segment.control &&& 0x3f := by
  refine ⟨?_, fun _ => toByte_ofByte _⟩
  obtain ⟨e, hfind, hsegment, hsource, hdestination⟩ := Enclosed.find_encode d padding
  simp only [decode, hfind, hsegment, hsource, hdestination, Header.read_encode, bind, Except.bind,
    directionOf, Header.ofSegment]
  by_cases hto : d.segment.destinationPort = service
  · simp only [if_pos hto]
    rfl
  · by_cases hfrom : d.segment.sourcePort = service
    · simp only [if_neg hto, if_pos hfrom]
      rfl
    · simp only [if_neg hto, if_neg hfrom]

end Packet

end StreamTap
