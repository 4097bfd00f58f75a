import StreamTap.Proofs.Stream.Rebase
import StreamTap.Proofs.Tracker.Reconstruction

/-!
# When the preface may be left out

A payload that begins with the preface is brought without it, by a rebase and a write of the
rest.  Most of the time the reader sees what it would see if the whole payload were written and
the preface dropped from what comes out.  The one exception is a segment that is parked exactly
behind the preface while the stream goes on further behind the payload than behind this segment
(`preface_left_out_iff`): the rebase sends the segment on, and the rest of the payload, which
holds more, is refused as coming from behind (`rest_refused_behind_preface`).
-/

namespace StreamTap

namespace Tracker

/-- An inbound packet with the first bytes of a stream, among them the preface.  Window, parked
bytes and payload together are less than half the circle of sequence numbers. -/
structure BringsPreface (S : Nat → UInt8) (b : Buffer) (p : Packet) : Prop where
  inbound : p.direction = .inbound
  seq : p.seq = b.expected
  slice : p.payload = stretch S 0 p.payload.length
  begins : preface <+: p.payload
  limit : b.window.toNat + b.parked.bytes + p.payload.length < halfCircle

variable {S : Nat → UInt8} {flow : Flow} {place : Nat} {pair : Pair} {t : Tracker} {p : Packet}

theorem BringsPreface.inboundWrites_eq {b : Buffer} {rest : Bytes} (h : BringsPreface S b p)
    (hbuffer : AtBeginning S b) (hrest : p.payload = preface ++ rest) :
    inboundWrites b p.seq p.payload = writesBehind b.expected preface rest := by
  have hopens : opensStream b p.seq p.payload = true := by
    rw [opensStream, List.isPrefixOf_iff_prefix.2 h.begins, hbuffer.undelivered,
      hbuffer.published, h.seq, beq_self_eq_true, beq_self_eq_true]
    rfl
  rw [inboundWrites, hopens, if_pos rfl, hrest, List.drop_left, h.seq]
  rfl

/-- Handling the packet agrees with writing its payload as it is, but for the preface, exactly
when no segment is parked behind the preface or the stream goes on as far from there as it does
behind the payload. -/
theorem preface_left_out_iff (hwatched : Watched flow place pair t) (hflow : p.connection = flow)
    (hbuffer : AtBeginning S pair.inbound) (hpacket : BringsPreface S pair.inbound p)
    (hidle : (t.handle p).isIdle = true)
    (hplain : (pair.inbound.write (.add p.seq p.payload)).sending = none) :
    ∃ pair', (t.handle p).pairOf? flow = some (place, pair') ∧
      (AgreesBehind preface.length (pair.inbound.write (.add p.seq p.payload)) pair'.inbound ↔
        Layout.entry? pair.inbound.layout preface.length = none ∨
          pair.inbound.layout.reach preface.length =
            pair.inbound.layout.reach p.payload.length) := by
  obtain ⟨rest, hrest⟩ := hpacket.begins
  have hwrites := hpacket.inboundWrites_eq hbuffer hrest.symm
  have hhead : preface ≠ [] := by decide
  have hpayload : p.hasPayload = true := by
    rw [Packet.hasPayload, ← hrest]
    rfl
  have hbuffer' : pair.buffer p.direction = pair.inbound := by
    rw [hpacket.inbound]
    rfl
  obtain ⟨hunhindered, hcarried⟩ := hwatched.carried hflow hpayload
    (by rw [hbuffer']; exact hbuffer.quiet) (Option.isNone_iff_eq_none.1 hidle)
  rw [hbuffer', payloadWrites, hpacket.inbound] at hunhindered hcarried
  simp only [hwrites] at hunhindered hcarried
  refine ⟨_, pairOf?_eq_some_iff.2 ⟨hcarried.registered, hcarried.pair⟩, ?_⟩
  have hslice := hpacket.slice
  have hlimit := hpacket.limit
  rw [hpacket.seq, ← hrest] at hplain ⊢
  rw [← hrest] at hslice hlimit
  exact rebased_as_plain_iff hbuffer hhead hslice hlimit hplain hunhindered

/-! ## A segment that comes before the first packet -/

/-- The client's stream. -/
def spelled : Nat → UInt8 := fun i => (preface ++ [65, 66, 67, 68]).getD i 0

def prefaced : Packet := spoken 4000 .inbound 4294967290 .ackAlone (preface ++ [65, 66, 67])

/-- The tracker that has seen the client's handshake and then a segment of its stream. -/
def greetedThen (seq : Seq) (payload : Bytes) : Tracker :=
  (((ofSettings {} none).course greeting).handle greeted).handle
    (spoken 4000 .inbound seq .ackAlone payload)

def waiting (seq : Seq) (payload : Bytes) : Pair :=
  { Pair.opened greeted.connection 4294967290 4294967294 {} with
    inbound := ((History.ofBuffer (.startingAt 4294967290 65536 1024)).run
      [.start 0 (.write (.add seq payload)), .move 0]).buffer }

theorem filed_greetedThen (seq : Seq) (payload : Bytes) : Filed (greetedThen seq payload) :=
  (Orderly.handle _ _).filed ((Orderly.handle _ _).filed
    ((Orderly.course _ greeting).filed (.ofSettings {} none)))

theorem atBeginning_waiting {seq : Seq} {payload : Bytes} {o : Nat}
    (hparked : (waiting seq payload).inbound.parked.segments = [⟨seq, payload⟩])
    (hquiet : (waiting seq payload).inbound.isClosed = false ∧
      (waiting seq payload).inbound.sending = none ∧ (waiting seq payload).inbound.delivered = 0)
    (hseq : seq = (waiting seq payload).inbound.expected.advance o)
    (hnear : o ≤ (waiting seq payload).inbound.window.toNat)
    (hslice : payload = stretch spelled o payload.length) :
    AtBeginning spelled (waiting seq payload).inbound := by
  refine ⟨⟨_, _, _, _, rfl⟩, hquiet.1, hquiet.2.1, hquiet.2.2, ?_⟩
  intro t q hq
  rw [← Parked.mem_segments_iff _ ⟨t, q⟩, hparked, List.mem_singleton] at hq
  cases hq
  exact ⟨o, hseq, hnear, hslice⟩

/-- A segment that starts within the rest of the payload makes no difference. -/
theorem preface_left_out_iff_within :
    ∃ pair', ((greetedThen 20 [67, 68]).handle prefaced).pairOf? prefaced.connection =
        some (0, pair') ∧
      AgreesBehind preface.length
        ((waiting 20 [67, 68]).inbound.write (.add prefaced.seq prefaced.payload))
        pair'.inbound := by
  have hwatched : Watched prefaced.connection 0 (waiting 20 [67, 68]) (greetedThen 20 [67, 68]) :=
    ⟨filed_greetedThen _ _, by decide, by decide, by decide, by decide⟩
  have hbuffer : AtBeginning spelled (waiting 20 [67, 68]).inbound :=
    atBeginning_waiting (o := 26) (by decide) (by decide) (by decide) (by decide) (by decide)
  obtain ⟨pair', hpair', hagrees⟩ := preface_left_out_iff hwatched rfl hbuffer
    ⟨by decide, by decide, by decide, by decide, by decide⟩ (by decide) (by decide)
  exact ⟨pair', hpair', hagrees.2 (Or.inl (by decide))⟩

/-- When the first byte behind the preface waits, the other two are refused. -/
theorem rest_refused_behind_preface :
    Watched prefaced.connection 0 (waiting 18 [65]) (greetedThen 18 [65]) ∧
      AtBeginning spelled (waiting 18 [65]).inbound ∧
      BringsPreface spelled (waiting 18 [65]).inbound prefaced ∧
      ∃ pair', ((greetedThen 18 [65]).handle prefaced).pairOf? prefaced.connection =
          some (0, pair') ∧
        pair'.inbound.handoff.items.flatten = [65] ∧
        ¬AgreesBehind preface.length
          ((waiting 18 [65]).inbound.write (.add prefaced.seq prefaced.payload))
          pair'.inbound := by
  refine ⟨⟨filed_greetedThen _ _, by decide, by decide, by decide, by decide⟩,
    atBeginning_waiting (o := 24) (by decide) (by decide) (by decide) (by decide) (by decide),
    ⟨by decide, by decide, by decide, by decide, by decide⟩, ?_⟩
  exact ⟨_, rfl, by decide, by decide⟩

end Tracker

end StreamTap
