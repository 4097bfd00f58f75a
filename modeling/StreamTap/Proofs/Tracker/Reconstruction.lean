import StreamTap.Proofs.Tracker.Routing

/-!
# Both streams of a connection are reconstructed

From the moment a connection is established, its packets bring two streams, cut into
segments.  They may come in any order, each as often as one likes, and among any packets of
other connections.  As long as none has to wait, the bytes that can be read from the pair are
in the end exactly the two streams (`reconstructed`).

The one complication is the preface.  While the first segment of the client has not come, the
buffer waits at its beginning and parks what follows.  When it comes, the buffer is told to go
on behind the preface, and from then on it assembles another layout: the stream without these
bytes.  So the parked segments are assembled in that layout from the start, which has nothing
at offset zero; and when the first segment comes once more, it lies behind the front.
-/

namespace StreamTap

namespace Tracker

/-- A buffer with a given window whose hand-off holds what has left it, while it assembles a
layout. -/
structure Gathers (m : Layout) (s : Seq) (base : Nat) (window : UInt32) (arrived : List Nat)
    (b : Buffer) : Prop where
  window : b.window = window
  assembling : Assembling m s base arrived b.handoff.items b

/-- A packet that brings a segment of a layout, or one from before the chain. -/
structure Fits (m : Layout) (s : Seq) (base : Nat) (window : UInt32) (p : Packet) : Prop where
  nonempty : p.payload ≠ []
  segment : ∃ o, p.seq = s.advance o ∧ o ≤ base + window.toNat ∧
    (base ≤ o → m.entry? o = some p.payload)

namespace Fed

variable {capture : Bool} {b b' : Buffer} {ps : List Packet}

theorem of_nothing (h : Fed capture b ps b')
    (hnothing : ∀ p ∈ ps, ∀ c, payloadWrites capture c p = []) : b' = b := by
  induction h with
  | nil => rfl
  | @cons b b' p ps _ _ ih =>
    rw [hnothing p List.mem_cons_self] at ih
    exact ih fun q hq => hnothing q (List.mem_cons_of_mem p hq)

/-- While payload is written as it comes, the segments that packets bring arrive. -/
theorem gathers {m : Layout} {s : Seq} {base : Nat} {window : UInt32} {arrived : List Nat}
    (hfed : Fed capture b ps b') (h : Gathers m s base window arrived b)
    (hround : base + window.toNat < UInt32.size)
    (hplain : ∀ p ∈ ps, ∀ arrived c, Gathers m s base window arrived c →
      payloadWrites capture c p = [.add p.seq p.payload])
    (hfits : ∀ p ∈ ps, Fits m s base window p) :
    ∃ arrived', Gathers m s base window arrived' b' ∧ (∀ o ∈ arrived, o ∈ arrived') ∧
      ∀ p ∈ ps, ∀ o, p.seq = s.advance o → o ≤ base + window.toNat → o ∈ arrived' := by
  induction hfed generalizing arrived with
  | nil b =>
    refine ⟨arrived, h, fun _ ho => ho, ?_⟩
    intro p hp
    cases hp
  | @cons b b' p ps hunhindered _ ih =>
    rw [hplain p List.mem_cons_self arrived b h] at hunhindered ih
    obtain ⟨hpayload, o, hseq, hnear, hentry⟩ := hfits p List.mem_cons_self
    have hwritten : Gathers m s base window (arrived ++ [o]) (b.write (.add p.seq p.payload)) := by
      refine ⟨(b.window_write hunhindered.sending _).trans h.window, ?_⟩
      rw [hseq]
      exact h.assembling.write_add hunhindered.sending hpayload hentry (h.window.symm ▸ hnear)
    obtain ⟨arrived', hgathers, hold, hnew⟩ := ih hwritten
      (fun q hq => hplain q (List.mem_cons_of_mem p hq))
      (fun q hq => hfits q (List.mem_cons_of_mem p hq))
    refine ⟨arrived', hgathers, fun n hn => hold n (List.mem_append_left _ hn), ?_⟩
    intro q hq n hn hle
    rcases List.mem_cons.1 hq with rfl | hq
    · have hsame : n = o := by
        rw [hseq] at hn
        exact (s.eq_of_advance_eq hn (by omega) (by omega)).symm
      exact hold n (hsame ▸ List.mem_append_right _ List.mem_cons_self)
    · exact hnew q hq n hn hle

end Fed

/-! ## Streams and the packets that bring them -/

/-- A stream cut into segments, each of which starts in the window of the stream's first byte;
stream and window together are less than one round of the sequence numbers. -/
structure Cut (window : UInt32) (segments : List Bytes) : Prop where
  nonempty : ∀ q ∈ segments, q ≠ []
  near : ∀ {o q}, Layout.startingAt 0 segments o = some q → o ≤ window.toNat
  limit : total List.length segments + window.toNat < UInt32.size

/-- Packets that bring the segments of a stream that begins at number `s`, and each of them at
least once. -/
structure Brings (s : Seq) (segments : List Bytes) (ps : List Packet) : Prop where
  segment : ∀ p ∈ ps, ∃ o, Layout.startingAt 0 segments o = some p.payload ∧ p.seq = s.advance o
  all : ∀ {o q}, Layout.startingAt 0 segments o = some q → ∃ p ∈ ps, p.seq = s.advance o

namespace Cut

variable {window : UInt32} {segments : List Bytes}

theorem round (h : Cut window segments) : 0 + window.toNat < UInt32.size := by
  have hlimit := h.limit
  omega

def layout (h : Cut window segments) : Layout := .ofSegments 0 segments h.nonempty

theorem chain_layout (h : Cut window segments) : h.layout.chain 0 = segments :=
  Layout.chain_ofSegments 0 segments h.nonempty

end Cut

section Streams

variable {capture : Bool} {s : Seq} {window : UInt32} {capacity : Nat} {segments : List Bytes}
  {b : Buffer} {ps : List Packet}

theorem Gathers.startingAt {m : Layout} (s : Seq) (capacity : Nat)
    (hlimit : m.reach 0 + window.toNat < UInt32.size) :
    Gathers m s 0 window [] (.startingAt s window capacity) := by
  have hassembling : Assembling m s 0 [] [] (.startingAt (s.advance 0) window capacity) :=
    .startingAt capacity hlimit
  rw [s.advance_zero] at hassembling
  exact ⟨rfl, hassembling⟩

theorem Gathers.complete {m : Layout} {base : Nat} {arrived : List Nat}
    (h : Gathers m s base window arrived b) (hsending : b.sending = none)
    (hall : ∀ o q, m.entry? o = some q → o ∈ arrived) : b.handoff.items = m.chain base := by
  refine (h.assembling.complete hsending fun o ho => ?_).1
  obtain ⟨q, hq⟩ := m.mem_offsets_iff.1 ho
  exact hall o q hq

/-- Where all payload is written as it comes, the hand-off holds the segments in the end. -/
theorem items_of_plain (hcut : Cut window segments) (hbrings : Brings s segments ps)
    (hfed : Fed capture (.startingAt s window capacity) ps b)
    (hplain : ∀ p ∈ ps, ∀ c, payloadWrites capture c p = [.add p.seq p.payload]) :
    b.handoff.items = segments := by
  have hlimit : hcut.layout.reach 0 + window.toNat < UInt32.size := by
    have hlimit := hcut.limit
    rw [Layout.reach, hcut.chain_layout]
    omega
  have hfits : ∀ p ∈ ps, Fits hcut.layout s 0 window p := by
    intro p hp
    obtain ⟨o, hentry, hseq⟩ := hbrings.segment p hp
    exact ⟨hcut.nonempty _ (Layout.mem_of_startingAt hentry), o, hseq,
      Nat.le_trans (hcut.near hentry) (Nat.le_add_left ..), fun _ => hentry⟩
  obtain ⟨arrived, hgathers, -, hnew⟩ :=
    hfed.gathers (.startingAt s capacity hlimit) hcut.round (fun p hp _ c _ => hplain p hp c) hfits
  rw [hgathers.complete (hfed.sending rfl), hcut.chain_layout]
  intro o q hq
  obtain ⟨p, hp, hseq⟩ := hbrings.all hq
  exact hnew p hp o hseq (Nat.le_trans (hcut.near hq) (Nat.le_add_left ..))

end Streams

/-! ## The preface -/

theorem length_preface : preface.length = 24 := rfl

theorem inboundWrites_of_not {b : Buffer} {seq : Seq} {payload : Bytes}
    (h : opensStream b seq payload = false) : inboundWrites b seq payload = [.add seq payload] := by
  rw [inboundWrites, h, if_neg Bool.false_ne_true]

theorem opensStream_of_not_isPrefixOf {b : Buffer} {seq : Seq} {payload : Bytes}
    (h : preface.isPrefixOf payload = false) : opensStream b seq payload = false := by
  simp [opensStream, h]

theorem opensStream_of_published_ne {b : Buffer} {seq : Seq} {payload : Bytes}
    (h : b.published ≠ seq) : opensStream b seq payload = false := by
  simp [opensStream, h]

section Preface

variable {capture : Bool} {s : Seq} {window : UInt32} {capacity : Nat} {rest : Bytes}
  {others : List Bytes} {b b' : Buffer} {p : Packet} {ps : List Packet}

/-- The layout behind the preface of a stream whose first segment is the preface and `rest`. -/
def layoutBehind (hcut : Cut window ((preface ++ rest) :: others)) : Layout :=
  .ofSegments preface.length (Layout.behindCut rest others)
    (Layout.nonempty_behindCut fun q hq => hcut.nonempty q (List.mem_cons_of_mem _ hq))

variable (hcut : Cut window ((preface ++ rest) :: others))

theorem layoutBehind_eq_some_iff {o : Nat} {q : Bytes} :
    Layout.entry? (layoutBehind hcut) o = some q ↔ (rest ≠ [] ∧ o = preface.length ∧ q = rest) ∨
      Layout.startingAt (preface ++ rest).length others o = some q := by
  rw [List.length_append]
  exact Layout.startingAt_behindCut_iff

theorem layoutBehind_of_startingAt {o : Nat} {q : Bytes} (ho : o ≠ 0)
    (h : Layout.startingAt 0 ((preface ++ rest) :: others) o = some q) :
    Layout.entry? (layoutBehind hcut) o = some q := by
  rw [Layout.startingAt, if_neg ho, Nat.zero_add] at h
  exact (layoutBehind_eq_some_iff hcut).2 (Or.inr h)

theorem layoutBehind_zero : Layout.entry? (layoutBehind hcut) 0 = none := by
  cases h : Layout.entry? (layoutBehind hcut) 0 with
  | none => rfl
  | some q =>
    have hle := (Layout.le_of_startingAt h).1
    rw [length_preface] at hle
    omega

theorem limit_layoutBehind :
    (layoutBehind hcut).reach preface.length + window.toNat < UInt32.size := by
  have hlimit := hcut.limit
  have hflatten := congrArg List.length (Layout.flatten_behindCut rest others)
  rw [List.length_append, ← total_length_eq, ← total_length_eq] at hflatten
  rw [Layout.reach, layoutBehind, Layout.chain_ofSegments]
  rw [total_cons, List.length_append] at hlimit
  omega

/-- When the first segment comes for the first time the buffer goes on behind the preface. -/
theorem gathers_behind {arrived : List Nat}
    (h : Gathers (layoutBehind hcut) s 0 window arrived b) (hdirection : p.direction = .inbound)
    (hseq : p.seq = s.advance 0) (hpayload : p.payload = preface ++ rest)
    (hunhindered : b.Unhindered (payloadWrites capture b p)) :
    ∃ arrived', Gathers (layoutBehind hcut) s preface.length window arrived'
        ((payloadWrites capture b p).foldl Buffer.write b) ∧
      (∀ o ∈ arrived, o ∈ arrived') ∧ (rest ≠ [] → preface.length ∈ arrived') := by
  have hvoid := layoutBehind_zero hcut
  have hlimit := limit_layoutBehind hcut
  obtain ⟨hitems, hpublished, hdelivered⟩ := h.assembling.untouched hvoid
  have hopens : opensStream b (s.advance 0) (preface ++ rest) = true := by
    have hbegins : preface.isPrefixOf (preface ++ rest) = true :=
      List.isPrefixOf_iff_prefix.2 (List.prefix_append ..)
    simp only [opensStream, hbegins, hdelivered, hpublished, beq_self_eq_true, Bool.and_self]
  have hwrites : payloadWrites capture b p =
      [.rebase (s.advance preface.length), .add (s.advance preface.length) rest] := by
    simp only [payloadWrites, hdirection, inboundWrites, hpayload, hseq, hopens, if_true,
      Seq.advance_advance, Nat.zero_add, List.drop_left]
  rw [hwrites] at hunhindered ⊢
  have hassembling := h.assembling
  rw [hitems] at hassembling
  have hrebased : Gathers (layoutBehind hcut) s preface.length window arrived
      (b.write (.rebase (s.advance preface.length))) :=
    ⟨(b.window_write hunhindered.1 _).trans h.window,
      hassembling.write_rebase hitems hunhindered.1 hvoid (Nat.zero_le _) (h.window ▸ hlimit)⟩
  rw [List.foldl_cons, List.foldl_cons, List.foldl_nil]
  have hnone := hunhindered.2.sending
  by_cases hrest : rest = []
  · have hempty : (Write.add (s.advance preface.length) rest).isVoid = true := by
      rw [hrest]
      rfl
    rw [Buffer.write_of_isVoid _ hempty]
    exact ⟨arrived, hrebased, fun _ ho => ho, fun hne => absurd hrest hne⟩
  · have hentry : Layout.entry? (layoutBehind hcut) preface.length = some rest :=
      (layoutBehind_eq_some_iff hcut).2 (Or.inl ⟨hrest, rfl, rfl⟩)
    exact ⟨arrived ++ [preface.length],
      ⟨(Buffer.window_write _ hnone _).trans hrebased.window,
        hrebased.assembling.write_add hnone hrest (fun _ => hentry) (Nat.le_add_right ..)⟩,
      fun o ho => List.mem_append_left _ ho,
      fun _ => List.mem_append_right _ List.mem_cons_self⟩

/-- A packet that brings the first segment. -/
def BringsFirst (s : Seq) (rest : Bytes) (p : Packet) : Prop :=
  p.seq = s.advance 0 ∧ p.payload = preface ++ rest

/-- A packet that brings a segment other than the first, which is written as it comes. -/
def BringsLater (s : Seq) (p : Packet) : Prop :=
  preface.isPrefixOf p.payload = false ∧
    ∃ o, o ≠ 0 ∧ p.seq = s.advance o ∧ o ≤ window.toNat ∧
      Layout.entry? (layoutBehind hcut) o = some p.payload

theorem bringsFirst_or_later (hbrings : Brings s ((preface ++ rest) :: others) ps)
    (honly : ∀ {o q}, Layout.startingAt 0 ((preface ++ rest) :: others) o = some q →
      preface.isPrefixOf q = true → o = 0) (hp : p ∈ ps) :
    BringsFirst s rest p ∨ BringsLater hcut s p := by
  obtain ⟨o, hentry, hseq⟩ := hbrings.segment p hp
  by_cases ho : o = 0
  · subst ho
    rw [Layout.startingAt, if_pos rfl, Option.some.injEq] at hentry
    exact Or.inl ⟨hseq, hentry.symm⟩
  · refine Or.inr ⟨?_, o, ho, hseq, hcut.near hentry, layoutBehind_of_startingAt hcut ho hentry⟩
    cases hbegins : preface.isPrefixOf p.payload with
    | false => rfl
    | true => exact absurd (honly hentry hbegins) ho

section Later

variable {hcut}

theorem BringsLater.plain (h : BringsLater hcut s p) (hdirection : p.direction = .inbound)
    (c : Buffer) : payloadWrites capture c p = [.add p.seq p.payload] := by
  rw [payloadWrites, hdirection]
  exact inboundWrites_of_not (opensStream_of_not_isPrefixOf h.1)

theorem BringsLater.fits (h : BringsLater hcut s p) (base : Nat) :
    Fits (layoutBehind hcut) s base window p := by
  obtain ⟨-, o, -, hseq, hnear, hentry⟩ := h
  exact ⟨(layoutBehind hcut).nonempty hentry, o, hseq,
    Nat.le_trans hnear (Nat.le_add_left ..), fun _ => hentry⟩

theorem BringsLater.seq_ne (h : BringsLater hcut s p) : p.seq ≠ s.advance 0 := by
  obtain ⟨-, o, ho, hseq, hnear, -⟩ := h
  have hround := hcut.round
  rw [hseq]
  intro heq
  exact ho (s.eq_of_advance_eq heq (by omega) (by omega))

theorem BringsFirst.fits (h : BringsFirst s rest p) :
    Fits (layoutBehind hcut) s preface.length window p := by
  refine ⟨?_, 0, h.1, Nat.zero_le _, fun hle => ?_⟩
  · rw [h.2]
    exact List.append_ne_nil_of_left_ne_nil (List.cons_ne_nil _ _) rest
  · rw [length_preface] at hle
    omega

theorem BringsFirst.plain (h : BringsFirst s rest p) (hdirection : p.direction = .inbound)
    {arrived : List Nat} {c : Buffer}
    (hgathers : Gathers (layoutBehind hcut) s preface.length window arrived c) :
    payloadWrites capture c p = [.add p.seq p.payload] := by
  have hpassed : c.published ≠ p.seq := by
    rw [h.1]
    exact hgathers.assembling.published_ne (by rw [length_preface]; omega)
  rw [payloadWrites, hdirection]
  exact inboundWrites_of_not (opensStream_of_published_ne hpassed)

end Later

/-- The packets that come before the first segment, the first that brings it, and those that
come after. -/
theorem split_at_first (hbrings : Brings s ((preface ++ rest) :: others) ps) :
    ∃ before p after, ps = before ++ p :: after ∧ p.seq = s.advance 0 ∧
      ∀ q ∈ before, q.seq ≠ s.advance 0 := by
  have hentry : Layout.startingAt 0 ((preface ++ rest) :: others) 0 = some (preface ++ rest) := by
    rw [Layout.startingAt, if_pos rfl]
  obtain ⟨p, hp, hseq⟩ := hbrings.all hentry
  have hsome : (ps.find? fun q => q.seq == s.advance 0).isSome = true :=
    List.find?_isSome.2 ⟨p, hp, by rw [hseq, beq_self_eq_true]⟩
  obtain ⟨p, hfind⟩ := Option.isSome_iff_exists.1 hsome
  obtain ⟨hp, before, after, hsplit, hbefore⟩ := List.find?_eq_some_iff_append.1 hfind
  refine ⟨before, p, after, hsplit, beq_iff_eq.1 hp, fun q hq heq => ?_⟩
  have hnot := hbefore q hq
  rw [heq, beq_self_eq_true] at hnot
  cases hnot

include hcut in
theorem brought_of_startingAt (hbrings : Brings s ((preface ++ rest) :: others) ps) {o : Nat}
    {q : Bytes} (h : Layout.startingAt (preface ++ rest).length others o = some q) :
    o ≤ window.toNat ∧ ∃ r ∈ ps, r.seq = s.advance o ∧ r.seq ≠ s.advance 0 := by
  have hle := (Layout.le_of_startingAt h).1
  have ho : o ≠ 0 := by
    rw [List.length_append, length_preface] at hle
    omega
  have hwhole : Layout.startingAt 0 ((preface ++ rest) :: others) o = some q := by
    rw [Layout.startingAt, if_neg ho, Nat.zero_add]
    exact h
  have hnear := hcut.near hwhole
  have hround := hcut.round
  obtain ⟨r, hr, hseq⟩ := hbrings.all hwhole
  refine ⟨hnear, r, hr, hseq, ?_⟩
  rw [hseq]
  intro heq
  exact ho (s.eq_of_advance_eq heq (by omega) (by omega))

include hcut in
/-- Where the first segment begins with the preface and no other does, the hand-off holds the
stream without the preface in the end. -/
theorem items_of_preface (hbrings : Brings s ((preface ++ rest) :: others) ps)
    (hinbound : ∀ p ∈ ps, p.direction = .inbound)
    (honly : ∀ {o q}, Layout.startingAt 0 ((preface ++ rest) :: others) o = some q →
      preface.isPrefixOf q = true → o = 0)
    (hfed : Fed capture (.startingAt s window capacity) ps b) :
    b.handoff.items = Layout.behindCut rest others := by
  have hlimit := limit_layoutBehind hcut
  have hreach := (layoutBehind hcut).le_reach preface.length
  have hlast : b.sending = none := hfed.sending rfl
  have hkind : ∀ p ∈ ps, BringsFirst s rest p ∨ BringsLater hcut s p := fun p hp =>
    bringsFirst_or_later hcut hbrings honly hp
  obtain ⟨before, p, after, rfl, hseq, hbefore⟩ := split_at_first hbrings
  have hlater : ∀ q ∈ before, BringsLater hcut s q := fun q hq =>
    (hkind q (List.mem_append_left _ hq)).resolve_left fun h => hbefore q hq h.1
  obtain ⟨c, hfed₁, hfed₂⟩ := Fed.append_iff.1 hfed
  -- Until the first segment comes, the buffer waits at the beginning.
  have hstart : Gathers (layoutBehind hcut) s 0 window [] (.startingAt s window capacity) := by
    refine .startingAt s capacity ?_
    rw [Layout.reach, (layoutBehind hcut).chain_of_none (layoutBehind_zero hcut)]
    exact hcut.round
  obtain ⟨arrived₁, hgathers₁, -, hnew₁⟩ := hfed₁.gathers hstart hcut.round
    (fun q hq _ c' _ => (hlater q hq).plain (hinbound q (List.mem_append_left _ hq)) c')
    (fun q hq => (hlater q hq).fits 0)
  cases hfed₂ with
  | cons hunhindered hfed₃ =>
    have hp : p ∈ before ++ p :: after := List.mem_append_right _ List.mem_cons_self
    have hfirst : BringsFirst s rest p := (hkind p hp).resolve_right fun h => h.seq_ne hseq
    obtain ⟨arrived₂, hgathers₂, hold₂, hrest⟩ :=
      gathers_behind hcut hgathers₁ (hinbound p hp) hseq hfirst.2 hunhindered
    -- From then on everything is written as it comes.
    have hafter : ∀ q ∈ after, q ∈ before ++ p :: after := fun q hq =>
      List.mem_append_right _ (List.mem_cons_of_mem _ hq)
    obtain ⟨arrived, hgathers, hold, hnew⟩ := hfed₃.gathers hgathers₂ (by omega)
      (fun q hq _ c' hc' => (hkind q (hafter q hq)).elim
        (fun h => h.plain (hinbound q (hafter q hq)) hc')
        (fun h => h.plain (hinbound q (hafter q hq)) c'))
      (fun q hq => (hkind q (hafter q hq)).elim (fun h => h.fits) (fun h => h.fits _))
    rw [hgathers.complete hlast, layoutBehind, Layout.chain_ofSegments]
    intro o q hentry
    rcases (layoutBehind_eq_some_iff hcut).1 hentry with ⟨hne, rfl, -⟩ | hentry
    · exact hold _ (hrest hne)
    · obtain ⟨hnear, r, hr, hrseq, hother⟩ := brought_of_startingAt hcut hbrings hentry
      rcases List.mem_append.1 hr with hr | hr
      · exact hold o (hold₂ o (hnew₁ r hr o hrseq (by omega)))
      · rcases List.mem_cons.1 hr with rfl | hr
        · exact absurd hseq hother
        · exact hnew r hr o hrseq (by omega)

end Preface

/-! ## Both directions -/

/-- The bytes of a stream cut into segments, without the preface if the first segment begins
with it. -/
def behindPreface (segments : List Bytes) : Bytes :=
  if preface.isPrefixOf (segments.headD []) then segments.flatten.drop preface.length
  else segments.flatten

section Directions

variable {capture : Bool} {s : Seq} {window : UInt32} {capacity : Nat} {segments : List Bytes}
  {b : Buffer} {ps : List Packet}

theorem inbound_bytes (hcut : Cut window segments) (hbrings : Brings s segments ps)
    (hinbound : ∀ p ∈ ps, p.direction = .inbound)
    (honly : ∀ {o q}, Layout.startingAt 0 segments o = some q →
      preface.isPrefixOf q = true → o = 0)
    (hfed : Fed capture (.startingAt s window capacity) ps b) :
    b.handoff.items.flatten = behindPreface segments := by
  cases hbegins : preface.isPrefixOf (segments.headD []) with
  | false =>
    have hplain : ∀ p ∈ ps, ∀ c, payloadWrites capture c p = [.add p.seq p.payload] := by
      intro p hp c
      rw [payloadWrites, hinbound p hp]
      refine inboundWrites_of_not (opensStream_of_not_isPrefixOf ?_)
      obtain ⟨o, hentry, -⟩ := hbrings.segment p hp
      cases hpayload : preface.isPrefixOf p.payload with
      | false => rfl
      | true =>
        obtain rfl := honly hentry hpayload
        cases segments with
        | nil => cases hentry
        | cons q qs =>
          rw [Layout.startingAt, if_pos rfl, Option.some.injEq] at hentry
          rw [List.headD_cons, hentry, hpayload] at hbegins
          cases hbegins
    rw [items_of_plain hcut hbrings hfed hplain, behindPreface, hbegins,
      if_neg Bool.false_ne_true]
  | true =>
    cases segments with
    | nil => cases hbegins
    | cons q others =>
      rw [List.headD_cons] at hbegins
      obtain ⟨rest, rfl⟩ := List.isPrefixOf_iff_prefix.1 hbegins
      rw [items_of_preface hcut hbrings hinbound honly hfed, Layout.flatten_behindCut,
        behindPreface, List.headD_cons, hbegins, if_pos rfl, List.flatten_cons, List.append_assoc,
        List.drop_left]

theorem outbound_bytes (hcut : Cut window segments) (hbrings : Brings s segments ps)
    (houtbound : ∀ p ∈ ps, p.direction = .outbound)
    (hfed : Fed capture (.startingAt s window capacity) ps b) :
    b.handoff.items.flatten = if capture then segments.flatten else [] := by
  cases capture with
  | true =>
    have hplain : ∀ p ∈ ps, ∀ c, payloadWrites true c p = [.add p.seq p.payload] := by
      intro p hp c
      rw [payloadWrites, houtbound p hp]
      rfl
    rw [items_of_plain hcut hbrings hfed hplain, if_pos rfl]
  | false =>
    have hnothing : b = .startingAt s window capacity :=
      hfed.of_nothing fun p hp c => by
        rw [payloadWrites, houtbound p hp]
        rfl
    rw [hnothing]
    rfl

end Directions

/-- A packet establishes its connection, whose client has opened with SYN number `c`, and the
pair that is opened for it stays open. -/
structure Establishes (t : Tracker) (p : Packet) (c : Seq) : Prop where
  before : t.phaseOf p.connection ≠ .established
  after : (t.handle p).phaseOf p.connection = .established
  syn : ∃ connection, (t.handle p).connections.find? p.connection = some connection ∧
    connection.synSeq = some c
  isOpen : ∃ place pair, (t.handle p).pairOf? p.connection = some (place, pair) ∧
    pair.inbound.isClosed = false ∧ pair.outbound.isClosed = false

/-- However the segments of the two streams of an established connection come, among whatever
packets of other connections and bare acknowledgements, when no packet has had to wait the bytes
to be read are the client's stream, without a preface, and the server's if it is wanted. -/
theorem reconstructed (s : Settings) (announcements : Option (Channel Nat)) (deeds : List Deed)
    (p : Packet) (c : Seq) (client server : List Bytes) (ps : List Packet)
    (hestablishes : Establishes ((ofSettings s announcements).course deeds) p c)
    (hclient : Cut s.stream.window client) (hserver : Cut s.stream.window server)
    (honly : ∀ {o q}, Layout.startingAt 0 client o = some q →
      preface.isPrefixOf q = true → o = 0)
    (hinbound : Brings (c.advance 1) client (carriedBy p.connection .inbound ps))
    (houtbound : Brings p.ack server (carriedBy p.connection .outbound ps))
    (hbare : ∀ q ∈ ps, q.connection = p.connection → q.hasPayload = false →
      q.flags = .ackAlone)
    (hnowait : ∀ k, ((ps.take k).foldl handle
      (((ofSettings s announcements).course deeds).handle p)).isIdle = true) :
    ∃ place pair, (ps.foldl handle
        (((ofSettings s announcements).course deeds).handle p)).pairOf? p.connection
          = some (place, pair) ∧
      pair.inbound.handoff.items.flatten = behindPreface client ∧
      pair.outbound.handoff.items.flatten =
        if s.tracker.captureResponse then server.flatten else [] := by
  have hcourse := Orderly.course (ofSettings s announcements) deeds
  have hfiled := hcourse.filed (.ofSettings s announcements)
  have hidle := hnowait 0
  rw [List.take_zero, List.foldl_nil, isIdle, Option.isNone_iff_eq_none] at hidle
  obtain ⟨connection, place, pair, hconnection, hwatched, hopened⟩ :=
    watched_of_established hfiled hestablishes.before hestablishes.after hidle
  -- The pair is the one that was opened, and its buffers begin where the streams do.
  obtain ⟨connection', hconnection', hsyn⟩ := hestablishes.syn
  rw [hconnection] at hconnection'
  cases hconnection'
  obtain ⟨place', pair', hpair', hopen, -⟩ := hestablishes.isOpen
  rw [pairOf?_eq_some_iff, hwatched.registered] at hpair'
  obtain ⟨hplace, hpair'⟩ := hpair'
  cases hplace
  rw [hwatched.pair] at hpair'
  cases hpair'
  have hbegins := hopened.resolve_right (by simp [hopen])
  rw [opening, hsyn, hcourse.stream] at hbegins
  have hsettings := hcourse.trans (Orderly.handle _ p)
  obtain ⟨last, hlast, hfed⟩ := routed ps hwatched
    (fun d => by rw [hbegins]; cases d <;> rfl) hbare hnowait
  rw [hsettings.captureResponse, hbegins] at hfed
  refine ⟨place, last, pairOf?_eq_some_iff.2 ⟨hlast.registered, hlast.pair⟩, ?_, ?_⟩
  · exact inbound_bytes hclient hinbound (fun q hq => (mem_carriedBy_iff.1 hq).2.2.1) honly
      (hfed .inbound)
  · exact outbound_bytes hserver houtbound (fun q hq => (mem_carriedBy_iff.1 hq).2.2.1)
      (hfed .outbound)

/-- A packet between the service and a client, whose port is given. -/
def spoken (port : UInt16) (direction : Direction) (seq : Seq) (flags : Flags)
    (payload : Bytes) : Packet :=
  let client : Endpoint := ⟨.v4 ⟨10, 0, 0, 1⟩, port⟩
  let service : Endpoint := ⟨.v4 ⟨10, 0, 0, 2⟩, 50051⟩
  match direction with
  | .inbound => ⟨client, service, seq, 4294967294, flags, payload, .inbound⟩
  | .outbound => ⟨service, client, seq, 4294967290, flags, payload, .outbound⟩

def greeting : List Deed :=
  [.accept (spoken 4000 .inbound 4294967289 (.ofByte 2) []),
    .accept (spoken 4000 .outbound 4294967293 (.ofByte 18) [])]

def greeted : Packet := spoken 4000 .inbound 4294967290 .ackAlone []

def asked : List Bytes := [preface ++ [65], [66, 67]]

def answered : List Bytes := [[1, 2], [3]]

/-- Of both streams the last segment comes first, and the numbers pass the end of the circle.
The segment with the preface comes twice.  Between them come a bare acknowledgement and
packets of another connection. -/
def babble : List Packet :=
  [spoken 4000 .inbound 19 .ackAlone [66, 67], spoken 4000 .outbound 0 .ackAlone [3],
    spoken 4001 .inbound 77 (.ofByte 2) [],
    spoken 4000 .inbound 21 .ackAlone [],
    spoken 4000 .inbound 4294967290 .ackAlone (preface ++ [65]),
    spoken 4001 .inbound 78 .ackAlone [9], spoken 4000 .outbound 4294967294 .ackAlone [1, 2],
    spoken 4000 .inbound 4294967290 .ackAlone (preface ++ [65]),
    spoken 4000 .outbound 0 .ackAlone [3]]

theorem reconstructed_babble :
    ∃ place pair, (babble.foldl handle
        (((ofSettings {} none).course greeting).handle greeted)).pairOf? greeted.connection
          = some (place, pair) ∧
      pair.inbound.handoff.items.flatten = [65, 66, 67] ∧
      pair.outbound.handoff.items.flatten = [1, 2, 3] := by
  have hestablishes : Establishes ((ofSettings {} none).course greeting) greeted 4294967289 :=
    ⟨by decide, by decide,
      ⟨⟨greeted.connection, .established, some 4294967289⟩, by decide, rfl⟩,
      ⟨0, .opened greeted.connection 4294967290 4294967294 {}, by decide, by decide, by decide⟩⟩
  refine reconstructed {} none greeting greeted 4294967289 asked answered babble hestablishes
    ⟨by decide, ?_, by decide⟩ ⟨by decide, ?_, by decide⟩ ?_ ⟨?_, ?_⟩ ⟨?_, ?_⟩ (by decide) ?_
  · intro o q h
    rcases Layout.startingAt_pair h with ⟨rfl, -⟩ | ⟨rfl, -⟩ <;> decide
  · intro o q h
    rcases Layout.startingAt_pair h with ⟨rfl, -⟩ | ⟨rfl, -⟩ <;> decide
  · intro o q h hbegins
    rcases Layout.startingAt_pair h with ⟨rfl, -⟩ | ⟨-, rfl⟩
    · rfl
    · cases hbegins
  · have hall : ∀ p ∈ carriedBy greeted.connection .inbound babble,
        Layout.startingAt 0 asked (p.seq - 4294967290).toNat = some p.payload ∧
          p.seq = Seq.advance (Seq.advance 4294967289 1) (p.seq - 4294967290).toNat := by
      decide
    exact fun p hp => ⟨_, hall p hp⟩
  · intro o q h
    rcases Layout.startingAt_pair h with ⟨rfl, -⟩ | ⟨rfl, -⟩ <;> decide
  · have hall : ∀ p ∈ carriedBy greeted.connection .outbound babble,
        Layout.startingAt 0 answered (p.seq - 4294967294).toNat = some p.payload ∧
          p.seq = Seq.advance greeted.ack (p.seq - 4294967294).toNat := by
      decide
    exact fun p hp => ⟨_, hall p hp⟩
  · intro o q h
    rcases Layout.startingAt_pair h with ⟨rfl, -⟩ | ⟨rfl, -⟩ <;> decide
  · have hall : ∀ k < 10, ((babble.take k).foldl handle
        (((ofSettings {} none).course greeting).handle greeted)).isIdle = true := by
      decide
    intro k
    rcases Nat.lt_or_ge k 10 with hlt | hge
    · exact hall k hlt
    · have hwhole : babble.take k = babble.take 9 := by
        rw [List.take_of_length_le (Nat.le_of_succ_le hge), List.take_of_length_le (Nat.le_refl 9)]
      rw [hwhole]
      exact hall 9 (by omega)

end Tracker

end StreamTap
