import StreamTap.Proofs.Tracker.Ageing
import StreamTap.Proofs.Tracker.Preface

/-!
# A second preface

A client says the preface once, so once it was left out of a payload, what comes later should be
written whole even if it begins in the same way.  Nobody takes note that a preface was left out.
It is told from what the buffer has delivered: a payload opens the stream while nothing was
delivered, and not any more when a byte was.  The two come to the same as soon as a byte behind
the preface goes into the hand-off (`preface_left_out_once_iff`).

They differ for a payload that is the preface and nothing more, with nothing parked behind it, and
for a buffer that is closed.  The rebase moves on to the byte behind the preface, nothing is
delivered, and a preface that stands there is left out as well (`preface_left_out_twice`).

The moves of an errand and those of the readers may come in any order, so the writes of a packet
are followed as an invariant of the buffer and the writes that are left (`Delivering.course`).
-/

namespace StreamTap

namespace Tracker

variable {t t' : Tracker} {place : Nat} {d : Direction} {p : Packet}

/-! ## What is on offer between errands -/

/-- Only the buffer that an errand writes into has a chunk on offer. -/
def Calm (t : Tracker) : Prop :=
  ∀ (place : Nat) (pair : Pair) (d : Direction), t.pairs[place]? = some pair →
    (∀ ws, t.errand ≠ some (.deliver place d ws)) → (pair.buffer d).sending = none

theorem modifyPair_back {n : Nat} {f : Pair → Pair} {pair' : Pair}
    (h : (t.modifyPair place f).pairs[n]? = some pair') :
    ∃ pair, t.pairs[n]? = some pair ∧ (n = place ∧ pair' = f pair ∨ n ≠ place ∧ pair' = pair) := by
  simp only [modifyPair, List.getElem?_modify] at h
  obtain ⟨pair, hpair, rfl⟩ := Option.map_eq_some_iff.1 h
  refine ⟨pair, hpair, ?_⟩
  by_cases hn : place = n
  · exact Or.inl ⟨hn.symm, if_pos hn⟩
  · exact Or.inr ⟨Ne.symm hn, by rw [if_neg hn]⟩

namespace Calm

theorem of_idle (h : ∀ pair ∈ t.pairs, ∀ d, (pair.buffer d).sending = none) : Calm t :=
  fun _ _ d hpair _ => h _ (List.mem_of_getElem? hpair) d

theorem idle (h : Calm t) (herrand : ∀ place d ws, t.errand ≠ some (.deliver place d ws)) :
    ∀ pair ∈ t.pairs, ∀ d, (pair.buffer d).sending = none := by
  intro pair hmem d
  obtain ⟨n, hpair⟩ := List.getElem?_of_mem hmem
  exact h n pair d hpair (herrand n d)

theorem modifyPair (h : Calm t) (place : Nat) {f : Pair → Pair}
    (hf : ∀ pair, t.pairs[place]? = some pair →
      ∀ d, ((f pair).buffer d).sending = (pair.buffer d).sending) :
    Calm (t.modifyPair place f) := by
  intro n pair' d hpair' herrand
  obtain ⟨pair, hpair, ⟨rfl, rfl⟩ | ⟨-, rfl⟩⟩ := modifyPair_back hpair'
  · exact (hf pair hpair d).trans (h _ pair d hpair herrand)
  · exact h n _ d hpair herrand

theorem close (h : Calm t) (place : Nat) : Calm (t.modifyPair place Pair.close) :=
  h.modifyPair place fun pair _ d => by cases d <;> rfl

theorem putBuffer {ws : List Write} (h : Calm t) (b : Buffer) (ws' : List Write)
    (herrand : t.errand = some (.deliver place d ws)) :
    Calm { t.putBuffer place d b with errand := some (.deliver place d ws') } := by
  intro n pair' d' hpair' hother
  have hne : ¬(n = place ∧ d' = d) := by
    rintro ⟨rfl, rfl⟩
    exact hother ws' rfl
  have hbefore : ∀ ws₀, t.errand ≠ some (.deliver n d' ws₀) := by
    rintro ws₀ he
    rw [herrand] at he
    cases he
    exact hne ⟨rfl, rfl⟩
  obtain ⟨pair, hpair, ⟨rfl, rfl⟩ | ⟨-, rfl⟩⟩ := modifyPair_back hpair'
  · rw [Pair.buffer_withBuffer_of_ne _ _ fun hd => hne ⟨rfl, hd.symm⟩]
    exact h _ pair d' hpair hbefore
  · exact h n _ d' hpair hbefore

theorem accept (h : Calm t) (hidle : t.errand = none) (p : Packet) : Calm (t.accept p) := by
  have hquiet := h.idle fun _ _ _ => by simp [hidle]
  obtain ⟨ps, new, hpairs, hps, hnew⟩ := t.pairs_accept p
  refine of_idle fun pair hmem d => ?_
  rw [hpairs] at hmem
  rcases List.mem_append.1 hmem with hold | hopened
  · rcases hps with rfl | ⟨place, rfl⟩
    · exact hquiet pair hold d
    · exact (of_idle hquiet).close place |>.idle (fun _ _ _ => by simp [Tracker.modifyPair, hidle])
        pair hold d
  · obtain ⟨_, _, _, hbuffer⟩ := hnew pair hopened d
    rw [hbuffer]
    rfl

theorem step (h : Calm t) (hstep : t.step = some t') : Calm t' := by
  cases herrand : t.errand with
  | none =>
    rw [step_of_errand_none herrand] at hstep
    cases hstep
  | some e =>
    cases e with
    | announce place =>
      have hquiet : Calm { t with errand := none } :=
        of_idle (h.idle fun _ _ _ => by simp [herrand])
      rcases step_announce herrand hstep with rfl | ⟨channel, rfl⟩ | rfl
      · exact hquiet
      · exact hquiet
      · exact hquiet.close place
    | deliver place d ws =>
      obtain ⟨pair, hpair, ⟨-, rfl⟩ | ⟨w, rest, -, -, rfl⟩ | ⟨-, hsending, rfl⟩⟩ :=
        step_deliver herrand hstep
      · have hput := h.putBuffer (pair.buffer d).offer ws herrand
        rw [← herrand] at hput
        exact hput
      · exact h.putBuffer _ _ herrand
      · intro n pair' d' hpair' _
        by_cases hhere : n = place ∧ d' = d
        · obtain ⟨rfl, rfl⟩ := hhere
          cases hpair.symm.trans hpair'
          exact hsending
        · refine h n pair' d' hpair' fun ws₀ he => ?_
          rw [herrand] at he
          cases he
          exact hhere ⟨rfl, rfl⟩

theorem perform (h : Calm t) (deed : Deed) : Calm (t.perform deed) := by
  refine t.perform_elim (P := Calm) deed h ?_ ?_ ?_ ?_ ?_
  · exact fun p _ hidle => h.accept hidle p
  · exact fun _ _ hstep => h.step hstep
  · intro place d pair chunk rest _ hpair _
    refine h.modifyPair place fun found hfound d' => ?_
    cases hpair.symm.trans hfound
    by_cases hd : d = d'
    · subst hd
      rw [Pair.buffer_withBuffer]
      rfl
    · rw [Pair.buffer_withBuffer_of_ne _ _ hd]
  · exact fun place _ => h.close place
  · exact fun _ _ => h

theorem course (h : Calm t) (deeds : List Deed) : Calm (t.course deeds) :=
  course_keeps (fun {_ deed} _ h => h.perform deed) h fun _ _ => trivial

theorem ofSettings (s : Settings) (announcements : Option (Channel Nat)) :
    Calm (.ofSettings s announcements) := of_idle fun _ hmem => absurd hmem List.not_mem_nil

end Calm

/-! ## Following the writes of a packet -/

/-- What the moves on one buffer keep, those of the errand and those of readers: an invariant of
the buffer and the writes that are left to make. -/
structure Kept (Q : Buffer → List Write → Prop) : Prop where
  offer : ∀ {b ws}, Q b ws → b.canOffer = true → Q b.offer ws
  begin : ∀ {b w ws}, Q b (w :: ws) → b.sending = none → Q (b.begin w) ws
  taken : ∀ {b ws chunk rest}, Q b ws → Q (b.taken chunk rest) ws
  close : ∀ {b ws}, Q b ws → Q b.close ws

/-- The tracker delivers to one buffer, or has done so and has nothing at hand. -/
def Delivering (Q : Buffer → List Write → Prop) (place : Nat) (d : Direction) (t : Tracker) :
    Prop :=
  ∃ pair ws, t.pairs[place]? = some pair ∧ Q (pair.buffer d) ws ∧
    (t.errand = some (.deliver place d ws) ∨
      t.errand = none ∧ ws = [] ∧ (pair.buffer d).sending = none)

namespace Delivering

variable {Q : Buffer → List Write → Prop}

theorem modifyPair (h : Delivering Q place d t) (n : Nat) {f : Pair → Pair}
    (hkeep : ∀ pair ws, t.pairs[n]? = some pair → Q (pair.buffer d) ws →
      Q ((f pair).buffer d) ws ∧ ((f pair).buffer d).sending = (pair.buffer d).sending) :
    Delivering Q place d (t.modifyPair n f) := by
  obtain ⟨pair, ws, hpair, hQ, herrand⟩ := h
  by_cases hn : n = place
  · subst hn
    obtain ⟨hkept, hsending⟩ := hkeep pair ws hpair hQ
    refine ⟨f pair, ws, by simp [Tracker.modifyPair, hpair], hkept, ?_⟩
    rw [hsending]
    exact herrand
  · exact ⟨pair, ws, ((Besides.modifyPair n t f).others place (Ne.symm hn)).trans hpair, hQ, herrand⟩

variable (hQ : Kept Q)

include hQ

theorem step (h : Delivering Q place d t) (hstep : t.step = some t') : Delivering Q place d t' := by
  obtain ⟨pair, ws, hpair, hbuffer, herrand | ⟨herrand, -⟩⟩ := h
  · obtain ⟨found, hfound, hways⟩ := step_deliver herrand hstep
    cases hpair.symm.trans hfound
    rcases hways with ⟨hoffer, rfl⟩ | ⟨w, rest, rfl, hsending, rfl⟩ | ⟨rfl, hsending, rfl⟩
    · refine ⟨_, ws, pairs_putBuffer hpair d _, ?_, Or.inl herrand⟩
      rw [Pair.buffer_withBuffer]
      exact hQ.offer hbuffer hoffer
    · refine ⟨_, rest, pairs_putBuffer hpair d _, ?_, Or.inl rfl⟩
      rw [Pair.buffer_withBuffer]
      exact hQ.begin hbuffer hsending
    · exact ⟨pair, [], hpair, hbuffer, Or.inr ⟨rfl, rfl, hsending⟩⟩
  · rw [step_of_errand_none herrand] at hstep
    cases hstep

theorem perform (h : Delivering Q place d t) {deed : Deed} (hdeed : ∀ q, deed ≠ .accept q) :
    Delivering Q place d (t.perform deed) := by
  refine t.perform_elim (P := Delivering Q place d) deed h ?_ ?_ ?_ ?_ ?_
  · exact fun q hq => absurd hq (hdeed q)
  · exact fun _ _ hstep => step hQ h hstep
  · intro n d' pair chunk rest _ hpair _
    refine h.modifyPair n fun found ws hfound hbuffer => ?_
    cases hpair.symm.trans hfound
    by_cases hd : d' = d
    · subst hd
      rw [Pair.buffer_withBuffer]
      exact ⟨hQ.taken hbuffer, rfl⟩
    · rw [Pair.buffer_withBuffer_of_ne _ _ hd]
      exact ⟨hbuffer, rfl⟩
  · intro n _
    refine h.modifyPair n fun pair ws _ hbuffer => ?_
    have hclosed := hQ.close hbuffer
    cases d <;> exact ⟨hclosed, rfl⟩
  · exact fun _ _ => h

theorem course (h : Delivering Q place d t) (deeds : List Deed) (hdeeds : ∀ q, .accept q ∉ deeds) :
    Delivering Q place d (t.course deeds) :=
  course_keeps_meanwhile (fun hdeed h => h.perform hQ hdeed) h hdeeds

end Delivering

/-! ## Whether a byte behind the preface is delivered -/

/-- The progress of the writes that bring a payload without the preface, where `a` is the number
behind it, `rest` the rest of the payload, and `found` what was parked there.  As soon as there is
a chunk to deliver it is on offer, then delivered, unless the buffer is closed. -/
inductive Behind (a : Seq) (rest : Bytes) (found : Option Bytes) : Buffer → List Write → Prop
  | rebasing {b : Buffer} : b.sending = none → b.delivered = 0 → b.parked.find? a = found →
      Behind a rest found b [.rebase a, .add a rest]
  | adding {b : Buffer} : found = none → b.sending = none → b.delivered = 0 → b.expected = a →
      b.parked.find? a = none → Behind a rest found b [.add a rest]
  | nothing {b : Buffer} : found = none → rest = [] → b.delivered = 0 → b.sending = none →
      Behind a rest found b []
  | fed {b : Buffer} (ws : List Write) : found ≠ none ∨ rest ≠ [] →
      b.isClosed = true ∨ b.delivered ≠ 0 ∨ (∃ chunk, b.sending = some chunk ∧ chunk ≠ []) →
      Behind a rest found b ws

namespace Behind

variable {a : Seq} {rest : Bytes} {found : Option Bytes} {b : Buffer} {ws : List Write}

theorem of_pull {chunk : Bytes} (hsome : found ≠ none ∨ rest ≠ []) (hchunk : chunk ≠ [])
    (h : b.parked.find? b.expected = some chunk) : Behind a rest found (b.pull false) ws := by
  rw [b.pull_of_some h]
  exact .fed ws hsome (Or.inr (Or.inr ⟨chunk, rfl, hchunk⟩))

theorem offer (h : Behind a rest found b ws) (hoffer : b.canOffer = true) :
    Behind a rest found b.offer ws := by
  obtain ⟨⟨chunk, hsending⟩, -⟩ := b.canOffer_iff.1 hoffer
  have hages := Buffer.Ages.offer hoffer
  cases h with
  | rebasing hnone => exact absurd (hsending.symm.trans hnone) (Option.some_ne_none _)
  | adding _ hnone => exact absurd (hsending.symm.trans hnone) (Option.some_ne_none _)
  | nothing _ _ _ hnone => exact absurd (hsending.symm.trans hnone) (Option.some_ne_none _)
  | fed _ hsome hfed =>
    refine .fed ws hsome ?_
    rcases hfed with hclosed | hdelivered | ⟨chunk', hsending', hchunk⟩
    · exact Or.inl (hages.closed hclosed)
    · have hle := hages.delivered
      exact Or.inr (Or.inl (by omega))
    · refine b.offer_elim (P := fun c => c.isClosed = true ∨ c.delivered ≠ 0 ∨
        ∃ chunk, c.sending = some chunk ∧ chunk ≠ []) hoffer ?_ ?_
      · intro accepted haccepted _ _
        rw [hsending', Option.some.injEq] at haccepted
        subst haccepted
        have hlength := List.length_pos_iff.2 hchunk
        refine Or.inr (Or.inl ?_)
        rw [((b.accepted chunk').sameFront_pull true).delivered, Buffer.accepted]
        simp only
        omega
      · exact fun _ _ hclosed => Or.inl hclosed

theorem begin {w : Write} (h : Behind a rest found b (w :: ws))
    (hfound : ∀ chunk, found = some chunk → chunk ≠ []) (hsending : b.sending = none) :
    Behind a rest found (b.begin w) ws := by
  cases h with
  | rebasing _ hdelivered hparked =>
    -- What was parked behind the preface stays, because it is the first in the new window.
    have hkept : ((b.expectAt a).prune).parked.find? a = found := by
      have hnear : Seq.inWindow a b.window a = true := by
        rw [Seq.inWindow_iff_distance_le, Seq.distance_self]
        exact Nat.zero_le _
      simp only [Buffer.prune, Buffer.expectAt, Parked.find?_filter, hnear, if_true, hparked]
    rw [b.begin_rebase]
    cases hwhat : found with
    | some chunk =>
      subst hwhat
      exact of_pull (Or.inl (Option.some_ne_none _)) (hfound chunk rfl) hkept
    | none =>
      subst hwhat
      rw [Buffer.pull_false_of_none _ hkept]
      exact .adding rfl hsending hdelivered rfl hkept
  | adding hnone _ hdelivered hexpected hparked =>
    cases hrest : rest with
    | nil =>
      subst hrest
      rw [b.begin_of_isVoid rfl]
      exact .nothing hnone rfl hdelivered hsending
    | cons byte bytes =>
      rw [← hrest]
      have hne : rest ≠ [] := by simp [hrest]
      have hnear : Seq.inWindow b.expected b.window a = true := by
        rw [hexpected, Seq.inWindow_iff_distance_le, Seq.distance_self]
        exact Nat.zero_le _
      rw [b.begin_add_free hne hnear hparked]
      refine of_pull (Or.inr hne) hne ?_
      rw [Buffer.park, hexpected]
      exact Parked.find?_insert_self _ _ _
  | fed _ hsome hfed =>
    have hages := Buffer.Ages.begin hsending w
    refine .fed ws hsome ?_
    rcases hfed with hclosed | hdelivered | ⟨chunk, hsome', -⟩
    · exact Or.inl (hages.closed hclosed)
    · have hle := hages.delivered
      exact Or.inr (Or.inl (by omega))
    · exact absurd (hsome'.symm.trans hsending) (Option.some_ne_none _)

theorem kept (hfound : ∀ chunk, found = some chunk → chunk ≠ []) :
    Kept (Behind a rest found) where
  offer := offer
  begin := fun h hsending => h.begin hfound hsending
  taken := by
    intro b ws chunk chunks h
    cases h with
    | rebasing hnone hdelivered hparked => exact .rebasing hnone hdelivered hparked
    | adding hfound hnone hdelivered hexpected hparked =>
      exact .adding hfound hnone hdelivered hexpected hparked
    | nothing hfound hrest hdelivered hnone => exact .nothing hfound hrest hdelivered hnone
    | fed _ hsome hfed => exact .fed ws hsome hfed
  close := by
    intro b ws h
    cases h with
    | rebasing hnone hdelivered hparked => exact .rebasing hnone hdelivered hparked
    | adding hfound hnone hdelivered hexpected hparked =>
      exact .adding hfound hnone hdelivered hexpected hparked
    | nothing hfound hrest hdelivered hnone => exact .nothing hfound hrest hdelivered hnone
    | fed _ hsome _ => exact .fed ws hsome (Or.inl rfl)

theorem delivered_iff (h : Behind a rest found b []) (hsending : b.sending = none)
    (hopen : b.isClosed = false) : b.delivered = 0 ↔ rest = [] ∧ found = none := by
  cases h with
  | nothing hfound hrest hdelivered => exact ⟨fun _ => ⟨hrest, hfound⟩, fun _ => hdelivered⟩
  | fed _ hsome hfed =>
    constructor
    · intro hdelivered
      rcases hfed with hclosed | hne | ⟨chunk, hchunk, -⟩
      · cases hclosed.symm.trans hopen
      · exact absurd hdelivered hne
      · cases hchunk.symm.trans hsending
    · rintro ⟨hrest, hfound⟩
      rcases hsome with hne | hne
      · exact absurd hfound hne
      · exact absurd hrest hne

end Behind

/-! ## Packets whose payload is delivered -/

theorem opensStream_iff {b : Buffer} {seq : Seq} {payload : Bytes} :
    opensStream b seq payload = true ↔
      preface <+: payload ∧ b.delivered = 0 ∧ b.published = seq := by
  simp [opensStream, and_assoc]

theorem inboundWrites_eq_iff {b : Buffer} {seq : Seq} {payload : Bytes} :
    inboundWrites b seq payload = writesBehind seq preface (payload.drop preface.length) ↔
      opensStream b seq payload = true := by
  constructor
  · intro h
    cases hopens : opensStream b seq payload with
    | true => rfl
    | false =>
      rw [inboundWrites_of_not hopens] at h
      cases h
  · intro hopens
    rw [inboundWrites, hopens, if_pos rfl]
    rfl

theorem accept_of_payload (hpayload : p.hasPayload = true)
    (hphase : t.phaseOf p.connection = .established) : t.accept p = (t.noticed p).route p := by
  rw [accept_eq, if_pos hpayload, phaseOf_noticed, if_pos hphase]

theorem errand_trigger_ne {ws : List Write} (hidle : t.errand = none) (event : Event) :
    (t.trigger event p).errand ≠ some (.deliver place d ws) := by
  intro h
  rcases t.trigger_cases event p with ⟨-, htrigger⟩ | ⟨c, phase, -, -, hways⟩
  · have hsame : t.ignore.errand = none := hidle
    rw [htrigger, hsame] at h
    cases h
  · rcases hways with ⟨-, htrigger⟩ | ⟨-, htrigger⟩ | ⟨-, -, htrigger⟩ <;> rw [htrigger] at h
    · obtain ⟨_, _, he⟩ := Option.map_eq_some_iff.1 h
      cases he
    · have hsame : ((t.transited p (c.after event p phase)).release p.connection).errand =
          t.errand := errand_closePairOf _ _
      rw [hsame, hidle] at h
      cases h
    · have hsame : (t.transited p (c.after event p phase)).errand = none := hidle
      rw [hsame] at h
      cases h

theorem routed_of_errand_accept {ws : List Write} (hidle : t.errand = none)
    (h : (t.accept p).errand = some (.deliver place d ws)) :
    p.hasPayload = true ∧ t.phaseOf p.connection = .established ∧
      ((t.noticed p).route p).errand = some (.deliver place d ws) := by
  have hquiet : (t.noticed p).errand = none := hidle
  cases hpayload : p.hasPayload with
  | false =>
    rw [accept_eq, hpayload, if_neg Bool.false_ne_true] at h
    split at h
    · exact absurd h (errand_trigger_ne hquiet _)
    · cases hquiet.symm.trans h
  | true =>
    by_cases hphase : t.phaseOf p.connection = .established
    · rw [accept_of_payload hpayload hphase] at h
      exact ⟨rfl, hphase, h⟩
    · rw [accept_eq, if_pos hpayload, phaseOf_noticed, if_neg hphase] at h
      cases hquiet.symm.trans h

/-- The packets that lead to writes into an inbound buffer are those with payload from the client
of an established connection. -/
theorem errand_accept_iff {ws : List Write} (hidle : t.errand = none) :
    (t.accept p).errand = some (.deliver place .inbound ws) ↔
      p.hasPayload = true ∧ p.direction = .inbound ∧ t.phaseOf p.connection = .established ∧
        ∃ pair, t.pairOf? p.connection = some (place, pair) ∧
          ws = inboundWrites pair.inbound p.seq p.payload := by
  have hquiet : (t.noticed p).errand = none := hidle
  have hsame : (t.noticed p).pairOf? p.connection = t.pairOf? p.connection := rfl
  constructor
  · intro h
    obtain ⟨hpayload, hphase, hroute⟩ := routed_of_errand_accept hidle h
    rw [route, hsame] at hroute
    cases hpair : t.pairOf? p.connection with
    | none =>
      rw [hpair] at hroute
      cases hquiet.symm.trans hroute
    | some found =>
      obtain ⟨n, pair⟩ := found
      simp only [hpair] at hroute
      cases hdirection : p.direction with
      | inbound =>
        rw [hdirection] at hroute
        cases hroute
        exact ⟨hpayload, rfl, hphase, pair, rfl, rfl⟩
      | outbound =>
        simp only [hdirection] at hroute
        split at hroute
        · cases hroute
        · cases hquiet.symm.trans hroute
  · rintro ⟨hpayload, hdirection, hphase, pair, hpair, rfl⟩
    rw [accept_of_payload hpayload hphase, route, hsame, hpair]
    simp only [hdirection]

/-! ## Once or twice -/

/-- The packet is the next to be handled, its payload goes to the pair, and the preface is left
out of it. -/
def LeavesOut (t : Tracker) (place : Nat) (p : Packet) : Prop :=
  t.isIdle = true ∧ (t.accept p).errand = some (.deliver place .inbound
    (writesBehind p.seq preface (p.payload.drop preface.length)))

/-- Whatever happens from now on, inbound payload that goes to the pair is written whole. -/
def WholeFrom (t : Tracker) (place : Nat) : Prop :=
  ∀ (later : List Deed) (q : Packet) (ws : List Write), (t.course later).isIdle = true →
    ((t.course later).accept q).errand = some (.deliver place .inbound ws) →
    ws = [.add q.seq q.payload]

/-- After a byte was delivered, payload is written whole. -/
theorem wholeFrom_of_delivered {pair : Pair} (hpair : t.pairs[place]? = some pair)
    (hdelivered : pair.inbound.delivered ≠ 0) : WholeFrom t place := by
  intro later q ws hidle herrand
  obtain ⟨-, -, -, found, hfound, rfl⟩ :=
    (errand_accept_iff (Option.isNone_iff_eq_none.1 hidle)).1 herrand
  obtain ⟨pair', hpair', hages⟩ := Ages.course t later place pair hpair
  cases (pairOf?_eq_some_iff.1 hfound).2.symm.trans hpair'
  have hle : pair.inbound.delivered ≤ found.inbound.delivered := (hages.buffer .inbound).delivered
  refine inboundWrites_of_not ?_
  cases hopens : opensStream found.inbound q.seq q.payload with
  | false => rfl
  | true =>
    have hnone := (opensStream_iff.1 hopens).2.1
    omega

theorem LeavesOut.not_wholeFrom (h : LeavesOut t place p) : ¬WholeFrom t place := by
  intro hwhole
  cases hwhole [] p _ h.1 h.2

/-- While no byte was delivered, a preface that comes next is left out. -/
theorem leavesOut_of_undelivered {pair : Pair} (hidle : t.isIdle = true)
    (hinbound : p.direction = .inbound) (hphase : t.phaseOf p.connection = .established)
    (hpair : t.pairOf? p.connection = some (place, pair)) (hdelivered : pair.inbound.delivered = 0) :
    ∃ q, LeavesOut t place q := by
  let q : Packet := { p with seq := pair.inbound.published, payload := preface }
  have hopens : opensStream pair.inbound q.seq q.payload = true :=
    opensStream_iff.2 ⟨List.prefix_refl _, hdelivered, rfl⟩
  have hwrites := inboundWrites_eq_iff.2 hopens
  exact ⟨q, hidle, (errand_accept_iff (Option.isNone_iff_eq_none.1 hidle)).2
    ⟨rfl, hinbound, hphase, pair, hpair, hwrites.symm⟩⟩

theorem nonempty_of_parked (s : Settings) (announcements : Option (Channel Nat))
    (deeds : List Deed) {pair : Pair} {seq : Seq} {chunk : Bytes}
    (hpair : ((ofSettings s announcements).course deeds).pairs[place]? = some pair)
    (hchunk : pair.inbound.parked.find? seq = some chunk) : chunk ≠ [] := by
  have hall : AllBuffers (fun b r => Solid b r ∧ Drained b)
      ((ofSettings s announcements).course deeds) :=
    .course (fun h hchange => h.1.change h.2 hchange)
      (fun seq window capacity => solid_run seq window capacity []) s announcements deeds
  obtain ⟨_, hsolid, -⟩ := hall pair (List.mem_of_getElem? hpair) .inbound
  exact hsolid.parked hchunk

/-- After the preface was left out of a payload and the payload is delivered, payload that goes to
the pair is written whole exactly if a byte was delivered.  In a buffer that is still open this is
so exactly if the payload was more than the preface or something was parked behind the preface. -/
theorem preface_left_out_once_iff (s : Settings) (announcements : Option (Channel Nat))
    (deeds more : List Deed) (place : Nat) (p : Packet) :
    let t := (ofSettings s announcements).course deeds
    let u := (t.perform (.accept p)).course more
    LeavesOut t place p → (∀ q, .accept q ∉ more) → u.isIdle = true →
    ∃ pair pair', t.pairs[place]? = some pair ∧ u.pairs[place]? = some pair' ∧
      (WholeFrom u place ↔ pair'.inbound.delivered ≠ 0) ∧
      (pair'.inbound.isClosed = false → (WholeFrom u place ↔
        p.payload ≠ preface ∨
          pair.inbound.parked.find? (p.seq.advance preface.length) ≠ none)) := by
  intro t u ⟨hidle, herrand⟩ hmore hdone
  have hquiet : t.errand = none := Option.isNone_iff_eq_none.1 hidle
  obtain ⟨hpayload, hinbound, hphase, pair, hfound, hwrites⟩ := (errand_accept_iff hquiet).1 herrand
  obtain ⟨⟨rest, hrest⟩, hdelivered, -⟩ := opensStream_iff.1 (inboundWrites_eq_iff.1 hwrites.symm)
  obtain ⟨hplace, hpair⟩ := pairOf?_eq_some_iff.1 hfound
  rw [← hrest, List.drop_left] at herrand
  have haccept := accept_of_payload hpayload hphase
  have hperform : t.perform (.accept p) = t.accept p := by simp [perform, hidle]
  have hcalm : Calm t := (Calm.ofSettings s announcements).course deeds
  have hsending : pair.inbound.sending = none :=
    hcalm.idle (fun _ _ _ => by simp [hquiet]) pair (List.mem_of_getElem? hpair) .inbound
  -- The writes that bring the rest of the payload are followed to their end.
  have hdelivering : Delivering (Behind (p.seq.advance preface.length) rest
      (pair.inbound.parked.find? (p.seq.advance preface.length))) place .inbound (t.accept p) := by
    refine ⟨pair, _, ?_, .rebasing hsending hdelivered rfl, Or.inl herrand⟩
    rw [haccept, (pairs_route _ p).1]
    exact hpair
  have hkept : Kept (Behind (p.seq.advance preface.length) rest
      (pair.inbound.parked.find? (p.seq.advance preface.length))) :=
    Behind.kept fun _ => nonempty_of_parked s announcements deeds hpair
  obtain ⟨pair', ws, hpair', hbehind, hbusy | ⟨-, rfl, hsending'⟩⟩ :=
    hperform ▸ hdelivering.course hkept more hmore
  · cases hbusy.symm.trans (Option.isNone_iff_eq_none.1 hdone)
  -- Nothing is written into the registers meanwhile.
  have hroute : t.perform (.accept p) = (t.noticed p).route p := hperform.trans haccept
  obtain ⟨hconnections, hstreams⟩ := (t.perform (.accept p)).registers_course hmore
  have hsame : SameFile p.connection (t.noticed p) u :=
    (SameFile.route _ p _).trans (.of_eq (hconnections.trans (congrArg connections hroute))
      (hstreams.trans (congrArg streams hroute)))
  have hphase' : u.phaseOf p.connection = .established := by
    rw [phaseOf, hsame.connection, ← phaseOf, phaseOf_noticed]
    exact hphase
  have hwhole : WholeFrom u place ↔ pair'.inbound.delivered ≠ 0 := by
    refine ⟨fun hwhole hnone => ?_, wholeFrom_of_delivered hpair'⟩
    obtain ⟨q, hleaves⟩ := leavesOut_of_undelivered hdone hinbound hphase'
      (pairOf?_eq_some_iff.2 ⟨hsame.place.trans hplace, hpair'⟩) hnone
    exact hleaves.not_wholeFrom hwhole
  refine ⟨pair, pair', hpair, hpair', hwhole, fun hopen => hwhole.trans ?_⟩
  have hnothing : pair'.inbound.delivered = 0 ↔
      rest = [] ∧ pair.inbound.parked.find? (p.seq.advance preface.length) = none :=
    hbehind.delivered_iff hsending' hopen
  have hbare : p.payload = preface ↔ rest = [] := by
    rw [← hrest]
    exact List.append_right_eq_self
  rw [ne_eq, hnothing, ne_eq, hbare]
  exact Decidable.not_and_iff_or_not

def handshaken : Tracker := (ofSettings {} none).course (greeting ++ [.accept greeted])

/-- The tracker that has seen a packet after the handshake, with the moves that this asks for. -/
def handshakenThen (p : Packet) : Tracker :=
  (handshaken.perform (.accept p)).course (List.replicate 4 .step)

/-- The preface that comes with three bytes of the stream is the last one that is left out. -/
theorem preface_left_out_once_iff_prefaced :
    LeavesOut handshaken 0 prefaced ∧ WholeFrom (handshakenThen prefaced) 0 := by
  have hfirst : LeavesOut handshaken 0 prefaced := ⟨by decide, by decide⟩
  obtain ⟨pair, pair', -, hpair', hwhole, -⟩ :=
    preface_left_out_once_iff {} none (greeting ++ [Deed.accept greeted])
      (List.replicate 4 .step) 0 prefaced hfirst
      (fun _ hq => by cases (List.mem_replicate.1 hq).2) (by decide)
  have hthree : ∀ pair ∈ (handshakenThen prefaced).pairs, pair.inbound.delivered = 3 := by
    decide
  refine ⟨hfirst, hwhole.2 ?_⟩
  rw [hthree pair' (List.mem_of_getElem? hpair')]
  decide

def bare : Packet := spoken 4000 .inbound 4294967290 .ackAlone preface

/-- A payload that begins like the preface and stands behind it. -/
def again : Packet := spoken 4000 .inbound 18 .ackAlone (preface ++ [65])

/-- After a payload that is only the preface, another preface is left out: of the 25 bytes behind
the first one, only the last can be read. -/
theorem preface_left_out_twice :
    LeavesOut handshaken 0 bare ∧ LeavesOut (handshakenThen bare) 0 again ∧
      ¬WholeFrom (handshakenThen bare) 0 ∧
      ((handshakenThen bare).handle again).pairs.map (·.inbound.handoff.items.flatten) =
        [[65]] := by
  have hsecond : LeavesOut (handshakenThen bare) 0 again := ⟨by decide, by decide⟩
  exact ⟨⟨by decide, by decide⟩, hsecond, hsecond.not_wholeFrom, by decide⟩

end Tracker

end StreamTap
