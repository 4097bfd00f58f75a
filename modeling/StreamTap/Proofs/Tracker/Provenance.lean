import Mathlib.Data.List.Induction
import StreamTap.Proofs.Tracker.Lifetime
import StreamTap.Proofs.Tracker.SecondPreface

/-!
# Where the bytes of a pair come from

A chunk that a buffer of a pair holds has come with a packet: it is the payload of the packet, or
of an inbound one the payload without the preface.  The packet travelled in the direction of the
buffer, belongs to the connection of the pair, and was accepted while the connection was
established and the pair was the one registered for it (`Source`).

Only the errand of such a packet writes.  Its writes are not made at once, and between them
consumers may do what they like, so the invariant is about the chunks that the pairs hold and the
writes that the errand at hand has yet to make (`Traced`).  A connection that was closed and opened
again has another pair, at another place.  That is why a source names the place and not only the
flow.

The two kinds of packets keep to their own.  One with payload does nothing to connections that are
known and neither opens nor closes a pair (`KeepsPairs`), and one without payload puts nothing into
a buffer and takes nothing out (`KeepsContents`).
-/

namespace StreamTap

/-! ## What a buffer holds -/

namespace Buffer

variable {b : Buffer} {chunk : Bytes}

/-- Whether a chunk is parked in a buffer, on offer or in its hand-off. -/
def Holds (b : Buffer) (chunk : Bytes) : Prop :=
  (∃ seq, b.parked.find? seq = some chunk) ∨ b.sending = some chunk ∨ chunk ∈ b.handoff.items

theorem not_holds_startingAt (seq : Seq) (window : UInt32) (capacity : Nat) (chunk : Bytes) :
    ¬(startingAt seq window capacity).Holds chunk := by
  rintro (⟨s, hs⟩ | hs | hs)
  · cases hs
  · cases hs
  · cases hs

namespace Holds

theorem of_prune (h : b.prune.Holds chunk) : b.Holds chunk := by
  rcases h with ⟨seq, hseq⟩ | hrest
  · refine Or.inl ⟨seq, ?_⟩
    simp only [prune, Parked.find?_filter] at hseq
    split at hseq
    · exact hseq
    · cases hseq
  · exact Or.inr hrest

theorem of_pull {moved : Bool} (h : (b.pull moved).Holds chunk) : b.Holds chunk := by
  revert h
  refine b.pull_elim (P := fun a => a.Holds chunk → b.Holds chunk) moved ?_ ?_ ?_
  · rintro pulled hpulled (⟨seq, hseq⟩ | hsending | hitems)
    · have hkept : (b.parked.erase b.expected).find? seq = some chunk := hseq
      refine Or.inl ⟨seq, ?_⟩
      by_cases hsame : b.expected = seq
      · subst hsame
        rw [Parked.find?_erase_self] at hkept
        cases hkept
      · rwa [Parked.find?_erase_of_ne _ (Ne.symm hsame)] at hkept
    · cases hsending
      exact Or.inl ⟨b.expected, hpulled⟩
    · exact Or.inr (Or.inr hitems)
  · exact fun _ _ => of_prune
  · exact fun _ _ h => h

theorem of_begin {w : Write} (h : (b.begin w).Holds chunk) :
    b.Holds chunk ∨ ∃ seq, w = .add seq chunk := by
  cases hvoid : w.isVoid with
  | true =>
    rw [b.begin_of_isVoid hvoid] at h
    exact Or.inl h
  | false =>
    revert h
    refine b.begin_elim (P := fun a => a.Holds chunk → _) hvoid ?_ ?_ ?_ ?_
    · exact fun _ _ _ _ _ h => Or.inl h
    · exact fun _ _ _ _ _ _ _ h => Or.inl h
    · rintro seq payload rfl _ _ _ h
      rcases h.of_pull with ⟨s, hs⟩ | hrest
      · by_cases hsame : seq = s
        · subst hsame
          rw [park, Parked.find?_insert_self] at hs
          cases hs
          exact Or.inr ⟨seq, rfl⟩
        · rw [park, Parked.find?_insert_of_ne _ _ hsame] at hs
          exact Or.inl (Or.inl ⟨s, hs⟩)
      · exact Or.inl (Or.inr hrest)
    · exact fun _ _ h => Or.inl h.of_pull.of_prune

theorem of_offer (hoffer : b.canOffer = true) (h : b.offer.Holds chunk) : b.Holds chunk := by
  revert h
  refine b.offer_elim (P := fun a => a.Holds chunk → b.Holds chunk) hoffer ?_ ?_
  · intro accepted hsending _ _ h
    rcases h.of_pull with hparked | hnone | hitems
    · exact Or.inl hparked
    · cases hnone
    · rcases List.mem_append.1 hitems with hitems | hlast
      · exact Or.inr (Or.inr hitems)
      · exact Or.inr (Or.inl (List.mem_singleton.1 hlast ▸ hsending))
  · rintro refused _ _ (hparked | hnone | hitems)
    · exact Or.inl hparked
    · cases hnone
    · exact Or.inr (Or.inr hitems)

theorem of_taken {first : Bytes} {rest : List Bytes} (hitems : b.handoff.items = first :: rest)
    (h : (b.taken first rest).Holds chunk) : b.Holds chunk := by
  rcases h with hparked | hsending | hrest
  · exact Or.inl hparked
  · exact Or.inr (Or.inl hsending)
  · exact Or.inr (Or.inr (hitems ▸ List.mem_cons_of_mem _ hrest))

end Holds

end Buffer

theorem Pair.holds_close {pair : Pair} {d : Direction} {chunk : Bytes}
    (h : (pair.close.buffer d).Holds chunk) : (pair.buffer d).Holds chunk := by
  cases d <;> exact h

theorem Pair.holds_withBuffer {pair : Pair} {b : Buffer} {d d' : Direction} {chunk : Bytes}
    (h : ((pair.withBuffer b d).buffer d').Holds chunk) :
    d' = d ∧ b.Holds chunk ∨ (pair.buffer d').Holds chunk := by
  by_cases hd : d = d'
  · subst hd
    rw [buffer_withBuffer] at h
    exact Or.inl ⟨rfl, h⟩
  · rw [buffer_withBuffer_of_ne _ _ hd] at h
    exact Or.inr h

namespace Tracker

variable {t t' : Tracker} {place : Nat} {d : Direction} {p : Packet} {deed : Deed} {chunk : Bytes}

/-! ## Packets that are sources -/

/-- A packet with payload comes up next, while its connection is established and the pair at this
place is registered for it. -/
structure Carries (t : Tracker) (p : Packet) (place : Nat) : Prop where
  idle : t.isIdle = true
  payload : p.hasPayload = true
  established : t.phaseOf p.connection = .established
  registered : t.streams.find? p.connection = some place

/-- Where a chunk comes from that one direction of the pair at a place holds. -/
inductive Source (t₀ : Tracker) (deeds : List Deed) (flow : Flow) (place : Nat) :
    Direction → Bytes → Prop
  /-- It is the payload of an inbound packet, or what is left of it behind the preface. -/
  | inbound {chunk : Bytes} (done : List Deed) (p : Packet) : done ++ [.accept p] <+: deeds →
      (t₀.course done).Carries p place → p.connection = flow → p.direction = .inbound →
      p.payload = chunk ∨ p.payload = preface ++ chunk → Source t₀ deeds flow place .inbound chunk
  /-- It is the payload of an outbound packet, and those are wanted. -/
  | outbound {chunk : Bytes} (done : List Deed) (p : Packet) : done ++ [.accept p] <+: deeds →
      (t₀.course done).Carries p place → p.connection = flow → p.direction = .outbound →
      t₀.captureResponse = true → p.payload = chunk → Source t₀ deeds flow place .outbound chunk

theorem Source.mono {t₀ : Tracker} {deeds later : List Deed} {flow : Flow}
    (h : Source t₀ deeds flow place d chunk) (hlater : deeds <+: later) :
    Source t₀ later flow place d chunk := by
  cases h with
  | inbound done p hdone hcarries hflow hdirection hpayload =>
    exact .inbound done p (hdone.trans hlater) hcarries hflow hdirection hpayload
  | outbound done p hdone hcarries hflow hdirection hwanted hpayload =>
    exact .outbound done p (hdone.trans hlater) hcarries hflow hdirection hwanted hpayload

/-- The payload comes from an errand that accepting a packet has set, and the packet carries it. -/
theorem carries_of_errand {ws : List Write} (hidle : t.errand = none)
    (h : (t.accept p).errand = some (.deliver place d ws)) :
    t.Carries p place ∧ d = p.direction ∧ ∀ seq chunk, .add seq chunk ∈ ws →
      (d = .inbound ∧ (p.payload = chunk ∨ p.payload = preface ++ chunk)) ∨
        (d = .outbound ∧ t.captureResponse = true ∧ p.payload = chunk) := by
  obtain ⟨hpayload, hphase, hroute⟩ := routed_of_errand_accept hidle h
  have hquiet : (t.noticed p).errand = none := hidle
  have hsame : (t.noticed p).pairOf? p.connection = t.pairOf? p.connection := rfl
  rw [route, hsame] at hroute
  cases hpair : t.pairOf? p.connection with
  | none =>
    rw [hpair] at hroute
    cases hquiet.symm.trans hroute
  | some found =>
    obtain ⟨n, pair⟩ := found
    have hplace := (pairOf?_eq_some_iff.1 hpair).1
    have hcarries : t.Carries p n := ⟨by simp [isIdle, hidle], hpayload, hphase, hplace⟩
    simp only [hpair] at hroute
    cases hdirection : p.direction with
    | inbound =>
      rw [hdirection] at hroute
      cases hroute
      refine ⟨hcarries, rfl, ?_⟩
      intro seq chunk hmem
      refine Or.inl ⟨rfl, ?_⟩
      cases hopens : opensStream pair.inbound p.seq p.payload with
      | false =>
        rw [inboundWrites_of_not hopens, List.mem_singleton, Write.add.injEq] at hmem
        exact Or.inl hmem.2.symm
      | true =>
        obtain ⟨⟨rest, hrest⟩, -, -⟩ := opensStream_iff.1 hopens
        rw [inboundWrites_eq_iff.2 hopens, ← hrest, List.drop_left, writesBehind, List.mem_cons,
          List.mem_singleton] at hmem
        rcases hmem with hmem | hmem
        · cases hmem
        · rw [Write.add.injEq] at hmem
          exact Or.inr (by rw [hmem.2, hrest])
    | outbound =>
      simp only [hdirection] at hroute
      split at hroute
      · next hwanted =>
        cases hroute
        refine ⟨hcarries, rfl, ?_⟩
        intro seq chunk hmem
        rw [List.mem_singleton, Write.add.injEq] at hmem
        exact Or.inr ⟨rfl, hwanted, hmem.2.symm⟩
      · cases hquiet.symm.trans hroute

/-! ## The invariant -/

/-- Where the chunks of a tracker come from, as the flow of a pair, its place, a direction and a
chunk say it. -/
structure Traced (S : Flow → Nat → Direction → Bytes → Prop) (t : Tracker) : Prop where
  /-- What a pair holds has a source. -/
  held : ∀ {place pair d chunk}, t.pairs[place]? = some pair → (pair.buffer d).Holds chunk →
    S pair.flow place d chunk
  /-- What is still to be written has a source, and its connection is established and has this
  pair. -/
  written : ∀ {place d ws}, t.errand = some (.deliver place d ws) →
    ∃ pair, t.pairs[place]? = some pair ∧ t.streams.find? pair.flow = some place ∧
      t.phaseOf pair.flow = .established ∧
      ∀ seq chunk, .add seq chunk ∈ ws → S pair.flow place d chunk

namespace Traced

variable {S S' : Flow → Nat → Direction → Bytes → Prop}

theorem mono (h : Traced S t) (hS : ∀ {flow place d chunk}, S flow place d chunk →
    S' flow place d chunk) : Traced S' t where
  held := fun hpair hchunk => hS (h.held hpair hchunk)
  written := by
    intro place d ws herrand
    obtain ⟨pair, hpair, hplace, hphase, hwrites⟩ := h.written herrand
    exact ⟨pair, hpair, hplace, hphase, fun seq chunk hmem => hS (hwrites seq chunk hmem)⟩

theorem of_held (hheld : ∀ {place pair d chunk}, t.pairs[place]? = some pair →
      (pair.buffer d).Holds chunk → S pair.flow place d chunk)
    (herrand : ∀ place d ws, t.errand ≠ some (.deliver place d ws)) : Traced S t :=
  ⟨hheld, fun h => absurd h (herrand _ _ _)⟩

theorem modifyPair (h : Traced S t) (n : Nat) {f : Pair → Pair}
    (hflow : ∀ pair, (f pair).flow = pair.flow)
    (hheld : ∀ pair, t.pairs[n]? = some pair → ∀ d chunk, ((f pair).buffer d).Holds chunk →
      S pair.flow n d chunk) : Traced S (t.modifyPair n f) where
  held := by
    intro place pair' d chunk hpair' hchunk
    obtain ⟨pair, hpair, ⟨rfl, rfl⟩ | ⟨-, rfl⟩⟩ := modifyPair_back hpair'
    · rw [hflow]
      exact hheld pair hpair d chunk hchunk
    · exact h.held hpair hchunk
  written := by
    intro place d ws herrand
    obtain ⟨pair, hpair, hplace, hphase, hwrites⟩ := h.written herrand
    by_cases hn : n = place
    · subst hn
      refine ⟨f pair, by simp [Tracker.modifyPair, hpair], ?_⟩
      rw [hflow]
      exact ⟨hplace, hphase, hwrites⟩
    · exact ⟨pair, ((Besides.modifyPair n t f).others place (Ne.symm hn)).trans hpair, hplace,
        hphase, hwrites⟩

theorem close (h : Traced S t) (n : Nat) : Traced S (t.modifyPair n Pair.close) :=
  h.modifyPair n (fun _ => rfl) fun _ hpair _ _ hchunk => h.held hpair (Pair.holds_close hchunk)

theorem putBuffer (h : Traced S t) {n : Nat} {pair : Pair} {b : Buffer}
    (hpair : t.pairs[n]? = some pair)
    (hheld : ∀ chunk, b.Holds chunk → S pair.flow n d chunk) : Traced S (t.putBuffer n d b) := by
  refine h.modifyPair n (fun pair => by cases d <;> rfl) ?_
  intro found hfound d' chunk hchunk
  cases hpair.symm.trans hfound
  rcases Pair.holds_withBuffer hchunk with ⟨rfl, hput⟩ | hkept
  · exact hheld chunk hput
  · exact h.held hpair hkept

theorem step (h : Traced S t) (hstep : t.step = some t') : Traced S t' := by
  cases herrand : t.errand with
  | none =>
    rw [step_of_errand_none herrand] at hstep
    cases hstep
  | some e =>
    cases e with
    | announce n =>
      have hdone : Traced S { t with errand := none } :=
        of_held h.held (fun _ _ _ he => by cases he)
      rcases step_announce herrand hstep with rfl | ⟨channel, rfl⟩ | rfl
      · exact hdone
      · exact of_held h.held (fun _ _ _ he => by cases he)
      · exact hdone.close n
    | deliver n d ws =>
      obtain ⟨pair, hpair, hways⟩ := step_deliver herrand hstep
      rcases hways with ⟨hoffer, rfl⟩ | ⟨w, rest, rfl, -, rfl⟩ | ⟨-, -, rfl⟩
      · exact h.putBuffer hpair fun chunk hchunk => h.held hpair (.of_offer hoffer hchunk)
      · obtain ⟨found, hfound, hplace, hphase, hwrites⟩ := h.written herrand
        cases hpair.symm.trans hfound
        have hless : Traced S { t with errand := some (.deliver n d rest) } := by
          refine ⟨h.held, fun he => ?_⟩
          cases he
          exact ⟨pair, hpair, hplace, hphase, fun seq chunk hmem =>
            hwrites seq chunk (List.mem_cons_of_mem _ hmem)⟩
        refine hless.putBuffer hpair fun chunk hchunk => ?_
        rcases Buffer.Holds.of_begin hchunk with hold | ⟨seq, rfl⟩
        · exact h.held hpair hold
        · exact hwrites seq chunk List.mem_cons_self
      · exact of_held h.held (fun _ _ _ he => by cases he)

theorem perform (h : Traced S t) (hdeed : ∀ q, deed ≠ .accept q) : Traced S (t.perform deed) := by
  refine t.perform_elim (P := Traced S) deed h ?_ ?_ ?_ ?_ ?_
  · exact fun q hq => absurd hq (hdeed q)
  · exact fun _ _ hstep => h.step hstep
  · intro n d pair chunk rest _ hpair hitems
    exact h.putBuffer hpair fun chunk hchunk => h.held hpair (.of_taken hitems hchunk)
  · exact fun n _ => h.close n
  · exact fun _ _ => ⟨h.held, h.written⟩

theorem shutdown (h : Traced S t) (hidle : t.errand = none) : Traced S t.shutdown := by
  suffices hclosed : ∀ (places : List Nat) (t : Tracker), Traced S t →
      Traced S { t with
        pairs := places.foldl (fun pairs n => pairs.modify n Pair.close) t.pairs } by
    have hall := hclosed t.streams.values t h
    exact of_held (fun hpair hchunk => hall.held hpair hchunk) fun _ _ _ herrand => by
      cases hidle.symm.trans herrand
  intro places
  induction places with
  | nil => exact fun _ h => h
  | cons n places ih => exact fun t h => ih (t.modifyPair n Pair.close) (h.close n)

theorem accept (h : Traced S t) (hregistered : Registered t) (hidle : t.errand = none)
    (hsource : ∀ place d chunk, t.Carries p place → p.direction = d →
      (d = .inbound ∧ (p.payload = chunk ∨ p.payload = preface ++ chunk)) ∨
        (d = .outbound ∧ t.captureResponse = true ∧ p.payload = chunk) →
      S p.connection place d chunk) : Traced S (t.accept p) := by
  obtain ⟨ps, new, hpairs, hps, hnew⟩ := t.pairs_accept p
  have hold : Traced S { t with pairs := ps } := by
    rcases hps with rfl | ⟨n, rfl⟩
    · exact h
    · exact h.close n
  refine ⟨?_, ?_⟩
  · intro place pair d chunk hpair hchunk
    rw [hpairs] at hpair
    by_cases hlt : place < ps.length
    · rw [List.getElem?_append_left hlt] at hpair
      exact hold.held hpair hchunk
    · rw [List.getElem?_append_right (Nat.le_of_not_lt hlt)] at hpair
      obtain ⟨seq, window, capacity, hbuffer⟩ := hnew pair (List.mem_of_getElem? hpair) d
      rw [hbuffer] at hchunk
      exact absurd hchunk (Buffer.not_holds_startingAt seq window capacity chunk)
  · intro place d ws herrand
    obtain ⟨hcarries, rfl, hwrites⟩ := carries_of_errand hidle herrand
    obtain ⟨pair, hpair, hflow⟩ := (hregistered p.connection).labelled hcarries.registered
    have haccept := accept_of_payload hcarries.payload hcarries.established
    have hsame : SameFile p.connection (t.noticed p) (t.accept p) :=
      haccept ▸ SameFile.route (t.noticed p) p p.connection
    refine ⟨pair, ?_, ?_, ?_, ?_⟩
    · rw [haccept, (pairs_route _ p).1]
      exact hpair
    · rw [hflow, hsame.place]
      exact hcarries.registered
    · rw [hflow, phaseOf, hsame.connection, ← phaseOf, phaseOf_noticed]
      exact hcarries.established
    · intro seq chunk hmem
      rw [hflow]
      exact hsource place _ chunk hcarries rfl (hwrites seq chunk hmem)

end Traced

/-- In every state that a tracker can come to, what its pairs hold has come with a packet. -/
theorem traced_course (s : Settings) (announcements : Option (Channel Nat)) (deeds : List Deed) :
    Traced (Source (ofSettings s announcements) deeds)
      ((ofSettings s announcements).course deeds) := by
  induction deeds using List.reverseRecOn with
  | nil => exact .of_held (fun hpair => by cases hpair) fun _ _ _ herrand => by cases herrand
  | append_singleton done deed ih =>
    have hmono : Traced (Source (ofSettings s announcements) (done ++ [deed]))
        ((ofSettings s announcements).course done) :=
      ih.mono fun hsource => hsource.mono (List.prefix_append _ _)
    rw [course_concat]
    by_cases haccept : ∃ p, deed = .accept p
    · obtain ⟨p, rfl⟩ := haccept
      cases hidle : ((ofSettings s announcements).course done).isIdle with
      | false =>
        rw [Tracker.perform, hidle, if_neg Bool.false_ne_true]
        exact hmono
      | true =>
        rw [Tracker.perform, hidle, if_pos rfl]
        refine hmono.accept ((Registered.ofSettings s announcements).course done)
          (Option.isNone_iff_eq_none.1 hidle) ?_
        rintro place d chunk hcarries hdirection (⟨rfl, hpayload⟩ | ⟨rfl, hwanted, hpayload⟩)
        · exact .inbound done p (List.prefix_refl _) hcarries rfl hdirection hpayload
        · have hsame : ((ofSettings s announcements).course done).captureResponse =
              (ofSettings s announcements).captureResponse :=
            (Orderly.course _ done).captureResponse
          exact .outbound done p (List.prefix_refl _) hcarries rfl hdirection
            (hsame.symm.trans hwanted) hpayload
    · exact hmono.perform fun p hp => haccept ⟨p, hp⟩

/-! ## What consumers have taken -/

/-- The chunk that a deed takes out of the hand-off of a buffer, if it does. -/
def drawnBy (t : Tracker) (place : Nat) (d : Direction) (deed : Deed) : List Bytes :=
  if deed = .take place d then
    match t.pairs[place]? with
    | none => []
    | some pair =>
      match (pair.buffer d).take with
      | .chunk chunk _ => [chunk]
      | .nothing => []
      | .closed => []
  else []

/-- The chunks that are taken out of the hand-off of a buffer in the course of some deeds. -/
def drawn (place : Nat) (d : Direction) : Tracker → List Deed → List Bytes
  | _, [] => []
  | t, deed :: deeds => t.drawnBy place d deed ++ drawn place d (t.perform deed) deeds

theorem held_of_drawn {deeds : List Deed} (h : chunk ∈ drawn place d t deeds) :
    ∃ done, done <+: deeds ∧ ∃ pair, (t.course done).pairs[place]? = some pair ∧
      (pair.buffer d).Holds chunk := by
  induction deeds generalizing t with
  | nil => cases h
  | cons deed deeds ih =>
    rcases List.mem_append.1 h with hfirst | hlater
    · refine ⟨[], List.nil_prefix, ?_⟩
      unfold drawnBy at hfirst
      split at hfirst
      · split at hfirst
        · cases hfirst
        · next pair hpair =>
          rcases (pair.buffer d).take_cases with
            ⟨oldest, rest, hitems, htake⟩ | ⟨-, -, htake⟩ | ⟨-, -, htake⟩ <;> rw [htake] at hfirst
          · rw [List.mem_singleton.1 hfirst]
            exact ⟨pair, hpair, Or.inr (Or.inr (hitems ▸ List.mem_cons_self))⟩
          · cases hfirst
          · cases hfirst
      · cases hfirst
    · obtain ⟨done, hdone, hheld⟩ := ih hlater
      exact ⟨deed :: done, List.cons_prefix_cons.2 ⟨rfl, hdone⟩, hheld⟩

/-- What was taken has a source, if all that was ever held has one. -/
theorem source_of_drawn {S : Flow → Nat → Direction → Bytes → Prop} {deeds : List Deed}
    {pair : Pair} (htraced : ∀ done, done <+: deeds → Traced S (t.course done))
    (hpair : (t.course deeds).pairs[place]? = some pair) (h : chunk ∈ drawn place d t deeds) :
    S pair.flow place d chunk := by
  obtain ⟨done, ⟨later, rfl⟩, before, hbefore, hheld⟩ := held_of_drawn h
  have hsplit : t.course (done ++ later) = (t.course done).course later := List.foldl_append
  obtain ⟨pair', hpair', hages⟩ := Ages.course (t.course done) later place before hbefore
  rw [hsplit] at hpair
  cases hpair.symm.trans hpair'
  rw [hages.flow]
  exact (htraced done (List.prefix_append _ _)).held hbefore hheld

/-! ## The pair at one place -/

/-- There is a pair at this place, and something is true of it. -/
def PairAt (place : Nat) (R : Pair → Prop) (t : Tracker) : Prop :=
  ∃ pair, t.pairs[place]? = some pair ∧ R pair

namespace PairAt

variable {R : Pair → Prop}

theorem modifyPair (h : PairAt place R t) (n : Nat) {f : Pair → Pair}
    (hf : n = place → ∀ pair, t.pairs[n]? = some pair → R pair → R (f pair)) :
    PairAt place R (t.modifyPair n f) := by
  obtain ⟨pair, hpair, hR⟩ := h
  by_cases hn : n = place
  · subst hn
    exact ⟨f pair, by simp [Tracker.modifyPair, hpair], hf rfl pair hpair hR⟩
  · exact ⟨pair, ((Besides.modifyPair n t f).others place (Ne.symm hn)).trans hpair, hR⟩

theorem putBuffer (h : PairAt place R t) {n : Nat} {pair : Pair} {b : Buffer}
    (hpair : t.pairs[n]? = some pair) (hf : n = place → R pair → R (pair.withBuffer b d)) :
    PairAt place R (t.putBuffer n d b) := by
  refine h.modifyPair n ?_
  intro hn found hfound hR
  cases hpair.symm.trans hfound
  exact hf hn hR

end PairAt

/-! ## Packets with payload -/

/-- What is not touched between two states of a tracker, where consumers have done `more`
meanwhile: the connections that are known, and the pairs up to their contents. -/
structure KeepsPairs (t t' : Tracker) (more : List Deed) : Prop where
  connections : ∀ {flow c}, t.connections.find? flow = some c →
    t'.connections.find? flow = some c
  streams : t'.streams = t.streams
  length : t'.pairs.length = t.pairs.length
  closed : ∀ {place pair}, t.pairs[place]? = some pair → .close place ∉ more →
    PairAt place (fun pair' => ∀ d, (pair'.buffer d).isClosed = (pair.buffer d).isClosed) t'

/-- Nothing is to be announced, and the pair at this place is closed as far as `pair₀` is. -/
structure AsClosed (place : Nat) (pair₀ : Pair) (t : Tracker) : Prop where
  quiet : ∀ n, t.errand ≠ some (.announce n)
  pair : PairAt place (fun pair => ∀ d, (pair.buffer d).isClosed = (pair₀.buffer d).isClosed) t

namespace AsClosed

variable {pair₀ : Pair}

theorem putBuffer (h : AsClosed place pair₀ t) {n : Nat} {pair : Pair} {b : Buffer}
    (hpair : t.pairs[n]? = some pair) (hb : b.isClosed = (pair.buffer d).isClosed) :
    AsClosed place pair₀ (t.putBuffer n d b) := by
  refine ⟨h.quiet, h.pair.putBuffer hpair ?_⟩
  intro _ hclosed d'
  by_cases hd : d = d'
  · subst hd
    rw [Pair.buffer_withBuffer, hb, hclosed]
  · rw [Pair.buffer_withBuffer_of_ne _ _ hd, hclosed]

theorem perform (h : AsClosed place pair₀ t)
    (hdeed : (∀ q, deed ≠ .accept q) ∧ deed ≠ .close place) :
    AsClosed place pair₀ (t.perform deed) := by
  refine t.perform_elim (P := AsClosed place pair₀) deed h ?_ ?_ ?_ ?_ ?_
  · exact fun q hq => absurd hq (hdeed.1 q)
  · intro t' _ hstep
    cases herrand : t.errand with
    | none =>
      rw [step_of_errand_none herrand] at hstep
      cases hstep
    | some e =>
      cases e with
      | announce n => exact absurd herrand (h.quiet n)
      | deliver n d ws =>
        obtain ⟨pair, hpair, ⟨hoffer, rfl⟩ | ⟨w, rest, -, -, rfl⟩ | ⟨-, -, rfl⟩⟩ :=
          step_deliver herrand hstep
        · exact h.putBuffer hpair ((pair.buffer d).isClosed_offer hoffer)
        · exact ⟨nofun, (h.putBuffer hpair ((pair.buffer d).isClosed_begin w)).pair⟩
        · exact ⟨nofun, h.pair⟩
  · exact fun n d pair chunk rest _ hpair _ => h.putBuffer hpair rfl
  · intro n hn
    refine ⟨h.quiet, h.pair.modifyPair n fun hplace => ?_⟩
    rw [hplace] at hn
    exact absurd hn hdeed.2
  · exact fun _ _ => ⟨h.quiet, h.pair⟩

end AsClosed

theorem find?_noticed_of_some {flow : Flow} {c : Connection}
    (h : t.connections.find? flow = some c) : (t.noticed p).connections.find? flow = some c := by
  by_cases hflow : p.connection = flow
  · subst hflow
    rw [noticed, Registry.find?_ensure_self, h, Option.getD_some]
  · rw [noticed, Registry.find?_ensure_of_ne _ _ hflow]
    exact h

theorem accept_payload (hidle : t.errand = none) (hpayload : p.hasPayload = true) :
    (∀ n, (t.accept p).errand ≠ some (.announce n)) ∧
      (t.accept p).connections = (t.noticed p).connections ∧
      (t.accept p).streams = t.streams ∧ (t.accept p).pairs = t.pairs := by
  have hnone : ∀ n, (t.noticed p).errand ≠ some (.announce n) := by
    intro n he
    cases hidle.symm.trans he
  rw [accept_eq, if_pos hpayload]
  split
  · unfold route
    split
    · exact ⟨hnone, rfl, rfl, rfl⟩
    · split
      · exact ⟨nofun, rfl, rfl, rfl⟩
      · split
        · exact ⟨nofun, rfl, rfl, rfl⟩
        · exact ⟨hnone, rfl, rfl, rfl⟩
  · exact ⟨hnone, rfl, rfl, rfl⟩

theorem keepsPairs (hidle : t.errand = none) (hpayload : p.hasPayload = true) {more : List Deed}
    (hmore : ∀ q, .accept q ∉ more) : KeepsPairs t ((t.accept p).course more) more := by
  obtain ⟨hquiet, hconnections, hstreams, hpairs⟩ := accept_payload hidle hpayload
  obtain ⟨hlater, hlater'⟩ := (t.accept p).registers_course hmore
  refine ⟨?_, hlater'.trans hstreams, ?_, ?_⟩
  · intro flow c hc
    rw [hlater, hconnections]
    exact find?_noticed_of_some hc
  · refine course_keeps_meanwhile (P := fun t' => t'.pairs.length = t.pairs.length) ?_
      (congrArg List.length hpairs) hmore
    intro t' deed hdeed hlength
    exact (t'.registers_perform hdeed).2.2.trans hlength
  · intro place pair hpair hclose
    have hbegin : AsClosed place pair (t.accept p) :=
      ⟨hquiet, pair, hpairs ▸ hpair, fun _ => rfl⟩
    refine (course_keeps (K := fun deed => (∀ q, deed ≠ .accept q) ∧ deed ≠ .close place)
      (fun hdeed h => h.perform hdeed) hbegin ?_).pair
    exact fun deed hmem => ⟨fun q hq => hmore q (hq ▸ hmem), fun hq => hclose (hq ▸ hmem)⟩

/-! ## Packets without payload -/

/-- Two buffers with the same numbers, parked segments and chunks. -/
structure SameContents (b b' : Buffer) : Prop where
  expected : b'.expected = b.expected
  published : b'.published = b.published
  parked : b'.parked = b.parked
  sending : b'.sending = b.sending
  items : b'.handoff.items = b.handoff.items

/-- What the buffers contain is the same in two states of a tracker, where consumers have done
`more` meanwhile. -/
def KeepsContents (t t' : Tracker) (more : List Deed) : Prop :=
  ∀ {place pair d}, t.pairs[place]? = some pair → .take place d ∉ more →
    PairAt place (fun pair' => SameContents (pair.buffer d) (pair'.buffer d)) t'

theorem SameContents.close {b : Buffer} {pair : Pair} (h : SameContents b (pair.buffer d)) :
    SameContents b (pair.close.buffer d) := by
  cases d <;> exact ⟨h.expected, h.published, h.parked, h.sending, h.items⟩

/-- There is nothing to write, and one buffer of the pair at this place contains what `b` does. -/
structure AsFilled (place : Nat) (d : Direction) (b : Buffer) (t : Tracker) : Prop where
  quiet : ∀ n d ws, t.errand ≠ some (.deliver n d ws)
  pair : PairAt place (fun pair => SameContents b (pair.buffer d)) t

namespace AsFilled

variable {b : Buffer}

theorem close (h : AsFilled place d b t) (n : Nat) :
    AsFilled place d b (t.modifyPair n Pair.close) :=
  ⟨h.quiet, h.pair.modifyPair n fun _ _ _ hpair => hpair.close⟩

theorem perform (h : AsFilled place d b t)
    (hdeed : (∀ q, deed ≠ .accept q) ∧ deed ≠ .take place d) :
    AsFilled place d b (t.perform deed) := by
  refine t.perform_elim (P := AsFilled place d b) deed h ?_ ?_ ?_ ?_ ?_
  · exact fun q hq => absurd hq (hdeed.1 q)
  · intro t' _ hstep
    cases herrand : t.errand with
    | none =>
      rw [step_of_errand_none herrand] at hstep
      cases hstep
    | some e =>
      cases e with
      | announce n =>
        rcases step_announce herrand hstep with rfl | ⟨channel, rfl⟩ | rfl
        · exact ⟨nofun, h.pair⟩
        · exact ⟨nofun, h.pair⟩
        · exact ⟨nofun, (h.close n).pair⟩
      | deliver n d ws => exact absurd herrand (h.quiet n d ws)
  · intro n d' pair chunk rest htake hpair _
    refine ⟨h.quiet, h.pair.putBuffer hpair ?_⟩
    rintro rfl hkept
    have hd : d' ≠ d := by
      rintro rfl
      exact hdeed.2 htake
    rw [Pair.buffer_withBuffer_of_ne _ _ hd]
    exact hkept
  · exact fun n _ => h.close n
  · exact fun _ _ => ⟨h.quiet, h.pair⟩

end AsFilled

theorem keepsContents (hidle : t.errand = none) (hpayload : p.hasPayload = false)
    {more : List Deed} (hmore : ∀ q, .accept q ∉ more) :
    KeepsContents t ((t.accept p).course more) more := by
  intro place pair d hpair htake
  have hquiet : ∀ n d ws, (t.accept p).errand ≠ some (.deliver n d ws) := by
    intro n d ws herrand
    have hpayload' := (routed_of_errand_accept hidle herrand).1
    exact absurd (hpayload.symm.trans hpayload') Bool.false_ne_true
  have hbegin : AsFilled place d (pair.buffer d) { t with pairs := t.pairs } :=
    ⟨fun n d ws he => (by cases hidle.symm.trans he), pair, hpair, rfl, rfl, rfl, rfl, rfl⟩
  obtain ⟨ps, new, hpairs, hps, -⟩ := t.pairs_accept p
  have hclosed : AsFilled place d (pair.buffer d) { t with pairs := ps } := by
    rcases hps with rfl | ⟨n, rfl⟩
    · exact hbegin
    · exact hbegin.close n
  have haccept : AsFilled place d (pair.buffer d) (t.accept p) := by
    obtain ⟨pair', hpair', hsame⟩ := hclosed.pair
    refine ⟨hquiet, pair', ?_, hsame⟩
    rw [hpairs, List.getElem?_append_left (List.getElem?_eq_some_iff.1 hpair').1]
    exact hpair'
  refine (course_keeps (K := fun deed => (∀ q, deed ≠ .accept q) ∧ deed ≠ .take place d)
    (fun hdeed h => h.perform hdeed) haccept ?_).pair
  exact fun deed hmem => ⟨fun q hq => hmore q (hq ▸ hmem), fun hq => htake (hq ▸ hmem)⟩

/-! ## The main theorem -/

/-- Whatever packets a tracker has handled, and whatever consumers have done meanwhile:

* every chunk that a buffer of a pair holds or has given to a reader has come with a packet that
  was accepted while the connection of the pair was established and had this pair, in the
  direction of the buffer, and without the preface at most;
* none is in an outbound buffer when those are not wanted;
* what is still to be written belongs to a connection that is established and has this pair;
* a packet with payload changes no connection that is known and neither opens nor closes a pair,
  and one without payload changes the contents of no buffer;
* this is still so of the pairs that are read after the end of the tracking. -/
theorem payload_provenance (s : Settings) (announcements : Option (Channel Nat))
    (deeds : List Deed) :
    let t₀ := ofSettings s announcements
    let t := t₀.course deeds
    (∀ place pair d chunk, t.pairs[place]? = some pair →
        (pair.buffer d).Holds chunk ∨ chunk ∈ drawn place d t₀ deeds →
        Source t₀ deeds pair.flow place d chunk) ∧
      (s.tracker.captureResponse = false → ∀ place pair chunk, t.pairs[place]? = some pair →
        ¬(pair.outbound.Holds chunk ∨ chunk ∈ drawn place .outbound t₀ deeds)) ∧
      (∀ place d ws, t.errand = some (.deliver place d ws) →
        ∃ pair, t.pairs[place]? = some pair ∧ t.streams.find? pair.flow = some place ∧
          t.phaseOf pair.flow = .established) ∧
      ∀ more, t.isIdle = true → (∀ q, .accept q ∉ more) →
        (∀ p, p.hasPayload = true → KeepsPairs t ((t.perform (.accept p)).course more) more) ∧
          (∀ p, p.hasPayload = false →
            KeepsContents t ((t.perform (.accept p)).course more) more) ∧
          ∀ place pair d chunk, (t.shutdown.course more).pairs[place]? = some pair →
            (pair.buffer d).Holds chunk ∨ chunk ∈ drawn place d t.shutdown more →
            Source t₀ deeds pair.flow place d chunk := by
  intro t₀ t
  have htraced : Traced (Source t₀ deeds) t := traced_course s announcements deeds
  have hsources : ∀ place pair d chunk, t.pairs[place]? = some pair →
      (pair.buffer d).Holds chunk ∨ chunk ∈ drawn place d t₀ deeds →
      Source t₀ deeds pair.flow place d chunk := by
    rintro place pair d chunk hpair (hheld | hdrawn)
    · exact htraced.held hpair hheld
    · refine source_of_drawn (fun done hdone => ?_) hpair hdrawn
      exact (traced_course s announcements done).mono fun hsource => hsource.mono hdone
  refine ⟨hsources, ?_, ?_, ?_⟩
  · intro hunwanted place pair chunk hpair hchunk
    cases hsources place pair .outbound chunk hpair hchunk with
    | outbound _ _ _ _ _ _ hwanted _ =>
      exact absurd (hunwanted.symm.trans hwanted) Bool.false_ne_true
  · intro place d ws herrand
    obtain ⟨pair, hpair, hplace, hphase, -⟩ := htraced.written herrand
    exact ⟨pair, hpair, hplace, hphase⟩
  · intro more hidle hmore
    have hnone : t.errand = none := Option.isNone_iff_eq_none.1 hidle
    have haccept : ∀ p, t.perform (.accept p) = t.accept p := by
      intro p
      rw [perform, hidle, if_pos rfl]
    refine ⟨?_, ?_, ?_⟩
    · intro p hpayload
      rw [haccept]
      exact keepsPairs hnone hpayload hmore
    · intro p hpayload
      rw [haccept]
      exact keepsContents hnone hpayload hmore
    · have hafter : ∀ done, done <+: more → Traced (Source t₀ deeds) (t.shutdown.course done) := by
        intro done hdone
        refine course_keeps_meanwhile (fun hdeed h => h.perform hdeed) (htraced.shutdown hnone) ?_
        exact fun q hq => hmore q (hdone.subset hq)
      rintro place pair d chunk hpair (hheld | hdrawn)
      · exact (hafter more (List.prefix_refl _)).held hpair hheld
      · exact source_of_drawn hafter hpair hdrawn

/-- The handshake, a payload that begins with the preface, and a reader. -/
def prefacedAndRead : List Deed :=
  greeting ++ [.accept greeted, .accept prefaced] ++ List.replicate 4 .step ++ [.take 0 .inbound]

/-- What the reader gets is the payload without the preface, and nothing else has come in. -/
theorem payload_provenance_prefaced :
    let t₀ := ofSettings {} none
    let t := t₀.course prefacedAndRead
    drawn 0 .inbound t₀ prefacedAndRead = [[65, 66, 67]] ∧
      Source t₀ prefacedAndRead prefaced.connection 0 .inbound [65, 66, 67] ∧ t.isIdle = true ∧
      KeepsPairs t ((t.perform (.accept again)).course []) [] ∧
      KeepsContents t ((t.perform (.accept greeted)).course []) [] := by
  intro t₀ t
  obtain ⟨hsources, -, -, hkeeps⟩ := payload_provenance {} none prefacedAndRead
  have hdrawn : drawn 0 .inbound t₀ prefacedAndRead = [[65, 66, 67]] := by decide
  have hidle : t.isIdle = true := by decide
  obtain ⟨hpayload, hbare, -⟩ := hkeeps [] hidle fun _ => List.not_mem_nil
  obtain ⟨pair, hpair, hflow⟩ :
      ∃ pair, t.pairs[0]? = some pair ∧ pair.flow = prefaced.connection := by decide
  refine ⟨hdrawn, ?_, hidle, hpayload again (by decide), hbare greeted (by decide)⟩
  rw [← hflow]
  exact hsources 0 pair .inbound _ hpair (Or.inr (hdrawn ▸ List.mem_cons_self))

end Tracker

end StreamTap
