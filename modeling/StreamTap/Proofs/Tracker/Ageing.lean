import Mathlib.Logic.Relation
import StreamTap.Proofs.Stream.History
import StreamTap.Proofs.Tracker.Registers

/-!
# What is never taken back

`perform_elim` lists what a deed can do.  Only a packet that is accepted writes into the registers
or opens a pair (`registers_perform`); everything else moves inside the pairs and the announcements.

Inside the pairs, time goes one way (`Ages`): a pair stays at its place and keeps its flow, and
what happens to its two buffers are changes that a history of a buffer can make.  So an invariant
of histories holds of the buffers of a tracker as well (`AllBuffers.course`).  Some things are never
undone: a buffer that is closed stays closed, and what was delivered stays delivered.  It is enough
to find them out once; nothing that happens later, to this connection or another, changes them.
-/

namespace StreamTap

/-! ## Buffers and pairs -/

/-- A buffer and a later state of it: changes as in a history lead from one to the other, whatever
was recorded before. -/
def Buffer.Ages (b b' : Buffer) : Prop :=
  ∀ r, ∃ r', Relation.ReflTransGen
    (fun x y : Buffer × Record => Change True x.1 x.2 y.1 y.2) (b, r) (b', r')

namespace Buffer.Ages

variable {b b' b'' : Buffer} {chunk : Bytes}

theorem refl (b : Buffer) : Ages b b := fun r => ⟨r, .refl⟩

theorem trans (h : Ages b b') (h' : Ages b' b'') : Ages b b'' := by
  intro r
  obtain ⟨r', hfirst⟩ := h r
  obtain ⟨r'', hlast⟩ := h' r'
  exact ⟨r'', hfirst.trans hlast⟩

theorem of_change (h : ∀ r, ∃ r', Change True b r b' r') : Ages b b' := by
  intro r
  obtain ⟨r', hchange⟩ := h r
  exact ⟨r', .single hchange⟩

theorem close (b : Buffer) : Ages b b.close := of_change fun r => ⟨r, .closed trivial⟩

theorem begin (hsending : b.sending = none) (w : Write) : Ages b (b.begin w) := by
  cases hw : w.isVoid with
  | true =>
    rw [b.begin_of_isVoid hw]
    exact refl b
  | false => exact of_change fun _ => ⟨_, .begun w hsending hw⟩

theorem offer (h : b.canOffer = true) : Ages b b.offer := by
  refine b.offer_elim (P := Ages b) h ?_ ?_
  · exact fun chunk hsending hopen hroom =>
      of_change fun _ => ⟨_, .handed chunk hsending hopen hroom⟩
  · exact fun chunk hsending hclosed => of_change fun _ => ⟨_, .lost chunk hsending hclosed⟩

theorem taken {rest : List Bytes} (h : b.handoff.items = chunk :: rest) :
    Ages b (b.taken chunk rest) :=
  -- Which call receives the chunk does not matter.
  of_change fun r => ⟨{ r with receipts := r.receipts ++ [(0, chunk)] }, .taken chunk rest h⟩

theorem keeps {P : Buffer → Record → Prop} (h : Ages b b')
    (keep : ∀ {b r b' r'}, P b r → Change True b r b' r' → P b' r') {r : Record} (hP : P b r) :
    ∃ r', P b' r' := by
  have hall : ∀ y, Relation.ReflTransGen
      (fun x y : Buffer × Record => Change True x.1 x.2 y.1 y.2) (b, r) y → P y.1 y.2 := by
    intro y hchanges
    induction hchanges with
    | refl => exact hP
    | tail _ hchange ih => exact keep ih hchange
  obtain ⟨r', hchanges⟩ := h r
  exact ⟨r', hall _ hchanges⟩

theorem closed (h : Ages b b') (hb : b.isClosed = true) : b'.isClosed = true := by
  refine (h.keeps (P := fun b _ => b.isClosed = true) (r := {}) ?_ hb).choose_spec
  intro b r b' r' hclosed hchange
  cases hchange with
  | begun w _ _ => exact (b.isClosed_begin w).trans hclosed
  | handed chunk _ _ _ =>
    exact ((b.accepted chunk).isClosed_pull true).trans hclosed
  | lost => exact hclosed
  | taken => exact hclosed
  | closed => rfl

theorem delivered (h : Ages b b') : b.delivered ≤ b'.delivered := by
  refine (h.keeps (P := fun c _ => b.delivered ≤ c.delivered) (r := {}) ?_ (Nat.le_refl _)).choose_spec
  intro c r c' r' hle hchange
  cases hchange with
  | begun w _ hw => exact (c.sameFront_begin hw).delivered ▸ hle
  | handed chunk _ _ _ =>
    rw [((c.accepted chunk).sameFront_pull true).delivered]
    exact Nat.le_trans hle (Nat.le_add_right _ _)
  | lost => exact hle
  | taken => exact hle
  | closed => exact hle

end Buffer.Ages

/-- A pair and a later state of it. -/
structure Pair.Ages (p p' : Pair) : Prop where
  flow : p'.flow = p.flow
  buffer : ∀ d, (p.buffer d).Ages (p'.buffer d)

namespace Pair.Ages

variable {p p' p'' : Pair}

theorem refl (p : Pair) : Ages p p := ⟨rfl, fun _ => .refl _⟩

theorem trans (h : Ages p p') (h' : Ages p' p'') : Ages p p'' :=
  ⟨h'.flow.trans h.flow, fun d => (h.buffer d).trans (h'.buffer d)⟩

theorem close (p : Pair) : Ages p p.close :=
  ⟨rfl, fun d => by cases d <;> exact .close _⟩

theorem withBuffer {b : Buffer} {d : Direction} (h : (p.buffer d).Ages b) :
    Ages p (p.withBuffer b d) where
  flow := by cases d <;> rfl
  buffer := by
    intro d'
    by_cases hd : d = d'
    · subst hd
      rw [buffer_withBuffer]
      exact h
    · rw [buffer_withBuffer_of_ne _ _ hd]
      exact .refl _

end Pair.Ages

namespace Tracker

variable {t t' t'' : Tracker} {deed : Deed} {p : Packet}

/-! ## What a deed changes -/

theorem perform_elim {P : Tracker → Prop} (t : Tracker) (deed : Deed) (nothing : P t)
    (accept : ∀ p, deed = .accept p → t.errand = none → P (t.accept p))
    (step : ∀ t', deed = .step → t.step = some t' → P t')
    (take : ∀ place d pair chunk rest, deed = .take place d → t.pairs[place]? = some pair →
      (pair.buffer d).handoff.items = chunk :: rest →
      P (t.putBuffer place d ((pair.buffer d).taken chunk rest)))
    (close : ∀ place, deed = .close place → P (t.modifyPair place Pair.close))
    (news : ∀ announcements, (∀ p, deed ≠ .accept p) → P { t with announcements }) :
    P (t.perform deed) := by
  cases deed with
  | accept p =>
    simp only [perform]
    cases hidle : t.isIdle with
    | true => exact accept p rfl (Option.isNone_iff_eq_none.1 hidle)
    | false => exact nothing
  | step =>
    simp only [perform]
    cases hstep : t.step with
    | none => exact nothing
    | some t' => exact step t' rfl hstep
  | take place d =>
    simp only [perform]
    cases hpair : t.pairs[place]? with
    | none => exact nothing
    | some pair =>
      rcases (pair.buffer d).take_cases with
        ⟨chunk, rest, hitems, htake⟩ | ⟨-, -, htake⟩ | ⟨-, -, htake⟩ <;> simp only [htake]
      · exact take place d pair chunk rest rfl hpair hitems
      · exact nothing
      · exact nothing
  | close place => exact close place rfl
  | takeNews =>
    simp only [perform, takeNews]
    cases hnews : t.announcements with
    | none => exact nothing
    | some channel =>
      simp only
      cases channel.receive with
      | item place channel' => exact news _ fun p hp => by cases hp
      | empty => exact nothing
      | finished => exact nothing
  | endNews => exact news _ fun p hp => by cases hp

/-- What deeds of a kind keep is kept by a course of them. -/
theorem course_keeps {P : Tracker → Prop} {K : Deed → Prop}
    (keep : ∀ {t deed}, K deed → P t → P (t.perform deed)) (h : P t) {deeds : List Deed}
    (hdeeds : ∀ deed ∈ deeds, K deed) : P (t.course deeds) := by
  induction deeds generalizing t with
  | nil => exact h
  | cons deed deeds ih =>
    have hperform : P (t.perform deed) := keep (hdeeds deed List.mem_cons_self) h
    exact ih hperform fun later hlater => hdeeds later (List.mem_cons_of_mem _ hlater)

theorem course_keeps_meanwhile {P : Tracker → Prop}
    (keep : ∀ {t deed}, (∀ p, deed ≠ .accept p) → P t → P (t.perform deed)) (h : P t)
    {deeds : List Deed} (hdeeds : ∀ p, .accept p ∉ deeds) : P (t.course deeds) :=
  course_keeps (K := fun deed => ∀ p, deed ≠ .accept p) keep h
    fun _ hmem p hp => hdeeds p (hp ▸ hmem)

/-- Only accepting a packet writes into the registers or opens pairs. -/
theorem registers_perform (t : Tracker) (h : ∀ p, deed ≠ .accept p) :
    (t.perform deed).connections = t.connections ∧ (t.perform deed).streams = t.streams ∧
      (t.perform deed).pairs.length = t.pairs.length := by
  refine t.perform_elim (P := fun t' => t'.connections = t.connections ∧
    t'.streams = t.streams ∧ t'.pairs.length = t.pairs.length) deed ⟨rfl, rfl, rfl⟩ ?_ ?_ ?_ ?_ ?_
  · exact fun p hdeed => absurd hdeed (h p)
  · intro t' _ hstep
    cases herrand : t.errand with
    | none =>
      rw [step_of_errand_none herrand] at hstep
      cases hstep
    | some e =>
      have hbesides := (besides_step herrand hstep).1
      exact ⟨hbesides.connections, hbesides.streams, hbesides.length⟩
  · exact fun place _ _ _ _ _ _ _ => ⟨rfl, rfl, (Besides.modifyPair place t _).length⟩
  · exact fun place _ => ⟨rfl, rfl, (Besides.modifyPair place t _).length⟩
  · exact fun _ _ => ⟨rfl, rfl, rfl⟩

theorem registers_course (t : Tracker) {deeds : List Deed} (h : ∀ p, .accept p ∉ deeds) :
    (t.course deeds).connections = t.connections ∧ (t.course deeds).streams = t.streams := by
  refine course_keeps_meanwhile
    (P := fun t' => t'.connections = t.connections ∧ t'.streams = t.streams) ?_ ⟨rfl, rfl⟩ h
  rintro t' deed hdeed ⟨hconnections, hstreams⟩
  obtain ⟨hkept, hkept', -⟩ := t'.registers_perform hdeed
  exact ⟨hkept.trans hconnections, hkept'.trans hstreams⟩

theorem SameFile.perform {flow : Flow} (hfiled : Filed t)
    (h : ∀ p, deed = .accept p → p.connection ≠ flow) : SameFile flow t (t.perform deed) := by
  by_cases haccept : ∃ p, deed = .accept p
  · obtain ⟨p, rfl⟩ := haccept
    simp only [Tracker.perform]
    split
    · exact SameFile.accept (h p rfl) fun _ hc => hfiled.named hc
    · exact .of_eq rfl rfl
  · obtain ⟨hconnections, hstreams, -⟩ := t.registers_perform fun p hp => haccept ⟨p, hp⟩
    exact .of_eq hconnections hstreams

theorem pairs_route (t : Tracker) (p : Packet) :
    (t.route p).pairs = t.pairs ∧ (t.route p).streams = t.streams := by
  unfold route
  split
  · exact ⟨rfl, rfl⟩
  · split
    · exact ⟨rfl, rfl⟩
    · split <;> exact ⟨rfl, rfl⟩

/-- What accepting a packet does to the pairs: one of them may be closed, and then a new one may
be opened. -/
theorem pairs_accept (t : Tracker) (p : Packet) :
    ∃ ps new, (t.accept p).pairs = ps ++ new ∧
      (ps = t.pairs ∨ ∃ place, ps = t.pairs.modify place Pair.close) ∧
      ∀ pair ∈ new, ∀ d, ∃ seq window capacity,
        pair.buffer d = .startingAt seq window capacity := by
  have hsame : t.pairs = t.pairs ++ [] := (List.append_nil _).symm
  have hclose : ∀ (u : Tracker) (flow : Flow), u.pairs = t.pairs →
      (u.closePairOf flow).pairs = t.pairs ∨
        ∃ place, (u.closePairOf flow).pairs = t.pairs.modify place Pair.close := by
    intro u flow hu
    rcases u.closePairOf_cases flow with ⟨place, -, hclose⟩ | ⟨-, hclose⟩ <;> rw [hclose, ← hu]
    · exact Or.inr ⟨place, rfl⟩
    · exact Or.inl rfl
  have hnone : ∀ pair ∈ ([] : List Pair), ∀ d, ∃ seq window capacity,
      pair.buffer d = .startingAt seq window capacity := fun _ hmem => absurd hmem List.not_mem_nil
  rw [accept_eq]
  split
  · refine ⟨t.pairs, [], ?_, Or.inl rfl, hnone⟩
    split
    · exact (pairs_route _ p).1.trans hsame
    · exact hsame
  · split
    · next event _ =>
      rcases (t.noticed p).trigger_cases event p with ⟨-, htrigger⟩ | ⟨c, phase, -, -, hways⟩
      · rw [htrigger]
        exact ⟨t.pairs, [], hsame, Or.inl rfl, hnone⟩
      · rcases hways with ⟨-, htrigger⟩ | ⟨-, htrigger⟩ | ⟨-, -, htrigger⟩ <;> rw [htrigger]
        · refine ⟨_, _, rfl, hclose _ _ rfl, fun pair hpair d => ?_⟩
          rw [List.mem_singleton.1 hpair]
          cases d <;> exact ⟨_, _, _, rfl⟩
        · exact ⟨_, [], (List.append_nil _).symm, hclose _ _ rfl, hnone⟩
        · exact ⟨t.pairs, [], hsame, Or.inl rfl, hnone⟩
    · exact ⟨t.pairs, [], hsame, Or.inl rfl, hnone⟩

/-! ## Trackers -/

/-- A tracker and a later state of it: every pair is still at its place. -/
def Ages (t t' : Tracker) : Prop :=
  ∀ (place : Nat) (pair : Pair), t.pairs[place]? = some pair →
    ∃ pair', t'.pairs[place]? = some pair' ∧ Pair.Ages pair pair'

namespace Ages

theorem of_pairs_eq (h : t'.pairs = t.pairs) : Ages t t' := by
  intro place pair hpair
  exact ⟨pair, h ▸ hpair, .refl pair⟩

theorem trans (h : Ages t t') (h' : Ages t' t'') : Ages t t'' := by
  intro place pair hpair
  obtain ⟨pair', hpair', hages⟩ := h place pair hpair
  obtain ⟨pair'', hpair'', hages'⟩ := h' place pair' hpair'
  exact ⟨pair'', hpair'', hages.trans hages'⟩

theorem modifyPair (t : Tracker) (n : Nat) {f : Pair → Pair}
    (h : ∀ pair, t.pairs[n]? = some pair → pair.Ages (f pair)) : Ages t (t.modifyPair n f) := by
  intro place pair hpair
  by_cases hn : n = place
  · subst hn
    exact ⟨f pair, by simp [Tracker.modifyPair, hpair], h pair hpair⟩
  · exact ⟨pair, ((Besides.modifyPair n t f).others place (Ne.symm hn)).trans hpair, .refl pair⟩

theorem putBuffer {n : Nat} {d : Direction} {pair : Pair} {b : Buffer}
    (hpair : t.pairs[n]? = some pair) (h : (pair.buffer d).Ages b) :
    Ages t (t.putBuffer n d b) := by
  refine modifyPair t n fun found hfound => ?_
  rw [hpair] at hfound
  cases hfound
  exact .withBuffer h

theorem close (t : Tracker) (n : Nat) : Ages t (t.modifyPair n Pair.close) :=
  modifyPair t n fun pair _ => .close pair

theorem closePairOf (t : Tracker) (flow : Flow) : Ages t (t.closePairOf flow) := by
  rcases t.closePairOf_cases flow with ⟨place, -, hclose⟩ | ⟨-, hclose⟩ <;> rw [hclose]
  · exact close t place
  · exact of_pairs_eq rfl

theorem of_closed {ps : List Pair}
    (h : ps = t.pairs ∨ ∃ place, ps = t.pairs.modify place Pair.close) :
    Ages t { t with pairs := ps } ∧ ps.length = t.pairs.length := by
  rcases h with rfl | ⟨n, rfl⟩
  · exact ⟨of_pairs_eq rfl, rfl⟩
  · exact ⟨close t n, List.length_modify ..⟩

theorem accept (t : Tracker) (p : Packet) : Ages t (t.accept p) := by
  obtain ⟨ps, new, hpairs, hps, -⟩ := t.pairs_accept p
  refine (of_closed hps).1.trans fun place pair hpair => ⟨pair, ?_, .refl pair⟩
  rw [hpairs, List.getElem?_append_left (List.getElem?_eq_some_iff.1 hpair).1]
  exact hpair

theorem step (h : t.step = some t') : Ages t t' := by
  cases herrand : t.errand with
  | none =>
    rw [step_of_errand_none herrand] at h
    cases h
  | some e =>
    cases e with
    | announce place =>
      rcases step_announce herrand h with rfl | ⟨channel, rfl⟩ | rfl
      · exact of_pairs_eq rfl
      · exact of_pairs_eq rfl
      · exact (close t place).trans (of_pairs_eq rfl)
    | deliver place d ws =>
      obtain ⟨pair, hpair, ⟨hoffer, rfl⟩ | ⟨w, rest, -, hsending, rfl⟩ | ⟨-, -, rfl⟩⟩ :=
        step_deliver herrand h
      · exact putBuffer hpair (.offer hoffer)
      · exact (putBuffer hpair (.begin hsending w)).trans (of_pairs_eq rfl)
      · exact of_pairs_eq rfl

theorem perform (t : Tracker) (deed : Deed) : Ages t (t.perform deed) := by
  refine t.perform_elim (P := Ages t) deed (of_pairs_eq rfl) ?_ ?_ ?_ ?_ ?_
  · exact fun p _ _ => accept t p
  · exact fun _ _ hstep => step hstep
  · exact fun _ _ _ _ _ _ hpair hitems => putBuffer hpair (.taken hitems)
  · exact fun place _ => close t place
  · exact fun _ _ => of_pairs_eq rfl

theorem course (t : Tracker) (deeds : List Deed) : Ages t (t.course deeds) :=
  course_keeps (fun {_ deed} _ h => h.trans (perform _ deed)) (of_pairs_eq rfl)
    fun _ _ => trivial

theorem back (h : Ages t t') (hlength : t'.pairs.length = t.pairs.length) {place : Nat}
    {pair' : Pair} (hpair' : t'.pairs[place]? = some pair') :
    ∃ pair, t.pairs[place]? = some pair ∧ pair.Ages pair' := by
  have hlt : place < t.pairs.length := hlength ▸ (List.getElem?_eq_some_iff.1 hpair').1
  obtain ⟨pair, hpair⟩ : ∃ pair, t.pairs[place]? = some pair :=
    ⟨_, List.getElem?_eq_getElem hlt⟩
  obtain ⟨found, hfound, hages⟩ := h place pair hpair
  rw [hpair'] at hfound
  cases hfound
  exact ⟨pair, hpair, hages⟩

end Ages

/-! ## Invariants of histories -/

/-- Every pair has buffers of which an invariant holds. -/
def AllBuffers (P : Buffer → Record → Prop) (t : Tracker) : Prop :=
  ∀ pair ∈ t.pairs, ∀ d, ∃ r, P (pair.buffer d) r

namespace AllBuffers

variable {P : Buffer → Record → Prop}

section Keep

variable (keep : ∀ {b r b' r'}, P b r → Change True b r b' r' → P b' r')

include keep

theorem ages (h : AllBuffers P t) (hages : Ages t t')
    (hlength : t'.pairs.length = t.pairs.length) : AllBuffers P t' := by
  intro pair' hmem d
  obtain ⟨place, hpair'⟩ := List.getElem?_of_mem hmem
  obtain ⟨pair, hpair, hage⟩ := hages.back hlength hpair'
  obtain ⟨r, hP⟩ := h pair (List.mem_of_getElem? hpair) d
  exact (hage.buffer d).keeps keep hP

variable (start : ∀ seq window capacity, P (.startingAt seq window capacity) {})

include start

theorem accept (h : AllBuffers P t) (p : Packet) : AllBuffers P (t.accept p) := by
  obtain ⟨ps, new, hpairs, hps, hnew⟩ := t.pairs_accept p
  obtain ⟨hages, hlength⟩ := Ages.of_closed hps
  intro pair hmem d
  rw [hpairs] at hmem
  rcases List.mem_append.1 hmem with hold | hopened
  · exact h.ages keep hages hlength pair hold d
  · obtain ⟨seq, window, capacity, hbuffer⟩ := hnew pair hopened d
    exact ⟨{}, hbuffer ▸ start seq window capacity⟩

theorem perform (h : AllBuffers P t) (deed : Deed) : AllBuffers P (t.perform deed) := by
  by_cases haccept : ∃ p, deed = .accept p
  · obtain ⟨p, rfl⟩ := haccept
    simp only [Tracker.perform]
    split
    · exact h.accept keep start p
    · exact h
  · obtain ⟨-, -, hlength⟩ := t.registers_perform fun p hp => haccept ⟨p, hp⟩
    exact h.ages keep (.perform t deed) hlength

/-- What holds of a new buffer and is kept by every change of a history holds of every buffer in
every state that a tracker can come to. -/
theorem course (s : Settings) (announcements : Option (Channel Nat)) (deeds : List Deed) :
    AllBuffers P ((ofSettings s announcements).course deeds) := by
  have hbegins : AllBuffers P (ofSettings s announcements) :=
    fun _ hmem => absurd hmem List.not_mem_nil
  exact course_keeps (fun {_ deed} _ h => h.perform keep start deed) hbegins fun _ _ => trivial

end Keep

end AllBuffers

end Tracker

end StreamTap
