import StreamTap.Proofs.Tracker.Routing

/-!
# The registers of a tracker fit together

A tracker keeps two registers, the connections and the places of their pairs, and they are
written by different functions at different moments of a connection's life.  In every state
that a tracker can come to they agree (`registered_course`): a connection that is on file is
alive and filed under its own flow, it has a pair exactly while it is established or closing,
and the number of the client's SYN is known exactly from that SYN on.

What one packet writes concerns the flow of its connection, and what is on file for any other
flow stays as it is (`SameFile.accept`).  So the invariant is about one flow at a time
(`Consistent`), and only the transition that a packet makes is looked at more closely.

The functions of the tracker have ways out for registers that do not agree: an event without
a connection, an established connection without a pair, a pair that is replaced by another,
a pair that is opened without a SYN.  None of them is ever taken (`Straight`).
-/

namespace StreamTap

/-! ## Phases and events -/

namespace Phase

/-- Whether a connection in this phase has a pair. -/
def isPaired : Phase → Bool
  | .established => true
  | .closeWait => true
  | .lastAck => true
  | _ => false

variable {phase phase' : Phase} {event : Event}

theorem of_next_established (h : phase.next event = some .established) :
    phase = .synReceived2 ∧ event = .receiveAck := by
  cases phase <;> cases event <;> simp_all [next]

theorem ne_listen_of_next (h : phase.next event = some phase') : phase' ≠ .listen := by
  rintro rfl
  cases phase <;> cases event <;> simp_all [next]

theorem eq_receiveSyn_of_next_listen (h : Phase.listen.next event = some phase')
    (hclosed : phase' ≠ .closed) : event = .receiveSyn := by
  cases event <;> simp_all [next]

theorem isPaired_next (h : phase.next event = some phase') (hestablished : phase' ≠ .established)
    (hclosed : phase' ≠ .closed) : phase'.isPaired = phase.isPaired := by
  cases phase <;> cases event <;> simp_all [next] <;> subst h <;> rfl

end Phase

namespace Tracker

variable {t t' : Tracker} {flow : Flow} {p : Packet}

/-! ## What is on file for other flows -/

theorem named_noticed
    (hnamed : ∀ c, t.connections.find? p.connection = some c → c.flow = p.connection) :
    ∀ c, (t.noticed p).connections.find? p.connection = some c → c.flow = p.connection := by
  intro c hc
  rw [noticed, Registry.find?_ensure_self, Option.some.injEq] at hc
  cases hold : t.connections.find? p.connection with
  | none =>
    rw [hold, Option.getD_none] at hc
    rw [← hc]
  | some old =>
    rw [hold, Option.getD_some] at hc
    exact hnamed c (hc ▸ hold)

/-- Two trackers that have the same on file for a flow. -/
structure SameFile (flow : Flow) (t t' : Tracker) : Prop where
  connection : t'.connections.find? flow = t.connections.find? flow
  place : t'.streams.find? flow = t.streams.find? flow

namespace SameFile

theorem of_eq (hconnections : t'.connections = t.connections) (hstreams : t'.streams = t.streams) :
    SameFile flow t t' :=
  ⟨congrArg (·.find? flow) hconnections, congrArg (·.find? flow) hstreams⟩

theorem trans {t'' : Tracker} (h : SameFile flow t t') (h' : SameFile flow t' t'') :
    SameFile flow t t'' :=
  ⟨h'.connection.trans h.connection, h'.place.trans h.place⟩

theorem of_besides {place : Nat} (h : Besides place t t') : SameFile flow t t' :=
  of_eq h.connections h.streams

theorem closePairOf (t : Tracker) (flow flow' : Flow) : SameFile flow t (t.closePairOf flow') := by
  obtain ⟨place, hbesides⟩ := t.closePairOf_besides flow'
  exact of_besides hbesides

theorem settle (t : Tracker) (flow : Flow) : SameFile flow t t.settle :=
  of_eq t.registers_settle.1 t.registers_settle.2

theorem route (t : Tracker) (p : Packet) (flow : Flow) : SameFile flow t (t.route p) := by
  unfold Tracker.route
  split
  · exact of_eq rfl rfl
  · split
    · exact of_eq rfl rfl
    · split
      · exact of_eq rfl rfl
      · exact of_eq rfl rfl

section Other

variable (hother : p.connection ≠ flow)

include hother

theorem noticed (t : Tracker) : SameFile flow t (t.noticed p) :=
  ⟨Registry.find?_ensure_of_ne _ _ hother, rfl⟩

theorem transited (t : Tracker) (c : Connection) : SameFile flow t (t.transited p c) :=
  ⟨Registry.find?_insert_of_ne _ _ hother, rfl⟩

theorem establish (t : Tracker) {c : Connection} (hc : c.flow = p.connection) :
    SameFile flow t (t.establish c p) := by
  have hclose := closePairOf t flow p.connection
  unfold Tracker.establish
  rw [hc]
  exact ⟨hclose.connection, (Registry.find?_insert_of_ne _ _ hother).trans hclose.place⟩

theorem release (t : Tracker) : SameFile flow t (t.release p.connection) := by
  have hclose := closePairOf t flow p.connection
  exact ⟨(Registry.find?_erase_of_ne _ hother).trans hclose.connection,
    (Registry.find?_erase_of_ne _ hother).trans hclose.place⟩

theorem trigger (hnamed : ∀ c, t.connections.find? p.connection = some c → c.flow = p.connection)
    (event : Event) : SameFile flow t (t.trigger event p) := by
  rcases t.trigger_cases event p with ⟨-, htrigger⟩ | ⟨c, phase, hc, -, hways⟩
  · rw [htrigger]
    exact of_eq rfl rfl
  · have htransited := transited hother t (c.after event p phase)
    rcases hways with ⟨-, htrigger⟩ | ⟨-, htrigger⟩ | ⟨-, -, htrigger⟩ <;> rw [htrigger]
    · exact htransited.trans (establish hother _ (c := c.after event p phase) (hnamed c hc))
    · exact htransited.trans (release hother _)
    · exact htransited

theorem accept (hnamed : ∀ c, t.connections.find? p.connection = some c → c.flow = p.connection) :
    SameFile flow t (t.accept p) := by
  have hnoticed := noticed hother t
  rw [accept_eq]
  split
  · split
    · exact hnoticed.trans (route _ p flow)
    · exact hnoticed.trans (of_eq rfl rfl)
  · split
    · exact hnoticed.trans (trigger hother (named_noticed hnamed) _)
    · exact hnoticed.trans (of_eq rfl rfl)

end Other

end SameFile

/-! ## The flows of the pairs -/

/-- The flows that the pairs were opened for. -/
def labels (t : Tracker) : List Flow := t.pairs.map Pair.flow

theorem labels_modifyPair (t : Tracker) (place : Nat) {f : Pair → Pair}
    (hf : ∀ pair, (f pair).flow = pair.flow) : (t.modifyPair place f).labels = t.labels := by
  refine List.ext_getElem? fun n => ?_
  simp only [labels, modifyPair, List.getElem?_map, List.getElem?_modify]
  cases t.pairs[n]? with
  | none => rfl
  | some pair =>
    by_cases hn : place = n
    · simp [hn, hf pair]
    · simp [hn]

theorem labels_putBuffer (t : Tracker) (place : Nat) (d : Direction) (b : Buffer) :
    (t.putBuffer place d b).labels = t.labels :=
  t.labels_modifyPair place fun pair => by cases d <;> rfl

theorem labels_close (t : Tracker) (place : Nat) :
    (t.modifyPair place Pair.close).labels = t.labels :=
  t.labels_modifyPair place fun _ => rfl

theorem labels_closePairOf (t : Tracker) (flow : Flow) :
    (t.closePairOf flow).labels = t.labels := by
  rcases t.closePairOf_cases flow with ⟨place, -, hclose⟩ | ⟨-, hclose⟩ <;> rw [hclose]
  exact t.labels_close place

theorem labels_establish (t : Tracker) (c : Connection) (p : Packet) :
    (t.establish c p).labels = t.labels ++ [c.flow] := by
  rw [← t.labels_closePairOf c.flow]
  exact List.map_append

theorem labels_step (h : t.step = some t') : t'.labels = t.labels := by
  cases herrand : t.errand with
  | none =>
    rw [step_of_errand_none herrand] at h
    cases h
  | some e =>
    cases e with
    | announce place =>
      rcases step_announce herrand h with rfl | ⟨channel, rfl⟩ | rfl
      · rfl
      · rfl
      · exact t.labels_close place
    | deliver place d ws =>
      obtain ⟨pair, -, ⟨-, rfl⟩ | ⟨w, rest, -, -, rfl⟩ | ⟨-, -, rfl⟩⟩ := step_deliver herrand h
      · exact t.labels_putBuffer place d _
      · exact t.labels_putBuffer place d _
      · rfl

/-! ## The registers agree -/

/-- What is on file for a flow fits together. -/
structure Consistent (t : Tracker) (flow : Flow) : Prop where
  /-- A connection is filed under its own flow. -/
  named : ∀ {c}, t.connections.find? flow = some c → c.flow = flow
  /-- A connection that has ended is not on file. -/
  alive : ∀ {c}, t.connections.find? flow = some c → c.phase ≠ .closed
  /-- The number of the client's SYN is missing exactly before it has come. -/
  greeted : ∀ {c}, t.connections.find? flow = some c → (c.synSeq = none ↔ c.phase = .listen)
  /-- There is a pair exactly for a connection that is established or closing. -/
  paired : t.streams.contains flow = true ↔
    ∃ c, t.connections.find? flow = some c ∧ c.phase.isPaired = true
  /-- The pair was opened for this flow. -/
  labelled : ∀ {place}, t.streams.find? flow = some place →
    ∃ pair, t.pairs[place]? = some pair ∧ pair.flow = flow

/-- What is on file for any flow fits together. -/
def Registered (t : Tracker) : Prop := ∀ flow, Consistent t flow

namespace Consistent

theorem congr (h : Consistent t flow) (hsame : SameFile flow t t')
    (hlabels : t.labels <+: t'.labels) : Consistent t' flow where
  named := by rw [hsame.connection]; exact h.named
  alive := by rw [hsame.connection]; exact h.alive
  greeted := by rw [hsame.connection]; exact h.greeted
  paired := by rw [hsame.connection, Registry.contains, hsame.place]; exact h.paired
  labelled := by
    intro place hplace
    rw [hsame.place] at hplace
    obtain ⟨pair, hpair, hflow⟩ := h.labelled hplace
    have hold : t.labels[place]? = some flow := by
      rw [labels, List.getElem?_map, hpair, Option.map_some, hflow]
    obtain ⟨more, hmore⟩ := hlabels
    have hnew : t'.labels[place]? = some flow := by
      rw [← hmore, List.getElem?_append_left (List.getElem?_eq_some_iff.1 hold).1, hold]
    rwa [labels, List.getElem?_map, Option.map_eq_some_iff] at hnew

theorem of_unknown (hconnection : t.connections.find? flow = none)
    (hplace : t.streams.find? flow = none) : Consistent t flow where
  named := by
    intro c hc
    rw [hconnection] at hc
    cases hc
  alive := by
    intro c hc
    rw [hconnection] at hc
    cases hc
  greeted := by
    intro c hc
    rw [hconnection] at hc
    cases hc
  paired := by simp [Registry.contains, hconnection, hplace]
  labelled := by
    intro place hp
    rw [hplace] at hp
    cases hp

theorem of_known {c : Connection} (hconnection : t.connections.find? flow = some c)
    (hnamed : c.flow = flow) (halive : c.phase ≠ .closed)
    (hgreeted : c.synSeq = none ↔ c.phase = .listen)
    (hpaired : t.streams.contains flow = c.phase.isPaired)
    (hlabelled : ∀ {place}, t.streams.find? flow = some place →
      ∃ pair, t.pairs[place]? = some pair ∧ pair.flow = flow) : Consistent t flow where
  named := by
    intro c' hc'
    rw [hconnection] at hc'
    cases hc'
    exact hnamed
  alive := by
    intro c' hc'
    rw [hconnection] at hc'
    cases hc'
    exact halive
  greeted := by
    intro c' hc'
    rw [hconnection] at hc'
    cases hc'
    exact hgreeted
  paired := by
    rw [hpaired]
    constructor
    · exact fun h => ⟨c, hconnection, h⟩
    · rintro ⟨c', hc', h⟩
      rw [hconnection] at hc'
      cases hc'
      exact h
  labelled := hlabelled

theorem contains_eq (h : Consistent t flow) {c : Connection}
    (hc : t.connections.find? flow = some c) :
    t.streams.contains flow = c.phase.isPaired := by
  rw [Bool.eq_iff_iff, h.paired]
  constructor
  · rintro ⟨c', hc', hpaired⟩
    rw [hc] at hc'
    cases hc'
    exact hpaired
  · exact fun hpaired => ⟨c, hc, hpaired⟩

theorem contains_eq_false (h : Consistent t flow) (hc : t.connections.find? flow = none) :
    t.streams.contains flow = false := by
  rw [Bool.eq_false_iff, ne_eq, h.paired]
  rintro ⟨c, hc', -⟩
  rw [hc] at hc'
  cases hc'

theorem synSeq_after_ne_none (h : Consistent t flow) {c : Connection}
    (hc : t.connections.find? flow = some c) {event : Event} {phase : Phase}
    (hnext : c.phase.next event = some phase) (hclosed : phase ≠ .closed) :
    (c.after event p phase).synSeq ≠ none := by
  unfold Connection.after
  by_cases hsyn : event = .receiveSyn
  · simp [hsyn]
  · have hgreeted : c.synSeq ≠ none := by
      rw [ne_eq, h.greeted hc]
      intro hlisten
      rw [hlisten] at hnext
      exact hsyn (Phase.eq_receiveSyn_of_next_listen hnext hclosed)
    simpa [hsyn] using hgreeted

/-! ### What the packet of a connection writes about it -/

theorem noticed (h : Consistent t p.connection) : Consistent (t.noticed p) p.connection := by
  have hfind : (t.noticed p).connections.find? p.connection =
      some ((t.connections.find? p.connection).getD ⟨p.connection, .listen, none⟩) :=
    Registry.find?_ensure_self ..
  cases hold : t.connections.find? p.connection with
  | none =>
    rw [hold, Option.getD_none] at hfind
    exact .of_known hfind rfl Phase.noConfusion ⟨fun _ => rfl, fun _ => rfl⟩
      (h.contains_eq_false hold) h.labelled
  | some c =>
    rw [hold, Option.getD_some] at hfind
    exact .of_known hfind (h.named hold) (h.alive hold) (h.greeted hold) (h.contains_eq hold)
      h.labelled

section Event

variable {c : Connection} {event : Event} {phase : Phase}

theorem transited (h : Consistent t p.connection)
    (hc : t.connections.find? p.connection = some c) (hnext : c.phase.next event = some phase)
    (hestablished : phase ≠ .established) (hclosed : phase ≠ .closed) :
    Consistent (t.transited p (c.after event p phase)) p.connection := by
  have hsyn := h.synSeq_after_ne_none (p := p) hc hnext hclosed
  refine .of_known (c := c.after event p phase) (Registry.find?_insert_self _ _ _)
    (show c.flow = p.connection from h.named hc) hclosed
    ⟨fun hnone => absurd hnone hsyn,
      fun hlisten => absurd hlisten (Phase.ne_listen_of_next hnext)⟩ ?_ h.labelled
  exact (h.contains_eq hc).trans (Phase.isPaired_next hnext hestablished hclosed).symm

theorem establish (h : Consistent t p.connection)
    (hc : t.connections.find? p.connection = some c)
    (hnext : c.phase.next event = some .established) :
    Consistent ((t.transited p (c.after event p .established)).establish
      (c.after event p .established) p) p.connection := by
  have hflow : (c.after event p .established).flow = p.connection :=
    show c.flow = p.connection from h.named hc
  have hsyn := h.synSeq_after_ne_none (p := p) hc hnext Phase.noConfusion
  obtain ⟨n, hbesides⟩ :=
    (t.transited p (c.after event p .established)).closePairOf_besides p.connection
  have hplace : ((t.transited p (c.after event p .established)).establish
      (c.after event p .established) p).streams.find? p.connection = some t.pairs.length := by
    rw [Tracker.establish, hflow]
    exact Registry.find?_insert_self _ _ _
  refine .of_known (c := c.after event p .established) ?_ hflow Phase.noConfusion
    ⟨fun hnone => absurd hnone hsyn, fun hlisten => by cases hlisten⟩ ?_ ?_
  · rw [Tracker.establish, hflow]
    simp only [hbesides.connections]
    exact Registry.find?_insert_self _ _ _
  · rw [Registry.contains, hplace]
    rfl
  · intro place hp
    rw [hplace] at hp
    cases hp
    exact ⟨_, pairs_establish (t.transited p (c.after event p .established)) _ p, hflow⟩

theorem release (t : Tracker) (flow : Flow) : Consistent (t.release flow) flow :=
  .of_unknown (Registry.find?_erase_self _ _) (Registry.find?_erase_self _ _)

end Event

end Consistent

namespace Registered

theorem ofSettings (s : Settings) (announcements : Option (Channel Nat)) :
    Registered (.ofSettings s announcements) :=
  fun _ => .of_unknown rfl rfl

theorem congr (h : Registered t) (hsame : ∀ flow, SameFile flow t t')
    (hlabels : t'.labels = t.labels) : Registered t' :=
  fun flow => (h flow).congr (hsame flow) (hlabels ▸ List.prefix_rfl)

theorem noticed (h : Registered t) (p : Packet) : Registered (t.noticed p) := by
  intro flow
  by_cases hflow : p.connection = flow
  · subst hflow
    exact (h p.connection).noticed
  · exact (h flow).congr (.noticed hflow t) List.prefix_rfl

theorem trigger (h : Registered t) (event : Event) (p : Packet) :
    Registered (t.trigger event p) := by
  have hnamed : ∀ c, t.connections.find? p.connection = some c → c.flow = p.connection :=
    fun _ hc => (h p.connection).named hc
  rcases t.trigger_cases event p with ⟨-, htrigger⟩ | ⟨c, phase, hc, hnext, hways⟩
  · rw [htrigger]
    exact h.congr (fun _ => .of_eq rfl rfl) rfl
  · intro flow
    have hlabels : t.labels <+: (t.trigger event p).labels := by
      rcases hways with ⟨-, htrigger⟩ | ⟨-, htrigger⟩ | ⟨-, -, htrigger⟩ <;> rw [htrigger]
      · rw [labels_establish]
        exact List.prefix_append ..
      · exact (labels_closePairOf (t.transited p _) p.connection) ▸ List.prefix_rfl
      · exact List.prefix_rfl
    by_cases hflow : p.connection = flow
    · subst hflow
      rcases hways with ⟨rfl, htrigger⟩ | ⟨-, htrigger⟩ | ⟨hestablished, hclosed, htrigger⟩ <;>
        rw [htrigger]
      · exact (h p.connection).establish hc hnext
      · exact .release _ _
      · exact (h p.connection).transited hc hnext hestablished hclosed
    · exact (h flow).congr (.trigger hflow hnamed event) hlabels

theorem accept (h : Registered t) (p : Packet) : Registered (t.accept p) := by
  have hnoticed := h.noticed p
  rw [accept_eq]
  split
  · split
    · refine hnoticed.congr (fun flow => .route _ p flow) ?_
      unfold Tracker.route
      split
      · rfl
      · split
        · rfl
        · split <;> rfl
    · exact hnoticed.congr (fun _ => .of_eq rfl rfl) rfl
  · split
    · exact hnoticed.trigger _ p
    · exact hnoticed.congr (fun _ => .of_eq rfl rfl) rfl

theorem step (h : Registered t) (hstep : t.step = some t') : Registered t' := by
  cases herrand : t.errand with
  | none =>
    rw [step_of_errand_none herrand] at hstep
    cases hstep
  | some e =>
    have hbesides := (besides_step herrand hstep).1
    exact h.congr (fun _ => .of_besides hbesides) (labels_step hstep)

theorem perform (h : Registered t) (deed : Deed) : Registered (t.perform deed) := by
  cases deed with
  | accept p =>
    simp only [Tracker.perform]
    split
    · exact h.accept p
    · exact h
  | step =>
    simp only [Tracker.perform]
    cases hstep : t.step with
    | none => exact h
    | some t' => exact h.step hstep
  | take place direction =>
    simp only [Tracker.perform]
    split
    · exact h
    · split
      · exact h.congr (fun _ => .of_eq rfl rfl) (t.labels_putBuffer place direction _)
      · exact h
      · exact h
  | close place => exact h.congr (fun _ => .of_eq rfl rfl) (t.labels_close place)
  | takeNews =>
    simp only [Tracker.perform, takeNews]
    split
    · next t' hnews =>
      split at hnews
      · cases hnews
      · split at hnews
        · cases hnews
          exact h.congr (fun _ => .of_eq rfl rfl) rfl
        · cases hnews
        · cases hnews
    · exact h
    · exact h
    · exact h
  | endNews => exact h.congr (fun _ => .of_eq rfl rfl) rfl

theorem course (h : Registered t) (deeds : List Deed) : Registered (t.course deeds) := by
  induction deeds generalizing t with
  | nil => exact h
  | cons deed deeds ih => exact ih (h.perform deed)

end Registered

/-! ## Ways out that are never taken -/

/-- Accepting a packet takes none of the ways out that are there for registers that do not
agree. -/
structure Straight (t : Tracker) (p : Packet) : Prop where
  /-- An event finds the connection it is applied to. -/
  known : (t.noticed p).connections.contains p.connection = true
  /-- Payload of an established connection finds the pair. -/
  routed : (t.noticed p).phaseOf p.connection = .established →
    ∃ place pair, (t.noticed p).pairOf? p.connection = some (place, pair)
  /-- A pair that is opened replaces no other. -/
  fresh : ∀ c event, (t.noticed p).connections.find? p.connection = some c →
    c.phase.next event = some .established → (t.noticed p).streams.find? c.flow = none
  /-- The number of the client's SYN is known when a pair is opened. -/
  greeted : ∀ c event, (t.noticed p).connections.find? p.connection = some c →
    c.phase.next event = some .established →
    ∃ seq, (c.after event p .established).synSeq = some seq

theorem Registered.straight (h : Registered t) (p : Packet) : Straight t p := by
  have hown := h.noticed p p.connection
  refine ⟨?_, ?_, ?_, ?_⟩
  · simp [Registry.contains, Tracker.noticed, Registry.find?_ensure_self]
  · intro hphase
    have hcontains : (t.noticed p).streams.contains p.connection = true := by
      cases hc : (t.noticed p).connections.find? p.connection with
      | none =>
        rw [phaseOf, hc] at hphase
        cases hphase
      | some c =>
        have hphase : c.phase = .established := by rwa [phaseOf, hc] at hphase
        rw [hown.contains_eq hc, hphase]
        rfl
    obtain ⟨place, hplace⟩ := Option.isSome_iff_exists.1 hcontains
    obtain ⟨pair, hpair, -⟩ := hown.labelled hplace
    exact ⟨place, pair, pairOf?_eq_some_iff.2 ⟨hplace, hpair⟩⟩
  · intro c event hc hnext
    have hcontains := hown.contains_eq hc
    rw [(Phase.of_next_established hnext).1] at hcontains
    rw [hown.named hc]
    exact Option.isNone_iff_eq_none.1 (Option.isSome_eq_false_iff.1 hcontains)
  · intro c event hc hnext
    exact Option.ne_none_iff_exists'.1
      (hown.synSeq_after_ne_none (p := p) hc hnext Phase.noConfusion)

/-- In every state that a tracker can come to, in the middle of an errand or between two
packets, the registers agree, and no packet finds them otherwise. -/
theorem registered_course (s : Settings) (announcements : Option (Channel Nat))
    (deeds : List Deed) :
    Registered ((ofSettings s announcements).course deeds) ∧
      ∀ p, Straight ((ofSettings s announcements).course deeds) p := by
  have hregistered := (Registered.ofSettings s announcements).course deeds
  exact ⟨hregistered, hregistered.straight⟩

end Tracker

end StreamTap
