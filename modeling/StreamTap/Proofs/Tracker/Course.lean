import StreamTap.Proofs.Tracker.Moves
import StreamTap.Tracker.Consumer

/-!
# The course of a tracker

A tracker's own moves and those of the consumers may come in any order.  A `Deed` is one
of them, and a *course* is a list of deeds; every state that a tracker can come to is the
end of a course from its beginning.

In all of them the books are in order (`Filed`): every connection is filed under its own
flow, and the registered pairs are there and belong to one flow each.  That is what keeps
connections apart.  A packet of another connection is handled elsewhere
(`elsewhere_handle`): it neither touches the pair of this one nor what is known of it.
-/

namespace StreamTap

/-- A connection after an event that led to `phase`. -/
def Connection.after (c : Connection) (event : Event) (p : Packet) (phase : Phase) : Connection :=
  { c with phase, synSeq := if event = .receiveSyn then some p.seq else c.synSeq }

namespace Tracker

/-- Something that happens to a tracker or to one of its pairs. -/
inductive Deed where
  /-- The tracker begins to handle a packet; it does so only when the last one is done. -/
  | accept (p : Packet)
  /-- The errand at hand makes a move. -/
  | step
  /-- A consumer takes a chunk out of the hand-off of a buffer. -/
  | take (place : Nat) (direction : Direction)
  /-- A consumer closes a pair. -/
  | close (place : Nat)
  /-- A consumer takes an announcement. -/
  | takeNews
  /-- Nobody is left to take announcements. -/
  | endNews
  deriving DecidableEq, Repr

/-- A deed is done; one that is not possible changes nothing. -/
def perform (t : Tracker) : Deed → Tracker
  | .accept p => if t.isIdle then t.accept p else t
  | .step => t.step.getD t
  | .take place direction =>
    match t.pairs[place]? with
    | none => t
    | some pair =>
      match (pair.buffer direction).take with
      | .chunk _ b => t.putBuffer place direction b
      | .nothing => t
      | .closed => t
  | .close place => t.modifyPair place Pair.close
  | .takeNews =>
    match t.takeNews with
    | .pair _ t => t
    | .nothing => t
    | .ended => t
    | .unannounced => t
  | .endNews => t.endNews

def course (t : Tracker) (deeds : List Deed) : Tracker := deeds.foldl perform t

/-! ## What accepting a packet does -/

theorem pairOf?_eq_some_iff {t : Tracker} {flow : Flow} {place : Nat} {pair : Pair} :
    t.pairOf? flow = some (place, pair) ↔
      t.streams.find? flow = some place ∧ t.pairs[place]? = some pair := by
  unfold pairOf?
  cases hplace : t.streams.find? flow with
  | none => simp
  | some n =>
    cases hpair : t.pairs[n]? with
    | none =>
      simp only [Option.bind_eq_bind, Option.bind_some, hpair, Option.bind_none]
      constructor
      · intro h
        cases h
      · rintro ⟨hn, hp⟩
        cases hn
        rw [hpair] at hp
        cases hp
    | some found =>
      simp only [Option.bind_eq_bind, Option.bind_some, hpair]
      constructor
      · intro h
        cases h
        exact ⟨rfl, hpair⟩
      · rintro ⟨hn, hp⟩
        cases hn
        rw [hpair] at hp
        cases hp
        rfl

/-- The tracker that has seen a packet and knows its connection. -/
def noticed (t : Tracker) (p : Packet) : Tracker :=
  { t with
    counts := { t.counts with packets := t.counts.packets + 1 }
    connections := t.connections.ensure p.connection ⟨p.connection, .listen, none⟩ }

theorem accept_eq (t : Tracker) (p : Packet) :
    t.accept p =
      if p.hasPayload then
        if (t.noticed p).phaseOf p.connection = .established then (t.noticed p).route p
        else (t.noticed p).drop
      else
        match Event.ofPacket p with
        | some event => (t.noticed p).trigger event p
        | none => { t.noticed p with
          counts := { (t.noticed p).counts with
            unrecognized := (t.noticed p).counts.unrecognized + 1 } } := rfl

/-- The tracker that has filed what became of a packet's connection. -/
def transited (t : Tracker) (p : Packet) (c : Connection) : Tracker :=
  { t with
    connections := t.connections.insert p.connection c
    counts := { t.counts with transitions := t.counts.transitions + 1 } }

theorem trigger_cases (t : Tracker) (event : Event) (p : Packet) :
    ((∀ c, t.connections.find? p.connection = some c → c.phase.next event = none) ∧
      t.trigger event p = t.ignore) ∨
    ∃ c phase, t.connections.find? p.connection = some c ∧ c.phase.next event = some phase ∧
      (phase = .established ∧ t.trigger event p =
          (t.transited p (c.after event p phase)).establish (c.after event p phase) p ∨
        phase = .closed ∧ t.trigger event p =
          (t.transited p (c.after event p phase)).release p.connection ∨
        phase ≠ .established ∧ phase ≠ .closed ∧
          t.trigger event p = t.transited p (c.after event p phase)) := by
  unfold trigger
  cases hc : t.connections.find? p.connection with
  | none => exact Or.inl ⟨fun _ h => (by cases h), rfl⟩
  | some c =>
    cases hphase : c.phase.next event with
    | none =>
      refine Or.inl ⟨?_, by simp only [hphase]⟩
      rintro _ ⟨⟩
      exact hphase
    | some phase =>
      refine Or.inr ⟨c, phase, rfl, hphase, ?_⟩
      simp only [hphase]
      split
      · exact Or.inl ⟨rfl, rfl⟩
      · exact Or.inr (Or.inl ⟨rfl, rfl⟩)
      · next hestablished hclosed =>
        exact Or.inr (Or.inr ⟨hestablished, hclosed, rfl⟩)

/-! ## The books are in order -/

/-- Every connection is filed under its own flow, and every registered pair is one of those
that were opened and registered for one flow only. -/
structure Filed (t : Tracker) : Prop where
  named : ∀ {flow c}, t.connections.find? flow = some c → c.flow = flow
  valid : ∀ {flow place}, t.streams.find? flow = some place → place < t.pairs.length
  distinct : ∀ {flow flow' place}, t.streams.find? flow = some place →
    t.streams.find? flow' = some place → flow = flow'

/-- Closing the pair of a flow touches no other pair. -/
theorem closePairOf_cases (t : Tracker) (flow : Flow) :
    (∃ place, t.streams.find? flow = some place ∧
      t.closePairOf flow = t.modifyPair place Pair.close) ∨
    t.streams.find? flow = none ∧ t.closePairOf flow = t := by
  unfold closePairOf
  cases h : t.streams.find? flow with
  | some place => exact Or.inl ⟨place, rfl, rfl⟩
  | none => exact Or.inr ⟨rfl, rfl⟩

theorem closePairOf_besides (t : Tracker) (flow : Flow) :
    ∃ place, Besides place t (t.closePairOf flow) := by
  rcases t.closePairOf_cases flow with ⟨place, -, hclose⟩ | ⟨-, hclose⟩
  · rw [hclose]
    exact ⟨place, .modifyPair place t Pair.close⟩
  · rw [hclose]
    exact ⟨0, .refl 0 t⟩

theorem errand_closePairOf (t : Tracker) (flow : Flow) :
    (t.closePairOf flow).errand = t.errand := by
  rcases t.closePairOf_cases flow with ⟨place, -, hclose⟩ | ⟨-, hclose⟩
  · rw [hclose]
    rfl
  · rw [hclose]

theorem pairs_closePairOf_of_ne {t : Tracker} {flow : Flow} {place : Nat}
    (h : t.streams.find? flow ≠ some place) :
    (t.closePairOf flow).pairs[place]? = t.pairs[place]? := by
  rcases t.closePairOf_cases flow with ⟨n, hn, hclose⟩ | ⟨-, hclose⟩
  · rw [hclose]
    refine (Besides.modifyPair n t Pair.close).others place ?_
    rintro rfl
    exact h hn
  · rw [hclose]

namespace Filed

variable {t t' : Tracker}

theorem ofSettings (s : Settings) (announcements : Option (Channel Nat)) :
    Filed (.ofSettings s announcements) := by
  refine ⟨?_, ?_, ?_⟩
  · intro flow c hc
    cases hc
  · intro flow place hplace
    cases hplace
  · intro flow flow' place hplace
    cases hplace

theorem congr (h : Filed t) (hconnections : t'.connections = t.connections)
    (hstreams : t'.streams = t.streams) (hlength : t'.pairs.length = t.pairs.length) :
    Filed t' where
  named := by rw [hconnections]; exact h.named
  valid := by rw [hstreams, hlength]; exact h.valid
  distinct := by rw [hstreams]; exact h.distinct

theorem besides {place : Nat} (h : Filed t) (hbesides : Besides place t t') : Filed t' :=
  h.congr hbesides.connections hbesides.streams hbesides.length

theorem insert {flow : Flow} (h : Filed t) (c : Connection) (hc : c.flow = flow)
    (hconnections : t'.connections = t.connections.insert flow c)
    (hstreams : t'.streams = t.streams) (hlength : t'.pairs.length = t.pairs.length) :
    Filed t' where
  named := by
    intro flow' c' hc'
    rw [hconnections] at hc'
    by_cases hflow : flow = flow'
    · subst hflow
      rw [Registry.find?_insert_self] at hc'
      cases hc'
      exact hc
    · rw [Registry.find?_insert_of_ne _ _ hflow] at hc'
      exact h.named hc'
  valid := by rw [hstreams, hlength]; exact h.valid
  distinct := by rw [hstreams]; exact h.distinct

theorem establish (h : Filed t) (c : Connection) (p : Packet) : Filed (t.establish c p) := by
  obtain ⟨place, hbesides⟩ := t.closePairOf_besides c.flow
  have hstreams : (t.establish c p).streams = t.streams.insert c.flow t.pairs.length :=
    congrArg (·.insert c.flow t.pairs.length) hbesides.streams
  have hlength : (t.establish c p).pairs.length = t.pairs.length + 1 := by
    simp [Tracker.establish, hbesides.length]
  refine ⟨?_, ?_, ?_⟩
  · have hconnections : (t.establish c p).connections = t.connections := hbesides.connections
    rw [hconnections]
    intro flow c' hc
    exact h.named hc
  · intro flow n hn
    rw [hstreams] at hn
    rw [hlength]
    by_cases hflow : c.flow = flow
    · subst hflow
      rw [Registry.find?_insert_self] at hn
      cases hn
      exact Nat.lt_succ_self _
    · rw [Registry.find?_insert_of_ne _ _ hflow] at hn
      exact Nat.lt_succ_of_lt (h.valid hn)
  · intro flow flow' n hn hn'
    rw [hstreams] at hn hn'
    -- The new place is no one's yet.
    have hnew : ∀ {f}, c.flow ≠ f → (t.streams.insert c.flow t.pairs.length).find? f = some n →
        t.streams.find? f = some n ∧ n < t.pairs.length := by
      intro f hf hfind
      rw [Registry.find?_insert_of_ne _ _ hf] at hfind
      exact ⟨hfind, h.valid hfind⟩
    by_cases hflow : c.flow = flow
    · subst hflow
      rw [Registry.find?_insert_self] at hn
      cases hn
      by_cases hflow' : c.flow = flow'
      · exact hflow'
      · exact absurd (hnew hflow' hn').2 (Nat.lt_irrefl _)
    · obtain ⟨hold, hlt⟩ := hnew hflow hn
      by_cases hflow' : c.flow = flow'
      · subst hflow'
        rw [Registry.find?_insert_self] at hn'
        cases hn'
        exact absurd hlt (Nat.lt_irrefl _)
      · exact h.distinct hold (hnew hflow' hn').1

theorem find?_of_erase {κ α : Type} [DecidableEq κ] {r : Registry κ α} {k j : κ} {a : α}
    (h : (r.erase k).find? j = some a) : r.find? j = some a := by
  by_cases hk : k = j
  · subst hk
    rw [Registry.find?_erase_self] at h
    cases h
  · rwa [Registry.find?_erase_of_ne _ hk] at h

theorem release (h : Filed t) (flow : Flow) : Filed (t.release flow) := by
  obtain ⟨place, hbesides⟩ := t.closePairOf_besides flow
  have hfiled := h.besides hbesides
  refine ⟨?_, ?_, ?_⟩
  · exact fun hc => hfiled.named (find?_of_erase hc)
  · exact fun hn => hfiled.valid (find?_of_erase hn)
  · exact fun hn hn' => hfiled.distinct (find?_of_erase hn) (find?_of_erase hn')

theorem transited (h : Filed t) (p : Packet) {c : Connection} (hc : c.flow = p.connection) :
    Filed (t.transited p c) :=
  h.insert c hc rfl rfl rfl

end Filed

/-- What happens to a tracker keeps its settings, and its books in order. -/
structure Orderly (t t' : Tracker) : Prop where
  stream : t'.stream = t.stream
  captureResponse : t'.captureResponse = t.captureResponse
  filed : Filed t → Filed t'

namespace Orderly

theorem refl (t : Tracker) : Orderly t t := ⟨rfl, rfl, id⟩

theorem trans {t t' t'' : Tracker} (h : Orderly t t') (h' : Orderly t' t'') : Orderly t t'' :=
  ⟨h'.stream.trans h.stream, h'.captureResponse.trans h.captureResponse,
    fun hfiled => h'.filed (h.filed hfiled)⟩

theorem of_besides {place : Nat} {t t' : Tracker} (h : Besides place t t') : Orderly t t' :=
  ⟨h.stream, h.captureResponse, fun hfiled => hfiled.besides h⟩

variable (t : Tracker) (p : Packet)

theorem establish (c : Connection) : Orderly t (t.establish c p) := by
  obtain ⟨place, hbesides⟩ := t.closePairOf_besides c.flow
  exact ⟨hbesides.stream, hbesides.captureResponse, fun hfiled => hfiled.establish c p⟩

theorem release (flow : Flow) : Orderly t (t.release flow) := by
  obtain ⟨place, hbesides⟩ := t.closePairOf_besides flow
  exact ⟨hbesides.stream, hbesides.captureResponse, fun hfiled => hfiled.release flow⟩

theorem trigger (event : Event) : Orderly t (t.trigger event p) := by
  rcases t.trigger_cases event p with ⟨-, htrigger⟩ | ⟨c, phase, hc, -, hways⟩
  · rw [htrigger]
    exact ⟨rfl, rfl, fun hfiled => hfiled.congr rfl rfl rfl⟩
  · have htransited : Orderly t (t.transited p (c.after event p phase)) :=
      ⟨rfl, rfl, fun hfiled => hfiled.transited p (show c.flow = p.connection from hfiled.named hc)⟩
    rcases hways with ⟨-, htrigger⟩ | ⟨-, htrigger⟩ | ⟨-, -, htrigger⟩
    · rw [htrigger]
      exact htransited.trans (establish _ p _)
    · rw [htrigger]
      exact htransited.trans (release _ _)
    · rw [htrigger]
      exact htransited

theorem noticed : Orderly t (t.noticed p) := by
  refine ⟨rfl, rfl, fun hfiled => ?_⟩
  unfold Tracker.noticed Registry.ensure
  split
  · exact hfiled.congr rfl rfl rfl
  · exact hfiled.insert ⟨p.connection, .listen, none⟩ rfl rfl rfl rfl

theorem route : Orderly t (t.route p) := by
  unfold Tracker.route
  split
  · exact ⟨rfl, rfl, fun hfiled => hfiled.congr rfl rfl rfl⟩
  · split
    · exact ⟨rfl, rfl, fun hfiled => hfiled.congr rfl rfl rfl⟩
    · split
      · exact ⟨rfl, rfl, fun hfiled => hfiled.congr rfl rfl rfl⟩
      · exact refl t

theorem accept : Orderly t (t.accept p) := by
  refine (noticed t p).trans ?_
  rw [accept_eq]
  split
  · split
    · exact route _ p
    · exact ⟨rfl, rfl, fun hfiled => hfiled.congr rfl rfl rfl⟩
  · split
    · exact trigger _ p _
    · exact ⟨rfl, rfl, fun hfiled => hfiled.congr rfl rfl rfl⟩

theorem step {t' : Tracker} (hstep : t.step = some t') : Orderly t t' := by
  cases herrand : t.errand with
  | none =>
    rw [step_of_errand_none herrand] at hstep
    cases hstep
  | some e => exact of_besides (besides_step herrand hstep).1

theorem settle : Orderly t t.settle := by
  cases herrand : t.errand with
  | none =>
    rw [settle_of_errand_none herrand]
    exact refl t
  | some e => exact of_besides (besides_moves herrand _)

theorem handle : Orderly t (t.handle p) := (accept t p).trans (settle _)

theorem perform (deed : Deed) : Orderly t (t.perform deed) := by
  cases deed with
  | accept p =>
    simp only [Tracker.perform]
    split
    · exact accept t p
    · exact refl t
  | step =>
    simp only [Tracker.perform]
    cases hstep : t.step with
    | none => exact refl t
    | some t' => exact step t hstep
  | take place direction =>
    simp only [Tracker.perform]
    split
    · exact refl t
    · split
      · exact of_besides (Besides.modifyPair place t _)
      · exact refl t
      · exact refl t
  | close place => exact of_besides (Besides.modifyPair place t _)
  | takeNews =>
    simp only [Tracker.perform, takeNews]
    split
    · next t' hnews =>
      split at hnews
      · cases hnews
      · split at hnews
        · cases hnews
          exact ⟨rfl, rfl, fun hfiled => hfiled.congr rfl rfl rfl⟩
        · cases hnews
        · cases hnews
    · exact refl t
    · exact refl t
    · exact refl t
  | endNews => exact ⟨rfl, rfl, fun hfiled => hfiled.congr rfl rfl rfl⟩

/-- Settings and books are kept in every state that a tracker can come to. -/
theorem course (deeds : List Deed) : Orderly t (t.course deeds) := by
  induction deeds generalizing t with
  | nil => exact refl t
  | cons deed deeds ih => exact (perform t deed).trans (ih (t.perform deed))

end Orderly

/-! ## Connections are kept apart -/

/-- Two trackers that know the same of a flow and have the same pair at its place, and the
later one is not at work on this pair. -/
structure Elsewhere (flow : Flow) (place : Nat) (t t' : Tracker) : Prop where
  connection : t'.connections.find? flow = t.connections.find? flow
  registered : t'.streams.find? flow = t.streams.find? flow
  pair : t'.pairs[place]? = t.pairs[place]?
  captureResponse : t'.captureResponse = t.captureResponse
  errand : ∀ e, t'.errand = some e → e.place ≠ place

namespace Elsewhere

variable {flow : Flow} {place : Nat} {t t' t'' : Tracker}

theorem trans (h : Elsewhere flow place t t') (h' : Elsewhere flow place t' t'') :
    Elsewhere flow place t t'' where
  connection := h'.connection.trans h.connection
  registered := h'.registered.trans h.registered
  pair := h'.pair.trans h.pair
  captureResponse := h'.captureResponse.trans h.captureResponse
  errand := h'.errand

theorem errand_of_none (herrand : t.errand = none) (place : Nat) :
    ∀ e, t.errand = some e → e.place ≠ place := by
  intro e he
  rw [herrand] at he
  cases he

theorem of_counts (herrand : t.errand = none) (counts : Counts) :
    Elsewhere flow place t { t with counts := counts } :=
  ⟨rfl, rfl, rfl, rfl, errand_of_none herrand place⟩

section Other

variable {p : Packet} (hfiled : Filed t) (herrand : t.errand = none)
  (hplace : t.streams.find? flow = some place) (hother : p.connection ≠ flow)

include hfiled hplace hother in
theorem streams_ne : t.streams.find? p.connection ≠ some place :=
  fun h => hother (hfiled.distinct h hplace)

include hfiled hplace hother in
theorem establish {c : Connection} (hc : c.flow = p.connection) :
    Elsewhere flow place t (t.establish c p) := by
  have hne := streams_ne hfiled hplace hother
  have hvalid := hfiled.valid hplace
  obtain ⟨n, hbesides⟩ := t.closePairOf_besides p.connection
  unfold Tracker.establish
  rw [hc]
  constructor
  · exact congrArg (·.find? flow) hbesides.connections
  · simp only [hbesides.streams]
    exact Registry.find?_insert_of_ne _ _ hother
  · simp only
    rw [List.getElem?_append_left (hbesides.length.symm ▸ hvalid)]
    exact pairs_closePairOf_of_ne hne
  · exact hbesides.captureResponse
  · intro e he
    obtain ⟨_, _, rfl⟩ := Option.map_eq_some_iff.1 he
    exact Nat.ne_of_gt hvalid

include hfiled herrand hplace hother in
theorem release : Elsewhere flow place t (t.release p.connection) := by
  have hne := streams_ne hfiled hplace hother
  obtain ⟨n, hbesides⟩ := t.closePairOf_besides p.connection
  constructor
  · simp only [Tracker.release, hbesides.connections]
    exact Registry.find?_erase_of_ne _ hother
  · simp only [Tracker.release, hbesides.streams]
    exact Registry.find?_erase_of_ne _ hother
  · exact pairs_closePairOf_of_ne hne
  · exact hbesides.captureResponse
  · exact errand_of_none ((t.errand_closePairOf p.connection).trans herrand) place

include hfiled herrand hplace hother in
theorem trigger (event : Event) : Elsewhere flow place t (t.trigger event p) := by
  rcases t.trigger_cases event p with ⟨-, htrigger⟩ | ⟨c, phase, hc, -, hways⟩
  · rw [htrigger]
    exact of_counts herrand _
  · have hflow : c.flow = p.connection := hfiled.named hc
    have hbooks := hfiled.transited p (c := c.after event p phase) hflow
    have htransited : Elsewhere flow place t (t.transited p (c.after event p phase)) :=
      ⟨Registry.find?_insert_of_ne _ _ hother, rfl, rfl, rfl,
        errand_of_none herrand place⟩
    rcases hways with ⟨-, htrigger⟩ | ⟨-, htrigger⟩ | ⟨-, -, htrigger⟩
    · rw [htrigger]
      exact htransited.trans (establish hbooks hplace hother hflow)
    · rw [htrigger]
      exact htransited.trans (release hbooks herrand hplace hother)
    · rw [htrigger]
      exact htransited

include hfiled herrand hplace hother in
theorem route : Elsewhere flow place t (t.route p) := by
  unfold Tracker.route
  cases hpair : t.pairOf? p.connection with
  | none => exact of_counts herrand _
  | some found =>
    obtain ⟨n, pair⟩ := found
    have hne : n ≠ place := by
      rintro rfl
      exact streams_ne hfiled hplace hother (pairOf?_eq_some_iff.1 hpair).1
    cases p.direction with
    | inbound =>
      refine ⟨rfl, rfl, rfl, rfl, ?_⟩
      rintro _ ⟨⟩
      exact hne
    | outbound =>
      simp only
      split
      · refine ⟨rfl, rfl, rfl, rfl, ?_⟩
        rintro _ ⟨⟩
        exact hne
      · exact of_counts herrand t.counts

include hfiled herrand hplace hother in
theorem accept : Elsewhere flow place t (t.accept p) := by
  have hnoticed : Elsewhere flow place t (t.noticed p) :=
    ⟨Registry.find?_ensure_of_ne _ _ hother, rfl, rfl, rfl,
      errand_of_none herrand place⟩
  have hbooks := (Orderly.noticed t p).filed hfiled
  rw [accept_eq]
  split
  · split
    · exact hnoticed.trans (route hbooks herrand hplace hother)
    · exact hnoticed.trans (of_counts (t := t.noticed p) herrand _)
  · split
    · exact hnoticed.trans (trigger hbooks herrand hplace hother _)
    · exact hnoticed.trans (of_counts (t := t.noticed p) herrand _)

include hfiled herrand hplace hother in
theorem handle (hidle : (t.handle p).errand = none) :
    Elsewhere flow place t (t.handle p) := by
  have haccept := accept hfiled herrand hplace hother
  refine haccept.trans ?_
  have hlast : ∀ e, (t.handle p).errand = some e → e.place ≠ place := by
    intro e he
    rw [hidle] at he
    cases he
  cases he : (t.accept p).errand with
  | none =>
    have hsettle : t.handle p = t.accept p := settle_of_errand_none he
    rw [hsettle]
    exact ⟨rfl, rfl, rfl, rfl, haccept.errand⟩
  | some e =>
    have hbesides : Besides e.place (t.accept p) (t.handle p) := besides_moves he _
    exact ⟨congrArg (·.find? flow) hbesides.connections,
      congrArg (·.find? flow) hbesides.streams,
      hbesides.others place (haccept.errand e he).symm, hbesides.captureResponse, hlast⟩

end Other

end Elsewhere

end Tracker

end StreamTap
