import StreamTap.Proofs.Tracker.Ageing
import StreamTap.Proofs.Tracker.Alone
import StreamTap.Proofs.Tracker.Lifetime

/-!
# No pair is left open behind

A pair outlives what is on file for its connection, because consumers hold it.  If one were
dropped from the registers while it is open, its readers would wait forever.  This never happens:
a pair that is not the registered one of its flow is closed (`Tended`).  The two functions that
take a place out of the register or put another one in, `establish` and `release`, close the pair
that stood there first, and no pair is opened again.

When a connection ends, nothing is on file for it, all pairs that were opened for it are closed,
and its next packet is handled as by a tracker that has seen none (`Forgotten.startsAnew`).  When
a run ends, this is so for all connections (`Tended.shutdown`).
-/

namespace StreamTap

/-! ## Closed pairs -/

namespace Pair

def IsClosed (p : Pair) : Prop := ∀ d, (p.buffer d).isClosed = true

theorem isClosed_close (p : Pair) : p.close.IsClosed := fun d => by cases d <;> rfl

theorem Ages.isClosed {p p' : Pair} (h : p.Ages p') (hp : p.IsClosed) : p'.IsClosed :=
  fun d => (h.buffer d).closed (hp d)

end Pair

theorem Registry.mem_values_of_find? {κ α : Type} [DecidableEq κ] {r : Registry κ α} {k : κ} {a : α}
    (h : r.find? k = some a) : a ∈ r.values := by
  obtain ⟨e, he, rfl⟩ := Option.map_eq_some_iff.1 h
  exact List.mem_map_of_mem (List.mem_of_find?_eq_some he)

namespace Tracker

variable {t t' : Tracker} {flow : Flow} {p : Packet}

/-! ## Every pair is registered or closed -/

/-- Every pair is the registered one of its flow, or closed. -/
def Tended (t : Tracker) : Prop :=
  ∀ (place : Nat) (pair : Pair), t.pairs[place]? = some pair →
    t.streams.find? pair.flow = some place ∨ pair.IsClosed

def ClosedFor (t : Tracker) (flow : Flow) : Prop :=
  ∀ pair ∈ t.pairs, pair.flow = flow → pair.IsClosed

namespace Tended

theorem ofSettings (s : Settings) (announcements : Option (Channel Nat)) :
    Tended (.ofSettings s announcements) := by
  intro place pair hpair
  cases hpair

theorem congr (h : Tended t) (hages : Ages t t') (hlength : t'.pairs.length = t.pairs.length)
    (hstreams : t'.streams = t.streams) : Tended t' := by
  intro place pair' hpair'
  obtain ⟨pair, hpair, hage⟩ := hages.back hlength hpair'
  rw [hstreams, hage.flow]
  exact (h place pair hpair).imp_right hage.isClosed

theorem closedFor (h : Tended t) (hplace : t.streams.find? flow = none) : ClosedFor t flow := by
  intro pair hmem hflow
  obtain ⟨place, hpair⟩ := List.getElem?_of_mem hmem
  refine (h place pair hpair).resolve_left ?_
  rw [hflow, hplace]
  exact Option.some_ne_none place ∘ Eq.symm

theorem closePairOf (h : Tended t) (flow : Flow) : Tended (t.closePairOf flow) := by
  obtain ⟨_, hbesides⟩ := t.closePairOf_besides flow
  exact h.congr (.closePairOf t flow) hbesides.length hbesides.streams

/-- With the registered pair of a flow, all its pairs are closed. -/
theorem closedFor_closePairOf (h : Tended t) (flow : Flow) :
    ClosedFor (t.closePairOf flow) flow := by
  intro pair' hmem hflow
  obtain ⟨place, hpair'⟩ := List.getElem?_of_mem hmem
  obtain ⟨_, hbesides⟩ := t.closePairOf_besides flow
  obtain ⟨pair, hpair, hages⟩ := (Ages.closePairOf t flow).back hbesides.length hpair'
  rcases h place pair hpair with hplace | hclosed
  · rw [← hages.flow, hflow] at hplace
    rw [Tracker.closePairOf, hplace] at hpair'
    simp only [modifyPair, List.getElem?_modify_eq, hpair, Option.map_eq_map, Option.map_some,
      Option.some.injEq] at hpair'
    exact hpair' ▸ pair.isClosed_close
  · exact hages.isClosed hclosed

theorem establish (h : Tended t) (c : Connection) (p : Packet) : Tended (t.establish c p) := by
  obtain ⟨_, hbesides⟩ := t.closePairOf_besides c.flow
  have hclosed := h.closedFor_closePairOf c.flow
  have hstreams : (t.establish c p).streams =
      (t.closePairOf c.flow).streams.insert c.flow t.pairs.length := rfl
  intro place pair hpair
  rw [hstreams]
  by_cases hlt : place < t.pairs.length
  · have hold : (t.closePairOf c.flow).pairs[place]? = some pair := by
      rw [← List.getElem?_append_left (hbesides.length.symm ▸ hlt)]
      exact hpair
    by_cases hflow : pair.flow = c.flow
    · exact Or.inr (hclosed pair (List.mem_of_getElem? hold) hflow)
    · rw [Registry.find?_insert_of_ne _ _ (Ne.symm hflow)]
      exact h.closePairOf c.flow place pair hold
  · have hlength : (t.establish c p).pairs.length = t.pairs.length + 1 := by
      simp [Tracker.establish, hbesides.length]
    have hbound := (List.getElem?_eq_some_iff.1 hpair).1
    obtain rfl : place = t.pairs.length := by omega
    rw [pairs_establish, Option.some.injEq] at hpair
    rw [← hpair]
    exact Or.inl (Registry.find?_insert_self _ _ _)

theorem release (h : Tended t) (flow : Flow) : Tended (t.release flow) := by
  intro place pair hpair
  have hold : (t.closePairOf flow).pairs[place]? = some pair := hpair
  have hstreams : (t.release flow).streams = (t.closePairOf flow).streams.erase flow := rfl
  rw [hstreams]
  by_cases hflow : pair.flow = flow
  · exact Or.inr (h.closedFor_closePairOf flow pair (List.mem_of_getElem? hold) hflow)
  · rw [Registry.find?_erase_of_ne _ (Ne.symm hflow)]
    exact h.closePairOf flow place pair hold

theorem trigger (h : Tended t) (event : Event) (p : Packet) : Tended (t.trigger event p) := by
  rcases t.trigger_cases event p with ⟨-, htrigger⟩ | ⟨c, phase, -, -, hways⟩
  · rw [htrigger]
    exact h
  · have htransited : Tended (t.transited p (c.after event p phase)) := h
    rcases hways with ⟨-, htrigger⟩ | ⟨-, htrigger⟩ | ⟨-, -, htrigger⟩ <;> rw [htrigger]
    · exact htransited.establish _ p
    · exact htransited.release _
    · exact htransited

theorem accept (h : Tended t) (p : Packet) : Tended (t.accept p) := by
  have hnoticed : Tended (t.noticed p) := h
  rw [accept_eq]
  split
  · split
    · obtain ⟨hpairs, hstreams⟩ := (t.noticed p).pairs_route p
      exact hnoticed.congr (.of_pairs_eq hpairs) (congrArg List.length hpairs) hstreams
    · exact hnoticed
  · split
    · exact hnoticed.trigger _ p
    · exact hnoticed

theorem perform (h : Tended t) (deed : Deed) : Tended (t.perform deed) := by
  by_cases haccept : ∃ p, deed = .accept p
  · obtain ⟨p, rfl⟩ := haccept
    simp only [Tracker.perform]
    split
    · exact h.accept p
    · exact h
  · obtain ⟨-, hstreams, hlength⟩ := t.registers_perform fun p hp => haccept ⟨p, hp⟩
    exact h.congr (.perform t deed) hlength hstreams

theorem course (h : Tended t) (deeds : List Deed) : Tended (t.course deeds) :=
  course_keeps (fun {_ deed} _ h => h.perform deed) h fun _ _ => trivial

end Tended

/-! ## When a connection ends -/

/-- A packet leads its connection to the end. -/
def Ends (t : Tracker) (p : Packet) : Prop :=
  p.hasPayload = false ∧
    ∃ event, Event.ofPacket p = some event ∧ (t.phaseOf p.connection).next event = some .closed

/-- Nothing is on file for a flow. -/
structure Forgotten (t : Tracker) (flow : Flow) : Prop where
  connection : t.connections.find? flow = none
  place : t.streams.find? flow = none

/-- A packet of a connection that nothing is known of is handled as by a tracker with the same
settings and announcements that has seen no packet: it meets a connection that listens and has no
number of a SYN. -/
structure StartsAnew (s : Settings) (t : Tracker) (p : Packet) : Prop where
  listens : (t.noticed p).connections.find? p.connection = some ⟨p.connection, .listen, none⟩
  agrees : Agree p.connection (t.accept p) ((ofSettings s t.announcements).accept p)
  errand : SameErrand p.connection (t.accept p) ((ofSettings s t.announcements).accept p)

namespace Forgotten

/-- A packet that ends its connection leaves nothing on file for it. -/
theorem of_ends (hends : Ends t p) : Forgotten (t.accept p) p.connection := by
  obtain ⟨hpayload, event, hevent, hnext⟩ := hends
  obtain ⟨c, hc⟩ : ∃ c, (t.noticed p).connections.find? p.connection = some c :=
    ⟨_, Registry.find?_ensure_self ..⟩
  have hphase : c.phase = t.phaseOf p.connection :=
    (phaseOf_of_some hc).symm.trans (phaseOf_noticed t p)
  have haccept : t.accept p =
      ((t.noticed p).transited p (c.after event p .closed)).release p.connection := by
    rw [accept_eq, hpayload, if_neg Bool.false_ne_true, hevent]
    exact trigger_of_next hc (hphase ▸ hnext)
  rw [haccept]
  exact ⟨Registry.find?_erase_self _ _, Registry.find?_erase_self _ _⟩

theorem course (h : Forgotten t flow) (hfiled : Filed t) (deeds : List Deed)
    (hothers : ∀ p, .accept p ∈ deeds → p.connection ≠ flow) :
    Forgotten (t.course deeds) flow := by
  refine (course_keeps (P := fun u => Forgotten u flow ∧ Filed u)
    (K := fun deed => ∀ p, deed = .accept p → p.connection ≠ flow) ?_ ⟨h, hfiled⟩
    fun _ hmem p hp => hothers p (hp ▸ hmem)).1
  rintro u deed hdeed ⟨hforgotten, hfiled⟩
  have hsame : SameFile flow u (u.perform deed) := SameFile.perform hfiled hdeed
  exact ⟨⟨hsame.connection.trans hforgotten.connection, hsame.place.trans hforgotten.place⟩,
    (Orderly.perform u deed).filed hfiled⟩

theorem startsAnew {s : Settings} (h : Forgotten t p.connection) (hfiled : Filed t)
    (hidle : t.isIdle = true) (hstream : t.stream = s.stream)
    (hcapture : t.captureResponse = s.tracker.captureResponse) : StartsAnew s t p := by
  have hagree : Agree p.connection t (ofSettings s t.announcements) := by
    refine ⟨hstream.symm, hcapture.symm, h.connection.symm, ?_, .refl _⟩
    rw [pairOf?_of_unregistered h.place]
    rfl
  obtain ⟨hagrees, herrand⟩ := hagree.accept (fun _ hc => hfiled.named hc)
    (Option.isNone_iff_eq_none.1 hidle) rfl
  refine ⟨?_, hagrees, herrand⟩
  rw [noticed, Registry.find?_ensure_self, h.connection]
  rfl

end Forgotten

/-! ## When a run ends -/

/-- Nothing is on file, and all pairs are closed. -/
structure Ended (t : Tracker) : Prop where
  connections : t.connections = .empty
  streams : t.streams = .empty
  closed : ∀ pair ∈ t.pairs, pair.IsClosed

/-- Closing pairs one after another closes those at the given places. -/
theorem foldl_modify_close (places : List Nat) (pairs : List Pair) {place : Nat} {pair' : Pair}
    (h : (places.foldl (fun pairs n => pairs.modify n Pair.close) pairs)[place]? = some pair') :
    ∃ pair, pairs[place]? = some pair ∧ pair.Ages pair' ∧ (place ∈ places → pair'.IsClosed) := by
  induction places generalizing pairs with
  | nil => exact ⟨pair', h, .refl _, fun hmem => absurd hmem List.not_mem_nil⟩
  | cons n places ih =>
    obtain ⟨pair, hpair, hages, hclosed⟩ := ih _ h
    by_cases hn : n = place
    · subst hn
      rw [List.getElem?_modify_eq] at hpair
      obtain ⟨old, hold, rfl⟩ := Option.map_eq_some_iff.1 hpair
      exact ⟨old, hold, (Pair.Ages.close old).trans hages,
        fun _ => hages.isClosed old.isClosed_close⟩
    · rw [List.getElem?_modify_ne _ _ hn] at hpair
      refine ⟨pair, hpair, hages, fun hmem => hclosed ?_⟩
      exact (List.mem_cons.1 hmem).resolve_left (Ne.symm hn)

theorem Tended.shutdown (h : Tended t) : Ended t.shutdown := by
  refine ⟨rfl, rfl, fun pair' hmem => ?_⟩
  obtain ⟨place, hpair'⟩ := List.getElem?_of_mem hmem
  obtain ⟨pair, hpair, hages, hclosed⟩ := foldl_modify_close _ _ hpair'
  rcases h place pair hpair with hplace | hdone
  · exact hclosed (Registry.mem_values_of_find? hplace)
  · exact hages.isClosed hdone

namespace Ended

theorem perform (h : Ended t) {deed : Deed} (hdeed : ∀ p, deed ≠ .accept p) :
    Ended (t.perform deed) := by
  obtain ⟨hconnections, hstreams, hlength⟩ := t.registers_perform hdeed
  refine ⟨hconnections.trans h.connections, hstreams.trans h.streams, fun pair' hmem => ?_⟩
  obtain ⟨place, hpair'⟩ := List.getElem?_of_mem hmem
  obtain ⟨pair, hpair, hages⟩ := (Ages.perform t deed).back hlength hpair'
  exact hages.isClosed (h.closed pair (List.mem_of_getElem? hpair))

theorem course (h : Ended t) (deeds : List Deed) (hdeeds : ∀ p, .accept p ∉ deeds) :
    Ended (t.course deeds) :=
  course_keeps_meanwhile (fun hdeed h => h.perform hdeed) h hdeeds

theorem tended (h : Ended t) : Tended t :=
  fun _ pair hpair => Or.inr (h.closed pair (List.mem_of_getElem? hpair))

end Ended

/-- At every moment of the life of a tracker its pairs are tended, and after its end all of them
are closed. -/
theorem Lived.tended {t₀ : Tracker} {stopped : Bool} (h : Lived t₀ stopped t)
    (hbegin : Tended t₀) : Tended t ∧ (stopped = true → Ended t) := by
  cases h with
  | running deeds => exact ⟨hbegin.course deeds, fun hstopped => by cases hstopped⟩
  | stopped deeds more _ hmore =>
    have hended := (hbegin.course deeds).shutdown.course more hmore
    exact ⟨hended.tended, fun _ => hended⟩

/-- In every state that a tracker can come to, every pair that was ever opened is the registered
one of its flow or closed in both directions.  When a packet ends its connection, then from this
moment until the next packet of the connection, whatever else happens, nothing is on file for it,
all its pairs are closed, and this next packet starts anew.  When a run ends, at any moment and
with any calls waiting, all pairs are closed and nothing is on file at all, and whatever consumers
do later, it stays so.  This is so too for the tracker of a session that has come to the end of a
run. -/
theorem no_pair_left_open (s : Settings) (announcements : Option (Channel Nat)) :
    let t₀ := ofSettings s announcements
    (∀ deeds, Tended (t₀.course deeds)) ∧
      (∀ deeds p more, let t := t₀.course deeds
        t.isIdle = true → Ends t p → (∀ q, .accept q ∈ more → q.connection ≠ p.connection) →
        let u := (t.perform (.accept p)).course more
        Forgotten u p.connection ∧ ClosedFor u p.connection ∧
          ∀ q, q.connection = p.connection → u.isIdle = true → StartsAnew s u q) ∧
      (∀ deeds more, (∀ q, .accept q ∉ more) →
        Ended ((t₀.course deeds).shutdown.course more)) ∧
      ∀ announcing requests, let session := (Session.ofSettings s announcing).serveAll requests
        Tended session.tracker ∧ (session.stopped = true → Ended session.tracker) := by
  intro t₀
  have htended : ∀ deeds, Tended (t₀.course deeds) :=
    (Tended.ofSettings s announcements).course
  refine ⟨htended, ?_, fun deeds more hmore => (htended deeds).shutdown.course more hmore,
    fun announcing requests => ?_⟩
  · intro deeds p more t hidle hends hothers u
    have hbegins : Filed t₀ := .ofSettings s announcements
    have hu : u = t₀.course (deeds ++ .accept p :: more) := by
      simp [u, t, Tracker.course]
    have hsettings : Orderly t₀ u := hu ▸ Orderly.course t₀ _
    have haccept : t.perform (.accept p) = t.accept p := by simp [Tracker.perform, hidle]
    have hfiled : Filed (t.accept p) :=
      (Orderly.accept t p).filed ((Orderly.course t₀ deeds).filed hbegins)
    have hforgotten : Forgotten u p.connection := by
      simp only [u, haccept]
      exact (Forgotten.of_ends hends).course hfiled more hothers
    refine ⟨hforgotten, (hu ▸ htended _ : Tended u).closedFor hforgotten.place, ?_⟩
    intro q hq huidle
    rw [← hq] at hforgotten
    exact hforgotten.startsAnew (hsettings.filed hbegins) huidle hsettings.stream
      hsettings.captureResponse
  · exact (Session.lived_serveAll s announcing requests).tended (.ofSettings s _)

/-- The service resets the connection of the client. -/
def hungUp : Packet := spoken 4000 .outbound 4294967294 (.ofByte 4) []

/-- The pair of a connection that was reset is closed while another client says hello, and the
first client can call again.  A run that ends in the middle of the call closes the pair as well,
and a reader finds it so. -/
theorem no_pair_left_open_hungUp :
    let t := (ofSettings {} none).course (greeting ++ [.accept greeted])
    let u := (t.perform (.accept hungUp)).course [.accept (spoken 4001 .inbound 7 (.ofByte 2) [])]
    let session := (Session.ofSettings {} (some 1)).serveAll
      [(0, .run [spoken 4000 .inbound 4294967289 (.ofByte 2) [],
        spoken 4000 .outbound 4294967293 (.ofByte 18) [], greeted])]
    (∃ pair, t.pairs = [pair] ∧ pair.inbound.isClosed = false) ∧
      (∃ pair, u.pairs = [pair] ∧ pair.IsClosed) ∧
      StartsAnew {} u (spoken 4000 .inbound 77 (.ofByte 2) []) ∧
      Ended (t.shutdown.course [.take 0 .inbound]) ∧
      ∃ pair, session.tracker.pairs = [pair] ∧ pair.IsClosed := by
  intro t u session
  obtain ⟨-, hcalls, hends, hruns⟩ := no_pair_left_open {} none
  have hother : ∀ q, Deed.accept q ∈ [.accept (spoken 4001 .inbound 7 (.ofByte 2) [])] →
      q.connection ≠ hungUp.connection := by
    intro q hq
    cases List.mem_singleton.1 hq
    decide
  obtain ⟨-, hclosed, hagain⟩ := hcalls (greeting ++ [.accept greeted]) hungUp
    [.accept (spoken 4001 .inbound 7 (.ofByte 2) [])] (by decide)
    ⟨by decide, .receiveRst, by decide, by decide⟩ hother
  have hreads : ∀ q, Deed.accept q ∉ [.take 0 .inbound] := by simp
  have hend := hends (greeting ++ [.accept greeted]) _ hreads
  have hended := (hruns (some 1) _).2 (show session.stopped = true by decide +kernel)
  refine ⟨⟨_, rfl, by decide⟩, ⟨_, rfl, ?_⟩, hagain _ (by decide) (by decide), ?_, ?_⟩
  · exact hclosed _ List.mem_cons_self (by decide)
  · exact hend
  · exact ⟨_, rfl, hended.closed _ List.mem_cons_self⟩

end Tracker

end StreamTap
