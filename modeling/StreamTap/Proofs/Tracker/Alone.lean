import StreamTap.Proofs.Tracker.Reconstruction
import StreamTap.Proofs.Tracker.Registers
import StreamTap.Proofs.Tracker.Requests

/-!
# Every connection is handled as if it were alone

Two trackers are compared from the side of one connection.  The first handles all packets,
the second only those of this connection.  They `Agree` when they have the same on file for
the connection, the same content in its pair, and at least as much room for announcements in
the second.  The places of the pairs differ, because the first tracker has opened others.

A packet of another connection is handled by the first tracker alone, and the two agree
afterwards (`Agree.other`).  A packet of the connection is handled by both, and they go in
lockstep: each move of the first is matched by one of the second, on its own pair
(`Agree.step`).  So the second tracker never waits where the first does not, and in the end
the two agree (`handled_as_if_alone`).

What is on file for a connection can even be told from its events alone.  Following them
through the table of transitions, with a connection that has ended forgotten, gives the phase
it is in.
-/

namespace StreamTap

/-! ## Following events -/

/-- Where a connection stands after an event.  One that is not known listens, and one that has
ended is not known any more. -/
def Phase.follow (phase : Option Phase) (event : Event) : Option Phase :=
  match (phase.getD .listen).next event with
  | none => phase
  | some .closed => none
  | some phase => some phase

def controlEvents (ps : List Packet) : List Event :=
  ps.filterMap fun p => if p.hasPayload then none else Event.ofPacket p

def packetsOf (flow : Flow) (ps : List Packet) : List Packet :=
  ps.filter fun p => p.connection = flow

namespace Phase

/-- It makes no difference whether a connection listens or is not known. -/
theorem getD_follow (phase : Option Phase) (event : Event) :
    (follow phase event).getD .listen =
      (follow (some (phase.getD .listen)) event).getD .listen := by
  unfold follow
  rw [Option.getD_some]
  split
  · rfl
  · rfl
  · rfl

theorem getD_foldl_follow (phase : Option Phase) (events : List Event) :
    (events.foldl follow phase).getD .listen =
      (events.foldl follow (some (phase.getD .listen))).getD .listen := by
  induction events generalizing phase with
  | nil => rfl
  | cons e es ih => rw [List.foldl_cons, List.foldl_cons, ih, getD_follow, ← ih]

end Phase

/-! ## Channels with room -/

/-- The second of two channels has room wherever the first has, and refuses when it does. -/
inductive Roomier : Option (Channel Nat) → Option (Channel Nat) → Prop
  | absent : Roomier none none
  | present {c d : Channel Nat} : d.capacity = c.capacity → d.isClosed = c.isClosed →
      d.items.length ≤ c.items.length → Roomier (some c) (some d)

namespace Roomier

variable {news news' : Option (Channel Nat)}

theorem eq_none (h : Roomier news news') (hnone : news = none) : news' = none := by
  subst hnone
  cases h
  rfl

theorem of_eq_some (h : Roomier news news') {c : Channel Nat} (hsome : news = some c) :
    ∃ d, news' = some d ∧ d.capacity = c.capacity ∧ d.isClosed = c.isClosed ∧
      d.items.length ≤ c.items.length := by
  subst hsome
  cases h with
  | present hcapacity hclosed hlength => exact ⟨_, rfl, hcapacity, hclosed, hlength⟩

theorem refl (news : Option (Channel Nat)) : Roomier news news := by
  cases news with
  | none => exact .absent
  | some c => exact .present rfl rfl (Nat.le_refl _)

theorem trans {news'' : Option (Channel Nat)} (h : Roomier news news')
    (h' : Roomier news' news'') : Roomier news news'' := by
  cases h with
  | absent => exact h'
  | present hcapacity hclosed hlength =>
    cases h' with
    | present hcapacity' hclosed' hlength' =>
      exact .present (hcapacity'.trans hcapacity) (hclosed'.trans hclosed)
        (Nat.le_trans hlength' hlength)

end Roomier

namespace Channel

variable {α : Type} {c c' : Channel α} {a : α}

/-- The channel with one more item, whether there is room or not. -/
def pushed (c : Channel α) (a : α) : Channel α := { c with items := c.items ++ [a] }

theorem of_send_accepted (h : c.send a = .accepted c') :
    c.isClosed = false ∧ c.items.length < c.capacity ∧ c' = c.pushed a := by
  unfold send at h
  split at h
  · cases h
  · next hopen =>
    split at h
    · next hroom =>
      cases h
      exact ⟨by simpa using hopen, hroom, rfl⟩
    · cases h

theorem send_of_room (hopen : c.isClosed = false) (hroom : c.items.length < c.capacity) (a : α) :
    c.send a = .accepted (c.pushed a) := by
  simp [send, hopen, hroom, pushed]

end Channel

namespace Tracker

variable {t t' u : Tracker} {flow : Flow} {p : Packet}

/-! ## The ways an event goes -/

section Trigger

variable {c : Connection} {event : Event} {phase : Phase}

theorem trigger_of_unknown (h : t.connections.find? p.connection = none) :
    t.trigger event p = t.ignore := by
  simp only [trigger, h]

theorem trigger_of_stuck (h : t.connections.find? p.connection = some c)
    (hnext : c.phase.next event = none) : t.trigger event p = t.ignore := by
  simp only [trigger, h, hnext]

theorem trigger_of_next (h : t.connections.find? p.connection = some c) :
    c.phase.next event = some phase → t.trigger event p =
      match phase with
      | .established =>
        (t.transited p (c.after event p phase)).establish (c.after event p phase) p
      | .closed => (t.transited p (c.after event p phase)).release p.connection
      | _ => t.transited p (c.after event p phase) := by
  intro hnext
  simp only [trigger, h, hnext]
  rfl

end Trigger

/-! ## Moves and announcements -/

theorem announcements_closePairOf (t : Tracker) (flow : Flow) :
    (t.closePairOf flow).announcements = t.announcements := by
  rcases t.closePairOf_cases flow with ⟨place, -, hclose⟩ | ⟨-, hclose⟩ <;> rw [hclose]
  rfl

theorem announcements_accept (t : Tracker) (p : Packet) :
    (t.accept p).announcements = t.announcements := by
  rw [accept_eq]
  split
  · split
    · unfold route
      split
      · rfl
      · split
        · rfl
        · split <;> rfl
    · rfl
  · split
    · next event _ =>
      rcases (t.noticed p).trigger_cases event p with ⟨-, htrigger⟩ | ⟨c, phase, -, -, hways⟩
      · rw [htrigger]
        rfl
      · rcases hways with ⟨-, htrigger⟩ | ⟨-, htrigger⟩ | ⟨-, -, htrigger⟩ <;> rw [htrigger]
        · exact announcements_closePairOf _ _
        · exact announcements_closePairOf _ _
        · rfl
    · rfl

/-- A move takes room in the channel of announcements, or leaves the channel as it is. -/
theorem roomier_step (h : t.step = some t') : Roomier t'.announcements t.announcements := by
  cases herrand : t.errand with
  | none =>
    rw [step_of_errand_none herrand] at h
    cases h
  | some e =>
    cases e with
    | announce place =>
      simp only [step, herrand] at h
      cases hnews : t.announcements with
      | none =>
        rw [hnews] at h
        cases h
        exact .absent
      | some c =>
        simp only [hnews] at h
        cases hsend : c.send place with
        | accepted c' =>
          rw [hsend] at h
          cases h
          obtain ⟨-, -, rfl⟩ := Channel.of_send_accepted hsend
          exact .present rfl rfl (by simp [Channel.pushed])
        | refused =>
          rw [hsend] at h
          cases h
          exact hnews ▸ .refl _
        | full =>
          rw [hsend] at h
          cases h
    | deliver place d ws =>
      obtain ⟨pair, -, ⟨-, rfl⟩ | ⟨w, rest, -, -, rfl⟩ | ⟨-, -, rfl⟩⟩ := step_deliver herrand h
      · exact .refl _
      · exact .refl _
      · exact .refl _

theorem roomier_moves (n : Nat) : Roomier (t.moves n).announcements t.announcements := by
  induction n generalizing t with
  | zero => exact .refl _
  | succ n ih =>
    cases hstep : t.step with
    | none =>
      rw [moves_of_step_none hstep]
      exact .refl _
    | some t' =>
      rw [moves_of_step_some hstep]
      exact ih.trans (roomier_step hstep)

/-! ## The pair of a connection -/

theorem pairOf?_congr (hplace : t'.streams.find? flow = t.streams.find? flow)
    (hpairs : ∀ n, t.streams.find? flow = some n → t'.pairs[n]? = t.pairs[n]?) :
    t'.pairOf? flow = t.pairOf? flow := by
  unfold pairOf?
  rw [hplace]
  cases hn : t.streams.find? flow with
  | none => rfl
  | some n => simp only [Option.bind_eq_bind, Option.bind_some, hpairs n hn]

theorem pairOf?_of_unregistered (h : t.streams.find? flow = none) : t.pairOf? flow = none := by
  simp [pairOf?, h]

theorem pairOf?_modifyPair {n : Nat} {pair : Pair} (h : t.pairOf? flow = some (n, pair))
    (f : Pair → Pair) : (t.modifyPair n f).pairOf? flow = some (n, f pair) := by
  obtain ⟨hplace, hpair⟩ := pairOf?_eq_some_iff.1 h
  exact pairOf?_eq_some_iff.2 ⟨hplace, by simp [modifyPair, hpair]⟩

theorem pairOf?_establish (t : Tracker) (c : Connection) (p : Packet) :
    (t.establish c p).pairOf? c.flow = some (t.pairs.length, t.opening c p) :=
  pairOf?_eq_some_iff.2 ⟨Registry.find?_insert_self _ _ _, pairs_establish t c p⟩

/-! ## Agreement -/

/-- Two trackers that look the same from the side of one connection, the second with at least
as much room for announcements. -/
structure Agree (flow : Flow) (t u : Tracker) : Prop where
  stream : u.stream = t.stream
  captureResponse : u.captureResponse = t.captureResponse
  connection : u.connections.find? flow = t.connections.find? flow
  pair : (u.pairOf? flow).map Prod.snd = (t.pairOf? flow).map Prod.snd
  news : Roomier t.announcements u.announcements

/-- Two trackers that have the same to do for a connection, or nothing. -/
inductive SameErrand (flow : Flow) (t u : Tracker) : Prop
  | idle : t.errand = none → u.errand = none → SameErrand flow t u
  | announce {n m : Nat} {pair : Pair} :
      t.errand = some (.announce n) → u.errand = some (.announce m) →
      t.pairOf? flow = some (n, pair) → u.pairOf? flow = some (m, pair) → SameErrand flow t u
  | deliver {n m : Nat} {pair : Pair} {d : Direction} {ws : List Write} :
      t.errand = some (.deliver n d ws) → u.errand = some (.deliver m d ws) →
      t.pairOf? flow = some (n, pair) → u.pairOf? flow = some (m, pair) → SameErrand flow t u

namespace Agree

theorem refl (flow : Flow) (t : Tracker) : Agree flow t t := ⟨rfl, rfl, rfl, rfl, .refl _⟩

/-- Counts and errands make no difference. -/
theorem aside (h : Agree flow t u) (counts counts' : Counts) (errand errand' : Option Errand) :
    Agree flow { t with counts, errand } { u with counts := counts', errand := errand' } :=
  ⟨h.stream, h.captureResponse, h.connection, h.pair, h.news⟩

theorem pairOf? (h : Agree flow t u) {n : Nat} {pair : Pair}
    (ht : t.pairOf? flow = some (n, pair)) : ∃ m, u.pairOf? flow = some (m, pair) := by
  have hpair := h.pair
  rw [ht, Option.map_some, Option.map_eq_some_iff] at hpair
  obtain ⟨⟨m, _⟩, hu, rfl⟩ := hpair
  exact ⟨m, hu⟩

theorem phaseOf_eq (h : Agree flow t u) : u.phaseOf flow = t.phaseOf flow := by
  rw [phaseOf, phaseOf, h.connection]

theorem modifyPair (h : Agree flow t u) {n m : Nat} {pair : Pair}
    (ht : t.pairOf? flow = some (n, pair)) (hu : u.pairOf? flow = some (m, pair))
    (f : Pair → Pair) : Agree flow (t.modifyPair n f) (u.modifyPair m f) where
  stream := h.stream
  captureResponse := h.captureResponse
  connection := h.connection
  pair := by rw [pairOf?_modifyPair ht, pairOf?_modifyPair hu, Option.map_some, Option.map_some]
  news := h.news

/-! ### Packets of other connections -/

theorem other (h : Agree flow t u) (hfiled : Filed t) (herrand : t.errand = none)
    (hother : p.connection ≠ flow) (hidle : (t.handle p).errand = none) :
    Agree flow (t.handle p) u := by
  have hsettings := Orderly.handle t p
  have hsame : SameFile flow t (t.handle p) :=
    (SameFile.accept hother fun _ hc => hfiled.named hc).trans (.settle _ flow)
  refine ⟨h.stream.trans hsettings.stream.symm,
    h.captureResponse.trans hsettings.captureResponse.symm,
    h.connection.trans hsame.connection.symm, ?_, ?_⟩
  · rw [h.pair, pairOf?_congr hsame.place]
    intro n hn
    exact (Elsewhere.handle hfiled herrand hn hother hidle).pair
  · have hmoves := roomier_moves (t := t.accept p) (t.accept p).weight
    rw [announcements_accept] at hmoves
    exact hmoves.trans h.news

/-! ### Packets of the connection: both trackers accept -/

section Accept

variable (h : Agree p.connection t u)

include h

theorem noticed : Agree p.connection (t.noticed p) (u.noticed p) where
  stream := h.stream
  captureResponse := h.captureResponse
  connection := by
    simp only [Tracker.noticed, Registry.find?_ensure_self, h.connection]
  pair := h.pair
  news := h.news

theorem transited (c : Connection) :
    Agree p.connection (t.transited p c) (u.transited p c) where
  stream := h.stream
  captureResponse := h.captureResponse
  connection := by
    simp only [Tracker.transited, Registry.find?_insert_self]
  pair := h.pair
  news := h.news

theorem route (ht : t.errand = none) (hu : u.errand = none) :
    Agree p.connection (t.route p) (u.route p) ∧
      SameErrand p.connection (t.route p) (u.route p) := by
  unfold Tracker.route
  cases hpair : t.pairOf? p.connection with
  | none =>
    have hnone : u.pairOf? p.connection = none := by
      have hsame := h.pair
      rwa [hpair, Option.map_none, Option.map_eq_none_iff] at hsame
    rw [hnone]
    exact ⟨h.aside .., .idle ht hu⟩
  | some found =>
    obtain ⟨n, pair⟩ := found
    obtain ⟨m, hpair'⟩ := h.pairOf? hpair
    rw [hpair']
    cases p.direction with
    | inbound =>
      exact ⟨h.aside .., .deliver rfl rfl hpair hpair'⟩
    | outbound =>
      by_cases hwanted : t.captureResponse = true
      · have hwanted' : u.captureResponse = true := h.captureResponse.trans hwanted
        simp only [if_pos hwanted, if_pos hwanted']
        exact ⟨h.aside .., .deliver rfl rfl hpair hpair'⟩
      · have hwanted' : ¬u.captureResponse = true := h.captureResponse ▸ hwanted
        simp only [if_neg hwanted, if_neg hwanted']
        exact ⟨h, .idle ht hu⟩

theorem establish {c : Connection} (hc : c.flow = p.connection) :
    Agree p.connection (t.establish c p) (u.establish c p) ∧
      SameErrand p.connection (t.establish c p) (u.establish c p) := by
  have ht := pairOf?_establish t c p
  have hu := pairOf?_establish u c p
  have hopening : u.opening c p = t.opening c p := by rw [opening, opening, h.stream]
  rw [hc] at ht hu
  rw [hopening] at hu
  obtain ⟨_, hbt⟩ := t.closePairOf_besides c.flow
  obtain ⟨_, hbu⟩ := u.closePairOf_besides c.flow
  have hnews : ∀ v : Tracker, (v.establish c p).announcements = v.announcements :=
    fun v => v.announcements_closePairOf c.flow
  have herrand : ∀ v : Tracker, (v.establish c p).errand =
      v.announcements.map fun _ => .announce v.pairs.length := by
    intro v
    rw [← v.announcements_closePairOf c.flow]
    rfl
  refine ⟨⟨?_, ?_, ?_, ?_, ?_⟩, ?_⟩
  · exact (hbu.stream.trans h.stream).trans hbt.stream.symm
  · exact (hbu.captureResponse.trans h.captureResponse).trans hbt.captureResponse.symm
  · have htc : (t.establish c p).connections = t.connections := hbt.connections
    have huc : (u.establish c p).connections = u.connections := hbu.connections
    rw [htc, huc, h.connection]
  · rw [ht, hu, Option.map_some, Option.map_some]
  · rw [hnews, hnews]
    exact h.news
  · have het := herrand t
    have heu := herrand u
    cases hnt : t.announcements with
    | none =>
      obtain hnu := h.news.eq_none hnt
      rw [hnt] at het
      rw [hnu] at heu
      exact .idle het heu
    | some c' =>
      obtain ⟨d, hnu, -⟩ := h.news.of_eq_some hnt
      rw [hnt] at het
      rw [hnu] at heu
      exact .announce het heu ht hu

theorem release : Agree p.connection (t.release p.connection) (u.release p.connection) := by
  obtain ⟨_, hbt⟩ := t.closePairOf_besides p.connection
  obtain ⟨_, hbu⟩ := u.closePairOf_besides p.connection
  have hnews : ∀ v : Tracker, (v.release p.connection).announcements = v.announcements :=
    fun v => v.announcements_closePairOf p.connection
  have hgone : ∀ v : Tracker, (v.release p.connection).pairOf? p.connection = none :=
    fun v => pairOf?_of_unregistered (Registry.find?_erase_self _ _)
  refine ⟨(hbu.stream.trans h.stream).trans hbt.stream.symm,
    (hbu.captureResponse.trans h.captureResponse).trans hbt.captureResponse.symm, ?_, ?_, ?_⟩
  · exact (Registry.find?_erase_self _ _).trans (Registry.find?_erase_self _ _).symm
  · rw [hgone, hgone]
  · rw [hnews, hnews]
    exact h.news

theorem trigger (hnamed : ∀ c, t.connections.find? p.connection = some c → c.flow = p.connection)
    (ht : t.errand = none) (hu : u.errand = none) (event : Event) :
    Agree p.connection (t.trigger event p) (u.trigger event p) ∧
      SameErrand p.connection (t.trigger event p) (u.trigger event p) := by
  cases hc : t.connections.find? p.connection with
  | none =>
    rw [trigger_of_unknown hc, trigger_of_unknown (h.connection.trans hc)]
    exact ⟨h.aside .., .idle ht hu⟩
  | some c =>
    have hc' := h.connection.trans hc
    cases hnext : c.phase.next event with
    | none =>
      rw [trigger_of_stuck hc hnext, trigger_of_stuck hc' hnext]
      exact ⟨h.aside .., .idle ht hu⟩
    | some phase =>
      have htransited := h.transited (c.after event p phase)
      rw [trigger_of_next hc hnext, trigger_of_next hc' hnext]
      cases phase with
      | established =>
        exact htransited.establish (show c.flow = p.connection from hnamed c hc)
      | closed =>
        exact ⟨htransited.release, .idle ((errand_closePairOf ..).trans ht)
          ((errand_closePairOf ..).trans hu)⟩
      | _ => exact ⟨htransited, .idle ht hu⟩

theorem accept (hnamed : ∀ c, t.connections.find? p.connection = some c → c.flow = p.connection)
    (ht : t.errand = none) (hu : u.errand = none) :
    Agree p.connection (t.accept p) (u.accept p) ∧
      SameErrand p.connection (t.accept p) (u.accept p) := by
  have hnoticed := h.noticed
  rw [accept_eq, accept_eq, hnoticed.phaseOf_eq]
  split
  · split
    · exact hnoticed.route ht hu
    · exact ⟨hnoticed.aside .., .idle ht hu⟩
  · split
    · exact hnoticed.trigger (named_noticed hnamed) ht hu _
    · exact ⟨hnoticed.aside .., .idle ht hu⟩

end Accept

/-! ### Packets of the connection: both trackers move -/

section Step

variable (h : Agree flow t u)

include h

/-- Each move of the first tracker is matched by one of the second. -/
theorem step (herrand : SameErrand flow t u) (hstep : t.step = some t') :
    ∃ u', u.step = some u' ∧ Agree flow t' u' ∧ SameErrand flow t' u' := by
  cases herrand with
  | idle ht hu =>
    rw [step_of_errand_none ht] at hstep
    cases hstep
  | @announce n m pair ht hu hn hm =>
    simp only [Tracker.step, ht] at hstep
    simp only [Tracker.step, hu]
    cases hnews : t.announcements with
    | none =>
      rw [hnews] at hstep
      cases hstep
      rw [h.news.eq_none hnews]
      exact ⟨_, rfl, ⟨h.stream, h.captureResponse, h.connection, h.pair, .absent⟩, .idle rfl rfl⟩
    | some c =>
      obtain ⟨d, hnews', hcapacity, hclosed, hlength⟩ := h.news.of_eq_some hnews
      simp only [hnews] at hstep
      simp only [hnews']
      cases hsend : c.send n with
      | accepted c' =>
        rw [hsend] at hstep
        cases hstep
        obtain ⟨hopen, hroom, rfl⟩ := Channel.of_send_accepted hsend
        rw [Channel.send_of_room (hclosed.trans hopen) (by omega)]
        refine ⟨_, rfl, ⟨h.stream, h.captureResponse, h.connection, h.pair, ?_⟩, .idle rfl rfl⟩
        exact .present hcapacity hclosed (by simpa [Channel.pushed] using hlength)
      | refused =>
        rw [hsend] at hstep
        cases hstep
        have hrefused : d.send m = .refused :=
          (d.send_eq_refused_iff m).2 (hclosed.trans ((c.send_eq_refused_iff n).1 hsend))
        rw [hrefused]
        have hmodified := h.modifyPair hn hm Pair.close
        exact ⟨_, rfl, hmodified.aside .., .idle rfl rfl⟩
      | full =>
        rw [hsend] at hstep
        cases hstep
  | @deliver n m pair d ws ht hu hn hm =>
    obtain ⟨hplace, hpair⟩ := pairOf?_eq_some_iff.1 hn
    obtain ⟨hplace', hpair'⟩ := pairOf?_eq_some_iff.1 hm
    simp only [Tracker.step, hu, hpair', Option.bind_eq_bind, Option.bind_some]
    obtain ⟨found, hfound, hways⟩ := step_deliver ht hstep
    rw [hpair] at hfound
    cases hfound
    rcases hways with ⟨hoffer, rfl⟩ | ⟨w, rest, rfl, hsending, rfl⟩ | ⟨rfl, hsending, rfl⟩
    · obtain ⟨⟨chunk, hsending⟩, -⟩ := (pair.buffer d).canOffer_iff.1 hoffer
      rw [hsending, Option.isSome_some, if_pos rfl, if_pos hoffer]
      exact ⟨_, rfl, h.modifyPair hn hm _,
        .deliver ht hu (pairOf?_modifyPair hn _) (pairOf?_modifyPair hm _)⟩
    · have hmodified := h.modifyPair hn hm fun p => p.withBuffer ((pair.buffer d).begin w) d
      rw [hsending, Option.isSome_none, if_neg Bool.false_ne_true]
      exact ⟨_, rfl, hmodified.aside ..,
        .deliver rfl rfl (pairOf?_modifyPair hn _) (pairOf?_modifyPair hm _)⟩
    · rw [hsending, Option.isSome_none, if_neg Bool.false_ne_true]
      exact ⟨_, rfl, h.aside .., .idle rfl rfl⟩

theorem moves (herrand : SameErrand flow t u) (n : Nat) (hidle : (t.moves n).errand = none) :
    u.settle.errand = none ∧ Agree flow (t.moves n) u.settle := by
  -- A tracker that has nothing to do is not at an errand that waits.
  have hdone : ∀ {t u}, Agree flow t u → SameErrand flow t u → t.errand = none →
      u.settle.errand = none ∧ Agree flow t u.settle := by
    intro t u h herrand hnone
    have hu : u.errand = none := by
      cases herrand with
      | idle _ hu => exact hu
      | announce ht => exact absurd (ht.symm.trans hnone) (Option.some_ne_none _)
      | deliver ht => exact absurd (ht.symm.trans hnone) (Option.some_ne_none _)
    rw [settle_of_errand_none hu]
    exact ⟨hu, h⟩
  induction n generalizing t u with
  | zero => exact hdone h herrand hidle
  | succ n ih =>
    cases hstep : t.step with
    | none =>
      rw [moves_of_step_none hstep] at hidle ⊢
      exact hdone h herrand hidle
    | some t' =>
      obtain ⟨u', hstep', h', herrand'⟩ := h.step herrand hstep
      rw [moves_of_step_some hstep] at hidle ⊢
      rw [settle_of_step_some hstep']
      exact ih h' herrand' hidle

end Step

theorem own (h : Agree p.connection t u) (hfiled : Filed t) (ht : t.errand = none)
    (hu : u.errand = none) (hidle : (t.handle p).errand = none) :
    (u.handle p).errand = none ∧ Agree p.connection (t.handle p) (u.handle p) := by
  obtain ⟨haccept, herrand⟩ := h.accept (fun _ hc => hfiled.named hc) ht hu
  exact haccept.moves herrand _ hidle

/-- The first tracker handles a list of packets, and the second those of the connection. -/
theorem foldl (h : Agree flow t u) (hfiled : Filed t) (hu : u.errand = none) (ps : List Packet)
    (hnowait : ∀ k, ((ps.take k).foldl handle t).errand = none) :
    (∀ k, (((packetsOf flow ps).take k).foldl handle u).errand = none) ∧
      Agree flow (ps.foldl handle t) ((packetsOf flow ps).foldl handle u) := by
  induction ps generalizing t u with
  | nil =>
    refine ⟨fun k => ?_, h⟩
    rw [packetsOf, List.filter_nil, List.take_nil]
    exact hu
  | cons p ps ih =>
    have hfirst : (t.handle p).errand = none := hnowait 1
    have hfiled' := (Orderly.handle t p).filed hfiled
    have hrest : ∀ k, ((ps.take k).foldl handle (t.handle p)).errand = none :=
      fun k => hnowait (k + 1)
    by_cases hflow : p.connection = flow
    · subst hflow
      have hcons : packetsOf p.connection (p :: ps) = p :: packetsOf p.connection ps :=
        List.filter_cons_of_pos (by simp)
      obtain ⟨hidle, hagree⟩ := h.own hfiled (hnowait 0) hu hfirst
      obtain ⟨hquiet, hlast⟩ := ih hagree hfiled' hidle hrest
      rw [hcons]
      refine ⟨fun k => ?_, hlast⟩
      cases k with
      | zero => exact hu
      | succ k => exact hquiet k
    · have hcons : packetsOf flow (p :: ps) = packetsOf flow ps :=
        List.filter_cons_of_neg (by simpa using hflow)
      rw [hcons]
      exact ih (h.other hfiled (hnowait 0) hflow hfirst) hfiled' hu hrest

end Agree

/-! ## The phase of a connection -/

theorem phaseOf_of_some {c : Connection} (h : t.connections.find? flow = some c) :
    t.phaseOf flow = c.phase := by
  rw [phaseOf, h]

theorem phaseOf_trigger {c : Connection} (hc : t.connections.find? p.connection = some c)
    (event : Event) :
    (t.trigger event p).phaseOf p.connection =
      (Phase.follow (some c.phase) event).getD .listen := by
  unfold Phase.follow
  rw [Option.getD_some]
  cases hnext : c.phase.next event with
  | none =>
    rw [trigger_of_stuck hc hnext]
    exact phaseOf_of_some hc
  | some phase =>
    have hfiled : (t.transited p (c.after event p phase)).phaseOf p.connection = phase :=
      phaseOf_of_some (c := c.after event p phase) (Registry.find?_insert_self _ _ _)
    rw [trigger_of_next hc hnext]
    cases phase with
    | established =>
      obtain ⟨_, hbesides⟩ := closePairOf_besides
        (t.transited p (c.after event p .established)) (c.after event p .established).flow
      simp only [phaseOf, Tracker.establish, hbesides.connections]
      exact hfiled
    | closed => simp [phaseOf, Tracker.release]
    | _ => exact hfiled

theorem phaseOf_handle_own (t : Tracker) (p : Packet) :
    (t.handle p).phaseOf p.connection =
      ((controlEvents [p]).foldl Phase.follow (some (t.phaseOf p.connection))).getD .listen := by
  obtain ⟨c, hc⟩ : ∃ c, (t.noticed p).connections.find? p.connection = some c :=
    ⟨_, Registry.find?_ensure_self ..⟩
  have hphase : c.phase = t.phaseOf p.connection :=
    (phaseOf_of_some hc).symm.trans (phaseOf_noticed t p)
  rw [phaseOf_handle, accept_eq, ← hphase]
  cases hpayload : p.hasPayload with
  | true =>
    have hevents : controlEvents [p] = [] := by simp [controlEvents, hpayload]
    rw [if_pos rfl, hevents]
    split
    · rw [phaseOf, (SameFile.route (t.noticed p) p p.connection).connection]
      exact phaseOf_of_some hc
    · exact phaseOf_of_some hc
  | false =>
    rw [if_neg Bool.false_ne_true]
    cases hevent : Event.ofPacket p with
    | none =>
      have hevents : controlEvents [p] = [] := by simp [controlEvents, hpayload, hevent]
      rw [hevents]
      exact phaseOf_of_some hc
    | some event =>
      have hevents : controlEvents [p] = [event] := by simp [controlEvents, hpayload, hevent]
      rw [hevents]
      exact phaseOf_trigger hc event

/-- Packets lead a connection on by the events of those that are its own. -/
theorem phaseOf_foldl (hfiled : Filed t) (flow : Flow) (ps : List Packet) :
    (ps.foldl handle t).phaseOf flow =
      ((controlEvents (packetsOf flow ps)).foldl Phase.follow
        (some (t.phaseOf flow))).getD .listen := by
  induction ps generalizing t with
  | nil => rfl
  | cons p ps ih =>
    rw [List.foldl_cons, ih ((Orderly.handle t p).filed hfiled)]
    by_cases hflow : p.connection = flow
    · subst hflow
      have hcons : controlEvents (packetsOf p.connection (p :: ps)) =
          controlEvents [p] ++ controlEvents (packetsOf p.connection ps) := by
        rw [packetsOf, List.filter_cons_of_pos (by simp)]
        exact List.filterMap_append (l := [p])
      rw [hcons, List.foldl_append, phaseOf_handle_own, ← Phase.getD_foldl_follow]
    · have hcons : packetsOf flow (p :: ps) = packetsOf flow ps :=
        List.filter_cons_of_neg (by simpa using hflow)
      have hsame := SameFile.accept hflow fun _ hc => hfiled.named (t := t) hc
      have hphase : (t.handle p).phaseOf flow = t.phaseOf flow := by
        rw [phaseOf_handle, phaseOf, hsame.connection, phaseOf]
      rw [hcons, hphase]

/-! ## The whole run -/

/-- When no packet has to wait, what a tracker has on file for a connection and the pair of the
connection are the same as if it had handled the packets of this connection only, none of
which has to wait either.  The phase can be told from the events alone. -/
theorem handled_as_if_alone (s : Settings) (announcements : Option (Channel Nat)) (flow : Flow)
    (ps : List Packet)
    (hnowait : ∀ k, ((ps.take k).foldl handle (ofSettings s announcements)).isIdle = true) :
    let all := ps.foldl handle (ofSettings s announcements)
    let alone := (packetsOf flow ps).foldl handle (ofSettings s announcements)
    (∀ k, (((packetsOf flow ps).take k).foldl handle
        (ofSettings s announcements)).isIdle = true) ∧
      all.connections.find? flow = alone.connections.find? flow ∧
      (all.pairOf? flow).map Prod.snd = (alone.pairOf? flow).map Prod.snd ∧
      all.phaseOf flow =
        ((controlEvents (packetsOf flow ps)).foldl Phase.follow none).getD .listen := by
  intro all alone
  have hfiled := Filed.ofSettings s announcements
  obtain ⟨hquiet, hagree⟩ := (Agree.refl flow (ofSettings s announcements)).foldl hfiled rfl ps
    fun k => Option.isNone_iff_eq_none.1 (hnowait k)
  refine ⟨fun k => Option.isNone_iff_eq_none.2 (hquiet k), hagree.connection.symm,
    hagree.pair.symm, ?_⟩
  rw [Phase.getD_foldl_follow]
  exact phaseOf_foldl hfiled flow ps

/-- Two clients open a connection each, and both speak before one of them leaves. -/
def twoCalls : List Packet :=
  [spoken 4001 .inbound 77 (.ofByte 2) [], spoken 4000 .inbound 4294967289 (.ofByte 2) [],
    spoken 4001 .outbound 7 (.ofByte 18) [], spoken 4000 .outbound 4294967293 (.ofByte 18) [],
    spoken 4001 .inbound 78 .ackAlone [], greeted,
    spoken 4001 .inbound 78 .ackAlone [9],
    spoken 4000 .inbound 4294967290 .ackAlone (preface ++ [65]),
    spoken 4001 .inbound 79 (.ofByte 17) [],
    spoken 4000 .outbound 4294967294 .ackAlone [1, 2]]

/-- The pair of the second call is found at another place when there is no other call. -/
theorem handled_as_if_alone_twoCalls :
    let start := ofSettings {} (some (.ofCapacity 2))
    let alone := (packetsOf greeted.connection twoCalls).foldl handle start
    ((twoCalls.foldl handle start).pairOf? greeted.connection).map Prod.snd =
        (alone.pairOf? greeted.connection).map Prod.snd ∧
      (twoCalls.foldl handle start).phaseOf greeted.connection = .established ∧
      (twoCalls.foldl handle start).streams.find? greeted.connection = some 1 ∧
      alone.streams.find? greeted.connection = some 0 := by
  intro start alone
  have hall : ∀ k < 11, ((twoCalls.take k).foldl handle start).isIdle = true := by decide
  obtain ⟨-, -, hpair, hphase⟩ := handled_as_if_alone {} (some (.ofCapacity 2))
    greeted.connection twoCalls fun k => by
      rcases Nat.lt_or_ge k 11 with hlt | hge
      · exact hall k hlt
      · rw [List.take_of_length_le (Nat.le_of_succ_le hge),
          ← List.take_of_length_le (l := twoCalls) (Nat.le_refl 10)]
        exact hall 10 (by omega)
  exact ⟨hpair, hphase.trans (by decide), by decide +kernel, by decide +kernel⟩

end Tracker

end StreamTap
