import StreamTap.Proofs.Tracker.Closing
import StreamTap.Proofs.Tracker.Handshake
import StreamTap.Proofs.Tracker.Provenance

/-!
# Every establishment is announced once

A pair is announced in the middle of handling the packet that opened it, and this may have to wait
for room in the channel.  Meanwhile consumers take announcements, close pairs, or go away.  A
`Journal` notes what can be seen of all this: the transitions into `established`, what was put
into the channel, what the channel gave back, and what was taken out of it.

In every state the journal accounts for all pairs (`Accounted`).  One pair was opened for each
transition, and every pair was sent or given back exactly once, in the order of the transitions;
only the one at hand is still to come, and it is the registered pair of its connection, which is
established.  Nothing is given back before the channel is closed, and nothing is sent afterwards.
A pair that was given back is closed.

Whether a packet leads its connection into `established` is read off the phase before
(`leadsTo`), without regard to pairs.
-/

namespace StreamTap

namespace Tracker

variable {t t' : Tracker} {p : Packet} {place : Nat}

/-! ## Packets that establish -/

/-- The phase into which a packet leads its connection, if it leads on at all. -/
def leadsTo (t : Tracker) (p : Packet) : Option Phase :=
  if p.hasPayload then none else (Event.ofPacket p).bind (t.phaseOf p.connection).next

/-- The pair at a place is the registered one of its connection, and this is established. -/
def Serves (t : Tracker) (place : Nat) : Prop :=
  PairAt place (fun pair => t.streams.find? pair.flow = some place ∧
    t.phaseOf pair.flow = .established) t

/-- The new pair is registered at the end of the pairs, and there it is to be announced. -/
theorem establish_opens (t : Tracker) (c : Connection) (p : Packet) :
    (t.establish c p).errand = t.announcements.map (fun _ => .announce t.pairs.length) ∧
      (t.establish c p).streams.find? c.flow = some t.pairs.length := by
  have herrand : (t.establish c p).errand =
      (t.closePairOf c.flow).announcements.map fun _ => .announce t.pairs.length := rfl
  rw [announcements_closePairOf] at herrand
  exact ⟨herrand, Registry.find?_insert_self _ _ _⟩

theorem accept_of_established (hregistered : Registered t)
    (h : t.leadsTo p = some .established) :
    (t.accept p).labels = t.labels ++ [p.connection] ∧
      (t.accept p).errand = t.announcements.map (fun _ => .announce t.pairs.length) ∧
      Serves (t.accept p) t.pairs.length := by
  unfold leadsTo at h
  split at h
  · cases h
  next hpayload =>
  obtain ⟨event, hevent, hnext⟩ := Option.bind_eq_some_iff.1 h
  obtain ⟨c₀, hc₀⟩ : ∃ c, (t.noticed p).connections.find? p.connection = some c :=
    ⟨_, t.find?_noticed p⟩
  have hphase : c₀.phase = t.phaseOf p.connection :=
    (phaseOf_of_some hc₀).symm.trans (phaseOf_noticed t p)
  have haccept : t.accept p = ((t.noticed p).transited p (c₀.after event p .established)).establish
      (c₀.after event p .established) p := by
    rw [accept_eq, if_neg hpayload, hevent]
    exact trigger_of_next hc₀ (hphase ▸ hnext)
  have hflow : (c₀.after event p .established).flow = p.connection :=
    show c₀.flow = p.connection from ((hregistered.noticed p) p.connection).named hc₀
  have hcphase : (c₀.after event p .established).phase = .established := rfl
  -- From here on it does not matter where the connection comes from.
  generalize c₀.after event p .established = c at haccept hflow hcphase
  obtain ⟨herrand, hplace⟩ := establish_opens ((t.noticed p).transited p c) c p
  have hlabels := labels_establish ((t.noticed p).transited p c) c p
  have hpair := pairs_establish ((t.noticed p).transited p c) c p
  rw [← haccept] at herrand hplace hlabels hpair
  have hconnection : (t.accept p).connections.find? p.connection = some c := by
    rw [haccept, connections_establish]
    exact Registry.find?_insert_self _ _ _
  refine ⟨hflow ▸ hlabels, herrand, _, hpair, hplace, ?_⟩
  show (t.accept p).phaseOf c.flow = .established
  rw [hflow, phaseOf_of_some hconnection, hcphase]

theorem accept_of_not_established (hidle : t.errand = none)
    (h : t.leadsTo p ≠ some .established) :
    (t.accept p).labels = t.labels ∧ ∀ place, (t.accept p).errand ≠ some (.announce place) := by
  have hquiet : ∀ place, t.errand ≠ some (.announce place) := by simp [hidle]
  rw [accept_eq]
  split
  · split
    · obtain ⟨hpairs, -⟩ := (t.noticed p).pairs_route p
      refine ⟨congrArg (List.map Pair.flow) hpairs, ?_⟩
      unfold route
      split
      · exact hquiet
      · split
        · intro place he
          cases he
        · split
          · intro place he
            cases he
          · exact hquiet
    · exact ⟨rfl, hquiet⟩
  · next hpayload =>
    split
    · next event hevent =>
      rcases (t.noticed p).trigger_cases event p with ⟨-, htrigger⟩ | ⟨c, phase, hc, hnext, hways⟩
      · rw [htrigger]
        exact ⟨rfl, hquiet⟩
      · have hphase : c.phase = t.phaseOf p.connection :=
          (phaseOf_of_some hc).symm.trans (phaseOf_noticed t p)
        rcases hways with ⟨rfl, -⟩ | ⟨-, htrigger⟩ | ⟨-, -, htrigger⟩
        · refine absurd ?_ h
          rw [leadsTo, if_neg hpayload, hevent, Option.bind_some, ← hphase, hnext]
        · rw [htrigger]
          refine ⟨labels_closePairOf _ p.connection, fun place => ?_⟩
          have herrand := errand_closePairOf ((t.noticed p).transited p (c.after event p phase))
            p.connection
          rw [release]
          simp only [herrand]
          exact hquiet place
        · rw [htrigger]
          exact ⟨rfl, hquiet⟩
    · exact ⟨rfl, hquiet⟩

/-! ## The journal -/

/-- The pair that is to be announced and what the channel says to it. -/
def announcing (t : Tracker) : Option (Nat × Channel.Sent Nat) :=
  match t.errand, t.announcements with
  | some (.announce place), some channel => some (place, channel.send place)
  | _, _ => none

/-- What can be seen of how pairs are announced, each list in the order in which it happened. -/
structure Journal where
  /-- The connections that a packet led into `established`. -/
  established : List Flow := []
  /-- The places of the pairs that were put into the channel. -/
  sent : List Nat := []
  /-- The places of the pairs that the channel gave back. -/
  refused : List Nat := []
  /-- The places of the pairs that a consumer took out of the channel. -/
  received : List Nat := []
  deriving DecidableEq, Repr

/-- What a deed adds to the journal. -/
def Journal.note (j : Journal) (t : Tracker) : Deed → Journal
  | .accept p =>
    if t.isIdle ∧ t.leadsTo p = some .established then
      { j with established := j.established ++ [p.connection] }
    else j
  | .step =>
    match t.announcing with
    | some (place, .accepted _) => { j with sent := j.sent ++ [place] }
    | some (place, .refused) => { j with refused := j.refused ++ [place] }
    | some (_, .full) => j
    | none => j
  | .takeNews =>
    match t.takeNews with
    | .pair place _ => { j with received := j.received ++ [place] }
    | .nothing => j
    | .ended => j
    | .unannounced => j
  | .take _ _ => j
  | .close _ => j
  | .endNews => j

def Journal.kept (j : Journal) (t : Tracker) : List Deed → Journal
  | [] => j
  | deed :: deeds => (j.note t deed).kept (t.perform deed) deeds

/-- The place of the pair that is still to be announced. -/
def atHand (t : Tracker) : List Nat :=
  match t.errand with
  | some (.announce place) => [place]
  | _ => []

theorem atHand_eq_nil (h : ∀ place, t.errand ≠ some (.announce place)) : t.atHand = [] := by
  unfold atHand
  split
  · next place herrand => exact absurd herrand (h place)
  · rfl

/-! ## The journal accounts for all pairs -/

/-- A channel has carried what the journal says. -/
structure Journal.CarriedBy (j : Journal) (c : Channel Nat) : Prop where
  /-- What was sent was received in the same order, or is still inside. -/
  inside : j.sent = j.received ++ c.items
  /-- Only a closed channel gives anything back. -/
  refused : j.refused ≠ [] → c.isClosed = true

/-- The journal accounts for every pair of a tracker. -/
structure Accounted (j : Journal) (t : Tracker) : Prop where
  registered : Registered t
  /-- One pair was opened for each transition, for the same connection. -/
  opened : t.labels = j.established
  /-- Every pair was sent or given back once, in order, but for the one at hand. -/
  once : j.sent ++ j.refused ++ t.atHand = List.range t.pairs.length
  carried : ∃ c, t.announcements = some c ∧ j.CarriedBy c
  /-- A pair that was given back is closed. -/
  closed : ∀ place ∈ j.refused, PairAt place Pair.IsClosed t
  /-- The pair at hand is the registered one of its connection, which is established. -/
  serves : ∀ place, t.errand = some (.announce place) → Serves t place

theorem PairAt.isClosed_ages (h : PairAt place Pair.IsClosed t) (hages : Ages t t') :
    PairAt place Pair.IsClosed t' := by
  obtain ⟨pair, hpair, hclosed⟩ := h
  obtain ⟨pair', hpair', hage⟩ := hages place pair hpair
  exact ⟨pair', hpair', hage.isClosed hclosed⟩

theorem Serves.ages (h : Serves t place) (hages : Ages t t')
    (hconnections : t'.connections = t.connections) (hstreams : t'.streams = t.streams) :
    Serves t' place := by
  obtain ⟨pair, hpair, hplace, hphase⟩ := h
  obtain ⟨pair', hpair', hage⟩ := hages place pair hpair
  refine ⟨pair', hpair', ?_, ?_⟩
  · rw [hstreams, hage.flow]
    exact hplace
  · rw [phaseOf, hconnections, hage.flow]
    exact hphase

theorem labels_perform {deed : Deed} (hdeed : ∀ p, deed ≠ .accept p) :
    (t.perform deed).labels = t.labels := by
  refine t.perform_elim (P := fun t' => t'.labels = t.labels) deed rfl ?_ ?_ ?_ ?_ ?_
  · exact fun p hp => absurd hp (hdeed p)
  · exact fun _ _ hstep => labels_step hstep
  · exact fun place d _ _ _ _ _ _ => t.labels_putBuffer place d _
  · exact fun place _ => t.labels_close place
  · exact fun _ _ => rfl

theorem step_announcing {c : Channel Nat} (herrand : t.errand = some (.announce place))
    (hnews : t.announcements = some c) : t.announcing = some (place, c.send place) ∧
      t.step = match c.send place with
        | .accepted c => some { t with announcements := some c, errand := none }
        | .refused => some { t.modifyPair place Pair.close with errand := none }
        | .full => none := by
  refine ⟨by simp only [announcing, herrand, hnews], ?_⟩
  cases hsend : c.send place <;> simp only [Tracker.step, herrand, hnews, hsend]

theorem announcing_eq_none (h : ∀ place, t.errand ≠ some (.announce place)) :
    t.announcing = none := by
  unfold announcing
  split
  · next place _ herrand _ => exact absurd herrand (h place)
  · rfl

namespace Accounted

variable {j j' : Journal} {deed : Deed}

theorem ofSettings (s : Settings) (n : Nat) :
    Accounted {} (.ofSettings s (some (.ofCapacity n))) where
  registered := .ofSettings s _
  opened := rfl
  once := rfl
  carried := ⟨_, rfl, rfl, fun h => absurd rfl h⟩
  closed := fun place hmem => absurd hmem List.not_mem_nil
  serves := fun place herrand => by cases herrand

/-- While no packet is accepted, the pairs stay what they are for the journal, and only what is
sent, given back and received has to be followed. -/
theorem meanwhile (h : Accounted j t) (hdeed : ∀ p, deed ≠ .accept p)
    (hestablished : j'.established = j.established)
    (honce : j'.sent ++ j'.refused ++ (t.perform deed).atHand = j.sent ++ j.refused ++ t.atHand)
    (hcarried : ∃ c, (t.perform deed).announcements = some c ∧ j'.CarriedBy c)
    (hrefused : ∀ place ∈ j'.refused,
      place ∈ j.refused ∨ PairAt place Pair.IsClosed (t.perform deed))
    (herrand : ∀ place, (t.perform deed).errand = some (.announce place) →
      t.errand = some (.announce place)) : Accounted j' (t.perform deed) := by
  obtain ⟨hconnections, hstreams, hlength⟩ := t.registers_perform hdeed
  have hages := Ages.perform t deed
  refine ⟨h.registered.perform deed, ?_, ?_, hcarried, ?_, ?_⟩
  · rw [labels_perform hdeed, h.opened, hestablished]
  · rw [honce, h.once, hlength]
  · intro place hmem
    exact (hrefused place hmem).elim (fun hold => (h.closed place hold).isClosed_ages hages) id
  · intro place he
    exact (h.serves place (herrand place he)).ages hages hconnections hstreams

theorem silent (h : Accounted j t) (hdeed : ∀ p, deed ≠ .accept p)
    (hnews : (t.perform deed).announcements = t.announcements)
    (hhand : (t.perform deed).atHand = t.atHand)
    (herrand : ∀ place, (t.perform deed).errand = some (.announce place) →
      t.errand = some (.announce place)) : Accounted j (t.perform deed) :=
  h.meanwhile hdeed rfl (by rw [hhand]) (hnews ▸ h.carried) (fun _ hmem => Or.inl hmem) herrand

theorem accept (h : Accounted j t) (p : Packet) :
    Accounted (j.note t (.accept p)) (t.perform (.accept p)) := by
  cases hidle : t.isIdle with
  | false => simpa [Journal.note, Tracker.perform, hidle] using h
  | true =>
    have hquiet : t.errand = none := Option.isNone_iff_eq_none.1 hidle
    have hhand : t.atHand = [] := atHand_eq_nil fun place => by simp [hquiet]
    have hages := Ages.accept t p
    have honce := h.once
    rw [hhand, List.append_nil] at honce
    have hclosed : ∀ place ∈ j.refused, PairAt place Pair.IsClosed (t.accept p) :=
      fun place hmem => (h.closed place hmem).isClosed_ages hages
    simp only [Journal.note, Tracker.perform, hidle, true_and, if_true]
    by_cases hleads : t.leadsTo p = some .established
    · obtain ⟨hlabels, herrand, hserves⟩ := accept_of_established h.registered hleads
      obtain ⟨c, hnews, hcarried⟩ := h.carried
      rw [hnews, Option.map_some] at herrand
      have hlength : (t.accept p).pairs.length = t.pairs.length + 1 := by
        have hcount := congrArg List.length hlabels
        simpa [labels] using hcount
      rw [if_pos hleads]
      refine ⟨h.registered.accept p, ?_, ?_, ?_, hclosed, ?_⟩
      · rw [hlabels, h.opened]
      · have hnext : (t.accept p).atHand = [t.pairs.length] := by rw [atHand, herrand]
        show j.sent ++ j.refused ++ (t.accept p).atHand = _
        rw [hnext, honce, hlength, List.range_succ]
      · exact ⟨c, (announcements_accept t p).trans hnews, hcarried.inside, hcarried.refused⟩
      · intro place he
        rw [herrand] at he
        cases he
        exact hserves
    · obtain ⟨hlabels, herrand⟩ := accept_of_not_established hquiet hleads
      have hlength : (t.accept p).pairs.length = t.pairs.length := by
        have hcount := congrArg List.length hlabels
        simpa [labels] using hcount
      rw [if_neg hleads]
      refine ⟨h.registered.accept p, hlabels.trans h.opened, ?_, ?_, hclosed, ?_⟩
      · rw [atHand_eq_nil herrand, List.append_nil, honce, hlength]
      · exact (announcements_accept t p).symm ▸ h.carried
      · exact fun place he => absurd he (herrand place)

/-- A pair at hand is sent, or given back and closed, or it waits. -/
theorem step_of_announce (h : Accounted j t) (herrand : t.errand = some (.announce place)) :
    Accounted (j.note t .step) (t.perform .step) := by
  have hdeed : ∀ p, Deed.step ≠ .accept p := fun p hp => by cases hp
  obtain ⟨c, hnews, hcarried⟩ := h.carried
  have hhand : t.atHand = [place] := by rw [atHand, herrand]
  obtain ⟨hmeets, hstep⟩ := step_announcing herrand hnews
  cases hsend : c.send place with
  | accepted c' =>
    obtain ⟨hopen, -, rfl⟩ := Channel.of_send_accepted hsend
    -- Nothing was given back so far, so the pair comes next in the order of all pairs.
    have hnone : j.refused = [] := by
      by_contra hsome
      rw [hcarried.refused hsome] at hopen
      cases hopen
    have hperform : t.perform .step =
        { t with announcements := some (c.pushed place), errand := none } := by
      rw [Tracker.perform, hstep, hsend]
      rfl
    rw [Journal.note, hmeets, hsend]
    refine h.meanwhile hdeed rfl ?_ ?_ (fun _ hmem => Or.inl hmem) ?_
    · rw [hperform, hhand]
      simp [atHand, hnone]
    · rw [hperform]
      refine ⟨_, rfl, ?_, fun hsome => absurd hnone hsome⟩
      simp [Channel.pushed, hcarried.inside]
    · rw [hperform]
      exact fun place he => by cases he
  | refused =>
    have hperform : t.perform .step = { t.modifyPair place Pair.close with errand := none } := by
      rw [Tracker.perform, hstep, hsend]
      rfl
    obtain ⟨pair, hpair, -⟩ := h.serves place herrand
    rw [Journal.note, hmeets, hsend]
    refine h.meanwhile hdeed rfl ?_ ?_ ?_ ?_
    · rw [hperform, hhand]
      simp [atHand]
    · rw [hperform]
      exact ⟨c, hnews, hcarried.inside, fun _ => (c.send_eq_refused_iff place).1 hsend⟩
    · intro n hmem
      refine (List.mem_append.1 hmem).imp_right fun hn => ?_
      rw [List.mem_singleton.1 hn, hperform]
      exact ⟨pair.close, by simp [modifyPair, hpair], pair.isClosed_close⟩
    · rw [hperform]
      exact fun place he => by cases he
  | full =>
    rw [Journal.note, hmeets, Tracker.perform, hstep, hsend]
    exact h

theorem step_of_deliver (h : Accounted j t) {d : Direction} {ws : List Write}
    (herrand : t.errand = some (.deliver place d ws)) :
    Accounted (j.note t .step) (t.perform .step) := by
  have hquiet : ∀ place, t.errand ≠ some (.announce place) := by simp [herrand]
  rw [Journal.note, announcing_eq_none hquiet]
  cases hstep : t.step with
  | none =>
    rw [Tracker.perform, hstep]
    exact h
  | some t' =>
    have hperform : t.perform .step = t' := by rw [Tracker.perform, hstep]; rfl
    have hkept : t'.announcements = t.announcements ∧
        ∀ place, t'.errand ≠ some (.announce place) := by
      obtain ⟨pair, -, ⟨-, rfl⟩ | ⟨w, rest, -, -, rfl⟩ | ⟨-, -, rfl⟩⟩ := step_deliver herrand hstep
      · exact ⟨rfl, hquiet⟩
      · exact ⟨rfl, fun place he => by cases he⟩
      · exact ⟨rfl, fun place he => by cases he⟩
    refine h.silent (fun p hp => by cases hp) (hperform ▸ hkept.1) ?_ ?_
    · rw [hperform, atHand_eq_nil hkept.2, atHand_eq_nil hquiet]
    · rw [hperform]
      exact fun place he => absurd he (hkept.2 place)

theorem step (h : Accounted j t) : Accounted (j.note t .step) (t.perform .step) := by
  cases herrand : t.errand with
  | none =>
    have hquiet : ∀ place, t.errand ≠ some (.announce place) := by simp [herrand]
    rw [Journal.note, announcing_eq_none hquiet, Tracker.perform, step_of_errand_none herrand]
    exact h
  | some e =>
    cases e with
    | announce place => exact h.step_of_announce herrand
    | deliver place d ws => exact h.step_of_deliver herrand

theorem takeNews (h : Accounted j t) : Accounted (j.note t .takeNews) (t.perform .takeNews) := by
  have hdeed : ∀ p, Deed.takeNews ≠ .accept p := fun p hp => by cases hp
  obtain ⟨c, hnews, hcarried⟩ := h.carried
  cases hitems : c.items with
  | nil =>
    simp only [Journal.note, Tracker.perform, Tracker.takeNews, hnews, Channel.receive, hitems]
    cases c.isClosed <;> exact h
  | cons place rest =>
    have htaken : t.takeNews =
        .pair place { t with announcements := some { c with items := rest } } := by
      simp only [Tracker.takeNews, hnews, Channel.receive, hitems]
    have hperform :
        t.perform .takeNews = { t with announcements := some { c with items := rest } } := by
      rw [Tracker.perform, htaken]
    rw [Journal.note, htaken]
    refine h.meanwhile hdeed rfl ?_ ?_ (fun _ hmem => Or.inl hmem) ?_
    · rw [hperform]
      rfl
    · rw [hperform]
      refine ⟨_, rfl, ?_, hcarried.refused⟩
      simp [hcarried.inside, hitems]
    · rw [hperform]
      exact fun _ => id

theorem endNews (h : Accounted j t) : Accounted j (t.perform .endNews) := by
  have hdeed : ∀ p, Deed.endNews ≠ .accept p := fun p hp => by cases hp
  obtain ⟨c, hnews, hcarried⟩ := h.carried
  refine h.meanwhile hdeed rfl rfl ?_ (fun _ hmem => Or.inl hmem) fun _ => id
  refine ⟨c.close, ?_, hcarried.inside, fun _ => rfl⟩
  show t.announcements.map Channel.close = _
  rw [hnews]
  rfl

theorem perform (h : Accounted j t) (deed : Deed) :
    Accounted (j.note t deed) (t.perform deed) := by
  cases deed with
  | accept p => exact h.accept p
  | step => exact h.step
  | take place d =>
    have hdeed : ∀ p, Deed.take place d ≠ .accept p := fun p hp => by cases hp
    have hsame : (t.perform (.take place d)).announcements = t.announcements ∧
        (t.perform (.take place d)).errand = t.errand := by
      rw [Tracker.perform]
      split
      · exact ⟨rfl, rfl⟩
      · split <;> exact ⟨rfl, rfl⟩
    refine h.silent hdeed hsame.1 ?_ fun place => hsame.2 ▸ id
    rw [atHand, hsame.2]
    rfl
  | close place =>
    have hdeed : ∀ p, Deed.close place ≠ .accept p := fun p hp => by cases hp
    exact h.silent hdeed rfl rfl fun _ => id
  | takeNews => exact h.takeNews
  | endNews => exact h.endNews

/-- The journal accounts for all pairs in every state that a tracker can come to. -/
theorem course (h : Accounted j t) (deeds : List Deed) :
    Accounted (j.kept t deeds) (t.course deeds) := by
  induction deeds generalizing t j with
  | nil => exact h
  | cons deed deeds ih => exact ih (h.perform deed)

end Accounted

/-! ## When nobody hears of a pair -/

/-- A connection is established and has the pair at this place, which is closed in both
directions. -/
structure Unheard (flow : Flow) (place : Nat) (t : Tracker) : Prop where
  established : t.phaseOf flow = .established
  registered : t.streams.find? flow = some place
  closed : PairAt place (fun pair => pair.flow = flow ∧ pair.IsClosed) t

theorem Unheard.course {flow : Flow} (h : Unheard flow place t) (hfiled : Filed t)
    {deeds : List Deed} (hothers : ∀ p, .accept p ∈ deeds → p.connection ≠ flow) :
    Unheard flow place (t.course deeds) := by
  refine (course_keeps (P := fun u => Unheard flow place u ∧ Filed u)
    (K := fun deed => ∀ p, deed = .accept p → p.connection ≠ flow) ?_ ⟨h, hfiled⟩
    fun _ hmem p hp => hothers p (hp ▸ hmem)).1
  rintro u deed hdeed ⟨hunheard, hfiled⟩
  have hsame : SameFile flow u (u.perform deed) := SameFile.perform hfiled hdeed
  obtain ⟨pair, hpair, hflow, hclosed⟩ := hunheard.closed
  obtain ⟨pair', hpair', hage⟩ := Ages.perform u deed place pair hpair
  refine ⟨⟨?_, hsame.place.trans hunheard.registered, pair', hpair', hage.flow.trans hflow,
    hage.isClosed hclosed⟩, (Orderly.perform u deed).filed hfiled⟩
  rw [phaseOf, hsame.connection]
  exact hunheard.established

/-- With a closed channel the pair at hand is given back at once, and handling its packet is
over. -/
theorem Accounted.step_of_closed {j : Journal} {c : Channel Nat} (h : Accounted j t)
    (hnews : t.announcements = some c) (hclosed : c.isClosed = true)
    (herrand : t.errand = some (.announce place)) :
    ∃ flow, j.established[place]? = some flow ∧ (t.perform .step).isIdle = true ∧
      Unheard flow place (t.perform .step) := by
  obtain ⟨pair, hpair, hplace, hphase⟩ := h.serves place herrand
  have hperform : t.perform .step = { t.modifyPair place Pair.close with errand := none } := by
    rw [Tracker.perform, (step_announcing herrand hnews).2, (c.send_eq_refused_iff place).2 hclosed]
    rfl
  refine ⟨pair.flow, ?_, ?_, ?_⟩
  · rw [← h.opened, labels, List.getElem?_map, hpair]
    rfl
  · rw [hperform]
    rfl
  · rw [hperform]
    exact ⟨hphase, hplace, pair.close, by simp [modifyPair, hpair], rfl, pair.isClosed_close⟩

theorem Accounted.waits_of_closed {j : Journal} {c : Channel Nat} (h : Accounted j t)
    {S : Flow → Nat → Direction → Bytes → Prop} (htraced : Traced S t)
    (hnews : t.announcements = some c) (hclosed : c.isClosed = true)
    (hidle : t.isIdle = false) (hwaits : t.step = none) :
    ∃ place d ws, t.errand = some (.deliver place d ws) ∧
      PairAt place (fun pair => (pair.buffer d).isClosed = false) t := by
  cases herrand : t.errand with
  | none =>
    rw [isIdle, herrand] at hidle
    cases hidle
  | some e =>
    cases e with
    | announce place =>
      obtain ⟨_, -, hdone, -⟩ := h.step_of_closed hnews hclosed herrand
      rw [Tracker.perform, hwaits] at hdone
      cases hidle.symm.trans hdone
    | deliver place d ws =>
      obtain ⟨pair, hpair, -⟩ := htraced.written herrand
      refine ⟨place, d, ws, rfl, pair, hpair, ?_⟩
      by_contra hshut
      rw [Bool.not_eq_false] at hshut
      simp only [Tracker.step, herrand, hpair, Option.bind_eq_bind, Option.bind_some] at hwaits
      cases hsending : (pair.buffer d).sending with
      | some chunk =>
        have hoffer : (pair.buffer d).canOffer = true :=
          (pair.buffer d).canOffer_iff.2 ⟨⟨chunk, hsending⟩, Or.inl hshut⟩
        rw [hsending, Option.isSome_some, if_pos rfl, if_pos hoffer] at hwaits
        cases hwaits
      | none =>
        rw [hsending, Option.isSome_none, if_neg Bool.false_ne_true] at hwaits
        cases ws <;> cases hwaits

/-- Whatever packets come and however consumers take announcements, the journal accounts for every
pair.  When the channel is closed, the pair at hand is given back as soon as its packet is worked
on: it is closed in both directions before the next packet is accepted, and until another packet
of its connection is, this is established and has the pair registered.  From then on handling
waits for readers of open pairs only. -/
theorem every_establishment_announced_once (s : Settings) (n : Nat) (deeds : List Deed) :
    let t₀ := ofSettings s (some (.ofCapacity n))
    let t := t₀.course deeds
    let j := Journal.kept {} t₀ deeds
    Accounted j t ∧
      ∀ c, t.announcements = some c → c.isClosed = true →
        (∀ place, t.errand = some (.announce place) →
          ∃ flow, j.established[place]? = some flow ∧ (t.perform .step).isIdle = true ∧
            ∀ more, (∀ p, .accept p ∈ more → p.connection ≠ flow) →
              Unheard flow place ((t.perform .step).course more)) ∧
        (t.isIdle = false → t.step = none →
          ∃ place d ws, t.errand = some (.deliver place d ws) ∧
            PairAt place (fun pair => (pair.buffer d).isClosed = false) t) := by
  intro t₀ t j
  have haccounted : Accounted j t := (Accounted.ofSettings s n).course deeds
  have hfiled : Filed t := (Orderly.course t₀ deeds).filed (.ofSettings s _)
  refine ⟨haccounted, fun c hnews hclosed => ⟨fun place herrand => ?_, ?_⟩⟩
  · obtain ⟨flow, hflow, hidle, hunheard⟩ := haccounted.step_of_closed hnews hclosed herrand
    have hbooks : Filed (t.perform .step) := (Orderly.perform t .step).filed hfiled
    exact ⟨flow, hflow, hidle, fun more hothers => hunheard.course hbooks hothers⟩
  · exact haccounted.waits_of_closed (traced_course s _ deeds) hnews hclosed

/-- Two clients complete a handshake while there is room for one announcement.  The second pair
waits to be announced when the consumer goes away; it is given back, and the service answers a
third client. -/
theorem every_establishment_announced_once_hungUp :
    let t₀ := ofSettings {} (some (.ofCapacity 1))
    let deeds : List Deed := greeting ++ [.accept greeted, .step,
      .accept (spoken 4001 .inbound 7 (.ofByte 2) []),
      .accept (spoken 4001 .outbound 4294967293 (.ofByte 18) []),
      .accept (spoken 4001 .inbound 8 .ackAlone []), .step, .endNews]
    let t := t₀.course deeds
    let j := Journal.kept {} t₀ deeds
    j.established = [greeted.connection, (spoken 4001 .inbound 8 .ackAlone []).connection] ∧
      j.sent = [0] ∧ j.refused = [] ∧ t.errand = some (.announce 1) ∧
      Unheard (spoken 4001 .inbound 8 .ackAlone []).connection 1 ((t.perform .step).course
        [.accept (spoken 4002 .inbound 7 (.ofByte 2) []), .takeNews]) := by
  intro t₀ deeds t j
  have hestablished : j.established =
      [greeted.connection, (spoken 4001 .inbound 8 .ackAlone []).connection] := by decide
  have herrand : t.errand = some (.announce 1) := by decide
  obtain ⟨-, hclosed⟩ := every_establishment_announced_once {} 1 deeds
  obtain ⟨flow, hflow, -, hunheard⟩ :=
    (hclosed ⟨1, [0], true, by decide⟩ (by decide) rfl).1 1 herrand
  have hother : (spoken 4001 .inbound 8 .ackAlone []).connection = flow :=
    Option.some.inj ((congrArg (·[1]?) hestablished).symm.trans hflow)
  refine ⟨hestablished, by decide, by decide, herrand, hother ▸ hunheard _ ?_⟩
  intro p hp
  rw [← hother]
  obtain hp | hp := List.mem_cons.1 hp
  · cases hp
    decide
  · cases List.mem_singleton.1 hp

end Tracker

end StreamTap
