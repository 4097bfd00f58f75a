import StreamTap.Proofs.Tracker.Lifetime
import StreamTap.Proofs.Tracker.Reconstruction
import StreamTap.Proofs.Tracker.Registers

/-!
# The counts of a tracker

A tracker counts the packets it is given, and beside them what became of each.  The counts are
raised in many places: at once when a packet is an event or means nothing or has to be dropped,
much later when its payload has to wait for room, and not at all when it is a response that is
not wanted.

`outcomes` are the packets that one of the counts has or will have once the writes at hand are
made.  Beginning with a packet adds one to them or passes the packet over (`tally_accept`), and no
move changes them (`tally_step`).  So in every state the packets are the outcomes and what was
passed over (`counted_course`).

The registers have to agree for this: payload of an established connection finds its pair, or
else a response that is not wanted would be dropped instead (`Straight.routed`).
-/

namespace StreamTap

/-- The packets whose outcome is counted. -/
def Counts.outcomes (c : Counts) : Nat :=
  c.transitions + c.ignored + c.unrecognized + c.routed + c.dropped

namespace Tracker

variable {t t' t'' : Tracker} {p : Packet}

/-! ## What is counted and what is not -/

/-- Whether the packet at hand has yet to be counted as routed. -/
def isDelivering (t : Tracker) : Bool :=
  match t.errand with
  | some (.deliver _ _ _) => true
  | _ => false

/-- The packets whose outcome is counted, or will be when the errand is done. -/
def outcomes (t : Tracker) : Nat := t.counts.outcomes + t.isDelivering.toNat

/-- Whether a packet comes from the service and responses are not wanted. -/
def unwanted (t : Tracker) (p : Packet) : Bool := p.direction == .outbound && !t.captureResponse

/-- Whether a packet is passed over: payload of an established connection that is not wanted. -/
def passesOver (t : Tracker) (p : Packet) : Bool :=
  p.hasPayload && t.phaseOf p.connection == .established && t.unwanted p

/-- The packet that a deed has the tracker pass over, if it does. -/
def passedBy (t : Tracker) (deed : Deed) : List Packet := (t.handledBy deed).filter t.passesOver

def passed : Tracker → List Deed → List Packet
  | _, [] => []
  | t, deed :: deeds => t.passedBy deed ++ passed (t.perform deed) deeds

theorem passesOver_of_captureResponse (h : t.captureResponse = true) (p : Packet) :
    t.passesOver p = false := by
  simp [passesOver, unwanted, h]

theorem passed_of_captureResponse (h : t.captureResponse = true) (deeds : List Deed) :
    passed t deeds = [] := by
  induction deeds generalizing t with
  | nil => rfl
  | cons deed deeds ih =>
    have hnext : (t.perform deed).captureResponse = true :=
      (Orderly.perform t deed).captureResponse.trans h
    have hnone : t.passedBy deed = [] :=
      List.filter_eq_nil_iff.2 fun p _ => by simp [passesOver_of_captureResponse h p]
    rw [passed, hnone, ih hnext, List.nil_append]

/-! ## What happens to the counts -/

/-- From one tracker to the next some packets were begun, and all of them but those that were
passed over are new outcomes. -/
structure Tally (t t' : Tracker) (begun passed : List Packet) : Prop where
  packets : t'.counts.packets = t.counts.packets + begun.length
  outcomes : t'.outcomes + passed.length = t.outcomes + begun.length

namespace Tally

theorem refl (t : Tracker) : Tally t t [] [] := ⟨rfl, rfl⟩

theorem of_eq (hcounts : t'.counts = t.counts) (herrand : t'.errand = t.errand) :
    Tally t t' [] [] := by
  refine ⟨by rw [hcounts]; rfl, ?_⟩
  simp only [Tracker.outcomes, isDelivering, hcounts, herrand]

theorem trans {begun begun' passed passed' : List Packet} (h : Tally t t' begun passed)
    (h' : Tally t' t'' begun' passed') : Tally t t'' (begun ++ begun') (passed ++ passed') := by
  have hpackets := h.packets
  have hpackets' := h'.packets
  have houtcomes := h.outcomes
  have houtcomes' := h'.outcomes
  constructor <;> simp only [List.length_append] <;> omega

end Tally

theorem outcomes_of_not_delivering (h : t.isDelivering = false) :
    t.outcomes = t.counts.outcomes := by
  simp [outcomes, h]

theorem not_delivering_of_idle (h : t.isIdle = true) : t.isDelivering = false := by
  rw [isDelivering, Option.isNone_iff_eq_none.1 h]

theorem counts_closePairOf (t : Tracker) (flow : Flow) :
    (t.closePairOf flow).counts = t.counts := by
  rcases t.closePairOf_cases flow with ⟨place, -, hclose⟩ | ⟨-, hclose⟩ <;> rw [hclose]
  rfl

theorem counts_establish (t : Tracker) (c : Connection) (p : Packet) :
    (t.establish c p).counts = t.counts :=
  t.counts_closePairOf c.flow

theorem not_delivering_establish (t : Tracker) (c : Connection) (p : Packet) :
    (t.establish c p).isDelivering = false := by
  unfold isDelivering
  split
  · next herrand =>
    obtain ⟨_, _, hdeliver⟩ := Option.map_eq_some_iff.1 herrand
    cases hdeliver
  · rfl

theorem counts_release (t : Tracker) (flow : Flow) : (t.release flow).counts = t.counts :=
  t.counts_closePairOf flow

theorem not_delivering_release (h : t.isIdle = true) (flow : Flow) :
    (t.release flow).isDelivering = false :=
  not_delivering_of_idle ((congrArg Option.isNone (t.errand_closePairOf flow)).trans h)

/-! ## A packet begins -/

theorem outcomes_trigger (hidle : t.isIdle = true) (event : Event) (p : Packet) :
    (t.trigger event p).counts.packets = t.counts.packets ∧
      (t.trigger event p).outcomes = t.outcomes + 1 := by
  rw [outcomes_of_not_delivering (not_delivering_of_idle hidle)]
  rcases t.trigger_cases event p with ⟨-, htrigger⟩ | ⟨c, phase, -, -, hways⟩
  · rw [htrigger, outcomes_of_not_delivering (t := t.ignore) (not_delivering_of_idle hidle)]
    refine ⟨rfl, ?_⟩
    simp only [ignore, Counts.outcomes]
    omega
  · have hcounts : (t.trigger event p).counts = (t.transited p (c.after event p phase)).counts ∧
        (t.trigger event p).isDelivering = false := by
      rcases hways with ⟨-, htrigger⟩ | ⟨-, htrigger⟩ | ⟨-, -, htrigger⟩ <;> rw [htrigger]
      · exact ⟨counts_establish .., not_delivering_establish ..⟩
      · exact ⟨counts_release .., not_delivering_release (t := t.transited p _) hidle _⟩
      · exact ⟨rfl, not_delivering_of_idle hidle⟩
    rw [outcomes_of_not_delivering hcounts.2, hcounts.1]
    refine ⟨rfl, ?_⟩
    simp only [transited, Counts.outcomes]
    omega

theorem route_cases {place : Nat} {pair : Pair}
    (hpair : t.pairOf? p.connection = some (place, pair)) :
    (t.unwanted p = true ∧ t.route p = t) ∨
      (t.unwanted p = false ∧
        ∃ ws, t.route p = { t with errand := some (.deliver place p.direction ws) }) := by
  unfold route unwanted
  rw [hpair]
  cases p.direction with
  | inbound => exact Or.inr ⟨rfl, _, rfl⟩
  | outbound =>
    cases hcapture : t.captureResponse with
    | true => exact Or.inr ⟨rfl, [.add p.seq p.payload], by simp⟩
    | false => exact Or.inl ⟨rfl, by simp⟩

/-- Payload of an established connection has an outcome in the end, unless it is not wanted. -/
theorem outcomes_route (hidle : t.isIdle = true) {place : Nat} {pair : Pair}
    (hpair : t.pairOf? p.connection = some (place, pair)) :
    (t.route p).counts.packets = t.counts.packets ∧
      (t.route p).outcomes + (t.unwanted p).toNat = t.outcomes + 1 := by
  rcases route_cases hpair with ⟨hunwanted, hroute⟩ | ⟨hunwanted, ws, hroute⟩ <;>
    rw [hroute, hunwanted]
  · exact ⟨rfl, rfl⟩
  · rw [outcomes_of_not_delivering (not_delivering_of_idle hidle)]
    exact ⟨rfl, rfl⟩

theorem length_filter_singleton (f : Packet → Bool) (p : Packet) :
    ([p].filter f).length = (f p).toNat := by
  cases h : f p <;> simp [h]

theorem tally_accept (h : Registered t) (hidle : t.isIdle = true) (p : Packet) :
    Tally t (t.accept p) [p] ([p].filter t.passesOver) := by
  -- Noticing the packet counts it; what is left to show is about the packet's outcome.
  suffices hrest : (t.accept p).counts.packets = (t.noticed p).counts.packets ∧
      (t.accept p).outcomes + (t.passesOver p).toNat = (t.noticed p).outcomes + 1 by
    refine ⟨hrest.1, ?_⟩
    rw [length_filter_singleton]
    exact hrest.2
  rw [accept_eq, passesOver, ← phaseOf_noticed t p]
  cases p.hasPayload with
  | false =>
    simp only [Bool.false_eq_true, if_false, Bool.false_and]
    cases Event.ofPacket p with
    | some event => exact outcomes_trigger (t := t.noticed p) hidle event p
    | none =>
      refine ⟨rfl, ?_⟩
      simp only [outcomes, Counts.outcomes, isDelivering, Bool.toNat_false]
      omega
  | true =>
    by_cases hphase : (t.noticed p).phaseOf p.connection = .established
    · obtain ⟨place, pair, hpair⟩ := (h.straight p).routed hphase
      simp only [hphase, if_true, beq_self_eq_true, Bool.true_and]
      exact outcomes_route (t := t.noticed p) hidle hpair
    · simp only [hphase, if_true, if_false, beq_eq_false_iff_ne.2 hphase, Bool.and_false,
        Bool.false_and]
      refine ⟨rfl, ?_⟩
      simp only [drop, outcomes, Counts.outcomes, isDelivering, Bool.toNat_false]
      omega

/-! ## The errand goes on -/

/-- A move counts a packet when the last of its writes is made, and no sooner. -/
theorem tally_step (hstep : t.step = some t') : Tally t t' [] [] := by
  cases herrand : t.errand with
  | none =>
    rw [step_of_errand_none herrand] at hstep
    cases hstep
  | some e =>
    cases e with
    | announce place =>
      have hquiet : t.isDelivering = false := by simp [isDelivering, herrand]
      have hdone : ∀ u : Tracker, u.counts = t.counts → u.errand = none → Tally t u [] [] := by
        intro u hcounts hnone
        refine ⟨by rw [hcounts]; rfl, ?_⟩
        rw [outcomes_of_not_delivering hquiet, outcomes_of_not_delivering
          (not_delivering_of_idle (Option.isNone_iff_eq_none.2 hnone)), hcounts]
      rcases step_announce herrand hstep with rfl | ⟨channel, rfl⟩ | rfl
      · exact hdone _ rfl rfl
      · exact hdone _ rfl rfl
      · exact hdone _ rfl rfl
    | deliver place d ws =>
      have hbusy : t.isDelivering = true := by simp [isDelivering, herrand]
      obtain ⟨pair, -, ⟨-, rfl⟩ | ⟨w, rest, -, -, rfl⟩ | ⟨-, -, rfl⟩⟩ := step_deliver herrand hstep
      · exact .of_eq rfl rfl
      · refine ⟨rfl, ?_⟩
        simp only [outcomes, hbusy]
        rfl
      · refine ⟨rfl, ?_⟩
        rw [outcomes, outcomes, hbusy, isDelivering]
        simp only [Counts.outcomes, Bool.toNat_true, Bool.toNat_false, List.length_nil]
        omega

/-! ## Every course -/

/-- Whatever happens, the packet that the tracker begins with, if any, is a new outcome or passed
over. -/
theorem tally_perform (h : Registered t) (deed : Deed) :
    Tally t (t.perform deed) (t.handledBy deed) (t.passedBy deed) := by
  cases deed with
  | accept p =>
    rw [passedBy, handledBy, perform]
    split
    · next hidle => exact tally_accept h hidle p
    · exact .refl t
  | step =>
    show Tally t (t.step.getD t) [] []
    cases hstep : t.step with
    | none => exact .refl t
    | some t' => exact tally_step hstep
  | take place d =>
    show Tally t _ [] []
    simp only [perform]
    split
    · exact .refl t
    · split
      · exact .of_eq rfl rfl
      · exact .refl t
      · exact .refl t
  | close place => exact .of_eq rfl rfl
  | takeNews =>
    show Tally t _ [] []
    simp only [perform, takeNews]
    split
    · next t' hnews =>
      split at hnews
      · cases hnews
      · split at hnews
        · cases hnews
          exact .of_eq rfl rfl
        · cases hnews
        · cases hnews
    · exact .refl t
    · exact .refl t
    · exact .refl t
  | endNews => exact .of_eq rfl rfl

theorem tally_course (h : Registered t) (deeds : List Deed) :
    Tally t (t.course deeds) (handled t deeds) (passed t deeds) := by
  induction deeds generalizing t with
  | nil => exact .refl t
  | cons deed deeds ih => exact (tally_perform h deed).trans (ih (h.perform deed))

/-- Every packet is counted in exactly one way.  Once the tracker is done with its packets, each of
them is an event that led on or led nowhere, or its flags meant nothing, or its payload was routed
or dropped; or it is counted in none of these ways, being a response that is not wanted. -/
theorem counted_course (s : Settings) (announcements : Option (Channel Nat)) (deeds : List Deed) :
    let begun := ofSettings s announcements
    let t := begun.course deeds
    t.counts.packets = (handled begun deeds).length ∧
      (t.isIdle = true → t.counts.packets = t.counts.transitions + t.counts.ignored
        + t.counts.unrecognized + t.counts.routed + t.counts.dropped
        + (passed begun deeds).length) ∧
      (s.tracker.captureResponse = true → passed begun deeds = []) := by
  intro begun t
  have htally := tally_course (Registered.ofSettings s announcements) deeds
  have hpackets : t.counts.packets = (handled begun deeds).length :=
    htally.packets.trans (Nat.zero_add _)
  refine ⟨hpackets, fun hidle => ?_, fun hcapture => passed_of_captureResponse hcapture deeds⟩
  have houtcomes : t.outcomes + (passed begun deeds).length = (handled begun deeds).length :=
    htally.outcomes.trans (Nat.zero_add _)
  rw [outcomes_of_not_delivering (not_delivering_of_idle hidle)] at houtcomes
  exact hpackets.trans houtcomes.symm

/-- After the handshake the client's payload is routed and the service's response passed over.
Another client sends payload that is dropped, an acknowledgement that leads nowhere, and a packet
without flags. -/
def mixture : List Deed :=
  greeting ++ [.accept greeted, .accept (spoken 4000 .inbound 4294967290 .ackAlone [65]), .step,
    .step, .step, .accept (spoken 4000 .outbound 4294967294 .ackAlone [1, 2]),
    .accept (spoken 4001 .inbound 77 .ackAlone [66]),
    .accept (spoken 4001 .inbound 78 .ackAlone []),
    .accept (spoken 4001 .inbound 78 (.ofByte 0) [])]

def deaf : Settings := { tracker := { captureResponse := false } }

theorem counted_course_mixture :
    let begun := ofSettings deaf none
    let t := begun.course mixture
    (t.counts = ⟨8, 3, 1, 1, 1, 1⟩ ∧ (passed begun mixture).length = 1) ∧
      t.counts.packets = t.counts.transitions + t.counts.ignored + t.counts.unrecognized
        + t.counts.routed + t.counts.dropped + (passed begun mixture).length ∧
      passed (ofSettings {} none) mixture = [] :=
  ⟨by decide, (counted_course deaf none mixture).2.1 (by decide),
    (counted_course {} none mixture).2.2 rfl⟩

end Tracker

end StreamTap
