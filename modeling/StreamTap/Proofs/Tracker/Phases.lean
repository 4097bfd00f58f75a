import Mathlib.Data.List.Basic
import Mathlib.Order.Bounds.Basic
import StreamTap.Tracker.Lifecycle

/-!
# Which events lead where

A life that is not cut short goes through all phases, and each of six events leads on from one
phase to the next (`life`).  Any other events may come before, between and after them, in any
number and order.  From most phases only one event leads on, so that to get through some of
them in a row is to have their events as a sublist (`after_eq_iff_sublist`,
`mem_trace_iff_sublist`).

Resets are what makes the difference.  They count in two phases only, where a connection listens
and where it is established, and so it matters there which of two events comes first
(`OccursBefore`).  If none has counted, the connection has come as far as its events have got
through `life` (`exists_isGreatest`).
-/

namespace StreamTap

/-- An event occurs before any of some others does, and these events come behind it. -/
def Event.OccursBefore (others : List Event) (e : Event) (es rest : List Event) : Prop :=
  ∃ before, es = before ++ e :: rest ∧ ∀ o ∈ others, o ∉ before

/-- The events of a life that is not cut short. -/
def Event.life : List Event :=
  [.receiveSyn, .sendSynAck, .receiveAck, .receiveFin, .sendFin, .receiveAck]

namespace Phase

open scoped List
open Event (OccursBefore life)

variable {p r q : Phase} {d e : Event} {es rest l : List Event} {others : List Event}

/-! ## Events one after another -/

/-- The phase after an event, be it that the event leads somewhere or not. -/
def on (p : Phase) (e : Event) : Phase := (p.next e).getD p

def after (p : Phase) (es : List Event) : Phase := es.foldl on p

/-- The last of these events is the first one that leads to a phase. -/
structure Reaches (p q : Phase) (es : List Event) : Prop where
  last : p.after es = q
  first : ∀ earlier, earlier <+: es → earlier ≠ es → p.after earlier ≠ q

@[simp] theorem after_nil (p : Phase) : p.after [] = p := rfl

@[simp] theorem after_cons (p : Phase) (e : Event) (es : List Event) :
    p.after (e :: es) = (p.on e).after es := rfl

theorem after_append (p : Phase) (es more : List Event) :
    p.after (es ++ more) = (p.after es).after more := List.foldl_append

theorem after_closed (es : List Event) : Phase.closed.after es = .closed := by
  induction es with
  | nil => rfl
  | cons e es ih => exact ih

theorem mem_trace_cons :
    .ok q ∈ p.trace (e :: es) ↔ p.next e = some q ∨ .ok q ∈ (p.on e).trace es := by
  rw [trace, List.mem_cons]
  refine or_congr ?_ Iff.rfl
  unfold step
  cases p.next e <;> simp [eq_comm]

theorem not_mem_trace_closed (q : Phase) (es : List Event) : .ok q ∉ Phase.closed.trace es := by
  induction es with
  | nil => exact List.not_mem_nil
  | cons e es ih =>
    rw [mem_trace_cons]
    rintro (h | h)
    · cases h
    · exact ih h

/-! ## One way on -/

theorem cons_sublist_cons_of_ne (h : d ≠ e) : d :: l <+ e :: es ↔ d :: l <+ es := by
  rw [List.cons_sublist_cons', or_iff_left fun hsame => h hsame.1]

/-- From a phase that one event leads on from, one has to get past this event. -/
theorem after_eq_iff_sublist (hway : ∀ e, p.next e = if e = d then some r else none)
    (hne : p ≠ q) (hnext : ∀ es, r.after es = q ↔ l <+ es) (es : List Event) :
    p.after es = q ↔ d :: l <+ es := by
  induction es with
  | nil => simp [hne]
  | cons e es ih =>
    by_cases he : e = d
    · subst he
      rw [after_cons, on, hway, if_pos rfl, Option.getD_some, hnext, List.cons_sublist_cons]
    · rw [after_cons, on, hway, if_neg he, Option.getD_none, ih,
        cons_sublist_cons_of_ne (Ne.symm he)]

theorem mem_trace_iff_sublist (hway : ∀ e, p.next e = if e = d then some r else none)
    (hnext : ∀ es, r = q ∨ .ok q ∈ r.trace es ↔ l <+ es) (es : List Event) :
    .ok q ∈ p.trace es ↔ d :: l <+ es := by
  induction es with
  | nil => simp [trace]
  | cons e es ih =>
    rw [mem_trace_cons]
    by_cases he : e = d
    · subst he
      rw [on, hway, if_pos rfl, Option.getD_some, Option.some.injEq, hnext, List.cons_sublist_cons]
    · rw [on, hway, if_neg he, Option.getD_none, ih, cons_sublist_cons_of_ne (Ne.symm he),
        or_iff_right (by simp)]

theorem after_closeWait (es : List Event) :
    Phase.closeWait.after es = .closed ↔ [.sendFin, .receiveAck] <+ es := by
  have hlastAck : ∀ es, Phase.lastAck.after es = .closed ↔ [.receiveAck] <+ es :=
    after_eq_iff_sublist (r := .closed) (fun e => by cases e <;> rfl) (by decide)
      (by simp [after_closed])
  exact after_eq_iff_sublist (r := .lastAck) (fun e => by cases e <;> rfl) (by decide) hlastAck es

theorem mem_trace_synReceived1 (es : List Event) :
    .ok .established ∈ Phase.synReceived1.trace es ↔ [.sendSynAck, .receiveAck] <+ es := by
  have hsynReceived2 : ∀ es, .ok .established ∈ Phase.synReceived2.trace es ↔ [.receiveAck] <+ es :=
    mem_trace_iff_sublist (r := .established) (fun e => by cases e <;> rfl) (by simp)
  exact mem_trace_iff_sublist (r := .synReceived2) (fun e => by cases e <;> rfl)
    (by simpa using hsynReceived2) es

/-! ## Which event comes first -/

@[simp] theorem not_occursBefore_nil : ¬OccursBefore others d [] rest := by
  rintro ⟨before, hes, -⟩
  exact List.cons_ne_nil d rest (List.append_eq_nil_iff.1 hes.symm).2

theorem occursBefore_cons :
    OccursBefore others d (e :: es) rest ↔
      (e = d ∧ es = rest) ∨ (e ∉ others ∧ OccursBefore others d es rest) := by
  constructor
  · rintro ⟨before, hes, hothers⟩
    cases before with
    | nil =>
      obtain ⟨he, hrest⟩ := List.cons.inj hes
      exact Or.inl ⟨he, hrest⟩
    | cons b before =>
      obtain ⟨rfl, hrest⟩ := List.cons.inj hes
      refine Or.inr ⟨fun he => hothers e he List.mem_cons_self, before, hrest, fun o ho hmem => ?_⟩
      exact hothers o ho (List.mem_cons_of_mem _ hmem)
  · rintro (⟨rfl, rfl⟩ | ⟨he, before, rfl, hothers⟩)
    · exact ⟨[], rfl, fun _ _ => List.not_mem_nil⟩
    · refine ⟨e :: before, rfl, fun o ho => ?_⟩
      rw [List.mem_cons, not_or]
      exact ⟨fun hsame => he (hsame ▸ ho), hothers o ho⟩

theorem sublist_of_occursBefore (h : OccursBefore others d es rest) (hl : l <+ rest) : l <+ es := by
  obtain ⟨before, rfl, -⟩ := h
  exact hl.trans ((List.sublist_cons_self d rest).trans (List.sublist_append_right before _))

theorem mem_trace_listen (es : List Event) :
    .ok .established ∈ Phase.listen.trace es ↔
      ∃ rest, OccursBefore [.receiveRst] .receiveSyn es rest ∧
        [.sendSynAck, .receiveAck] <+ rest := by
  induction es with
  | nil => simp [trace]
  | cons e es ih =>
    rw [mem_trace_cons]
    simp only [occursBefore_cons]
    cases e with
    | receiveSyn =>
      have hway : .ok .established ∈ (Phase.listen.on .receiveSyn).trace es ↔ _ :=
        mem_trace_synReceived1 es
      rw [hway, or_iff_right (by simp [next])]
      constructor
      · exact fun h => ⟨es, Or.inl ⟨rfl, rfl⟩, h⟩
      · rintro ⟨rest, ⟨-, rfl⟩ | ⟨-, hlater⟩, h⟩
        · exact h
        · exact sublist_of_occursBefore hlater h
    | receiveRst => simp [next, on, not_mem_trace_closed]
    | _ => simpa [next, on] using ih

/-- What ends an established connection: a reset, or the rest of an orderly close. -/
theorem after_established (es : List Event) :
    Phase.established.after es = .closed ↔
      (∃ rest, OccursBefore [.receiveFin, .receiveRst] .receiveRst es rest) ∨
        ∃ rest, OccursBefore [.receiveFin, .receiveRst] .receiveFin es rest ∧
          [.sendFin, .receiveAck] <+ rest := by
  induction es with
  | nil => simp
  | cons e es ih =>
    simp only [after_cons, occursBefore_cons]
    cases e with
    | receiveFin => simpa [next, on] using after_closeWait es
    | receiveRst => simp [next, on, after_closed]
    | _ => simpa [next, on] using ih

/-! ## By way of establishment -/

theorem not_reaches_nil (hne : p ≠ q) : ¬Reaches p q [] := fun h => hne h.last

theorem reaches_cons (hne : p ≠ q) :
    Reaches p q (e :: es) ↔ (p.on e = q ∧ es = []) ∨ (p.on e ≠ q ∧ Reaches (p.on e) q es) := by
  constructor
  · intro h
    by_cases hon : p.on e = q
    · refine Or.inl ⟨hon, by_contra fun hes => ?_⟩
      exact h.first [e] ⟨es, rfl⟩ (fun hsame => hes (List.cons.inj hsame).2.symm) hon
    · refine Or.inr ⟨hon, h.last, fun earlier hearlier hshort => ?_⟩
      obtain ⟨later, rfl⟩ := hearlier
      exact h.first (e :: earlier) ⟨later, rfl⟩ fun hsame => hshort (List.cons.inj hsame).2
  · rintro (⟨hon, rfl⟩ | ⟨hon, hlast, hfirst⟩)
    · refine ⟨hon, fun earlier hearlier hshort => ?_⟩
      cases earlier with
      | nil => exact hne
      | cons d earlier =>
        obtain ⟨later, hes⟩ := hearlier
        simp_all
    · refine ⟨hlast, fun earlier hearlier hshort => ?_⟩
      cases earlier with
      | nil => exact hne
      | cons d earlier =>
        obtain ⟨later, hes⟩ := hearlier
        obtain ⟨rfl, rfl⟩ := List.cons.inj hes
        exact hfirst earlier ⟨later, rfl⟩ fun hsame => hshort (hsame ▸ rfl)

/-- These events come behind the one that first leads to a phase. -/
def Behind (p q : Phase) (es rest : List Event) : Prop :=
  ∃ opening, es = opening ++ rest ∧ Reaches p q opening

theorem behind_cons (hne : p ≠ q) :
    Behind p q (e :: es) rest ↔
      (p.on e = q ∧ es = rest) ∨ (p.on e ≠ q ∧ Behind (p.on e) q es rest) := by
  constructor
  · rintro ⟨opening, hes, hreaches⟩
    cases opening with
    | nil => exact absurd hreaches (not_reaches_nil hne)
    | cons d opening =>
      obtain ⟨rfl, rfl⟩ := List.cons.inj hes
      rcases (reaches_cons hne).1 hreaches with ⟨hon, rfl⟩ | ⟨hon, hlater⟩
      · exact Or.inl ⟨hon, rfl⟩
      · exact Or.inr ⟨hon, opening, rfl, hlater⟩
  · rintro (⟨hon, rfl⟩ | ⟨hon, opening, rfl, hlater⟩)
    · exact ⟨[e], rfl, (reaches_cons hne).2 (Or.inl ⟨hon, rfl⟩)⟩
    · exact ⟨e :: opening, rfl, (reaches_cons hne).2 (Or.inr ⟨hon, hlater⟩)⟩

theorem not_behind_nil (hne : p ≠ q) : ¬Behind p q [] rest := by
  rintro ⟨opening, hes, hreaches⟩
  rw [(List.append_eq_nil_iff.1 hes.symm).1] at hreaches
  exact not_reaches_nil hne hreaches

/-- A connection that is not established yet ends by being established first, or by a reset
while it listens. -/
theorem after_opening (hp : p ∈ [listen, synReceived1, synReceived2]) (es : List Event) :
    p.after es = .closed ↔
      (p = .listen ∧ ∃ rest, OccursBefore [.receiveSyn] .receiveRst es rest) ∨
        ∃ rest, Behind p .established es rest ∧ Phase.established.after rest = .closed := by
  have hne : p ≠ .established := by
    rintro rfl
    simp at hp
  induction es generalizing p with
  | nil =>
    simp only [not_occursBefore_nil, not_behind_nil hne, after_nil]
    simp only [List.mem_cons, List.not_mem_nil, or_false] at hp
    rcases hp with rfl | rfl | rfl <;> simp
  | cons e es ih =>
    simp only [after_cons, occursBefore_cons, behind_cons hne]
    have hlisten := ih (p := .listen) (by simp) (by decide)
    have hreceived1 := ih (p := .synReceived1) (by simp) (by decide)
    have hreceived2 := ih (p := .synReceived2) (by simp) (by decide)
    simp only [List.mem_cons, List.not_mem_nil, or_false] at hp
    rcases hp with rfl | rfl | rfl
    · cases e with
      | receiveSyn => simpa [next, on] using hreceived1
      | receiveRst => simp [next, on, after_closed]
      | _ => simpa [next, on] using hlisten
    · cases e with
      | sendSynAck => simpa [next, on] using hreceived2
      | _ => simpa [next, on] using hreceived1
    · cases e with
      | receiveAck => simp [next, on]
      | _ => simpa [next, on] using hreceived2

/-! ## How far a life has come -/

/-- The events of a whole life that are still to come in a phase. -/
def ahead (p : Phase) : List Event := life.drop (all.idxOf p)

/-- The phases of a whole life from this one on. -/
def onward (p : Phase) : List Phase := all.drop (all.idxOf p)

theorem getElem?_onward_zero (p : Phase) : p.onward[0]? = some p := by cases p <;> rfl

theorem ahead_of_next (h : p.next e = some q) (hq : q ≠ .closed) :
    p.ahead = e :: q.ahead ∧ p.onward = p :: q.onward := by
  cases p <;> cases e <;> simp_all [next] <;> subst h <;> decide

theorem head?_ahead_of_next (h : p.next e = none) : p.ahead.head? ≠ some e := by
  cases p <;> cases e <;> simp_all [next] <;> decide

/-- How much of a list, from its front on, other events come through as a sublist. -/
def progress (path es : List Event) : Set Nat :=
  {n | ∃ front, front <+: path ∧ front <+ es ∧ front.length = n}

theorem isGreatest_progress_nil (path : List Event) : IsGreatest (progress path []) 0 := by
  refine ⟨⟨[], List.nil_prefix, List.nil_sublist _, rfl⟩, ?_⟩
  rintro n ⟨front, -, hfront, rfl⟩
  rw [List.sublist_nil.1 hfront]
  exact Nat.le_refl 0

theorem progress_cons_of_ne {path : List Event} (h : path.head? ≠ some e) :
    progress path (e :: es) = progress path es := by
  ext n
  refine exists_congr fun front => and_congr_right fun hpath => and_congr_left fun _ => ?_
  cases front with
  | nil => simp
  | cons d front =>
    refine cons_sublist_cons_of_ne fun hde => h ?_
    obtain ⟨later, rfl⟩ := hpath
    rw [hde]
    rfl

theorem isGreatest_progress_cons {path : List Event} {k : Nat}
    (h : IsGreatest (progress path es) k) :
    IsGreatest (progress (e :: path) (e :: es)) (k + 1) := by
  obtain ⟨⟨front, hpath, hes, hlength⟩, hgreatest⟩ := h
  refine ⟨⟨e :: front, ?_, ?_, ?_⟩, ?_⟩
  · exact List.cons_prefix_cons.2 ⟨rfl, hpath⟩
  · exact hes.cons_cons e
  · rw [List.length_cons, hlength]
  · rintro n ⟨front', hpath', hes', rfl⟩
    cases front' with
    | nil => exact Nat.zero_le _
    | cons d front' =>
      obtain ⟨rfl, hbehind⟩ := List.cons_prefix_cons.1 hpath'
      exact Nat.succ_le_succ (hgreatest ⟨front', hbehind, List.cons_sublist_cons.1 hes', rfl⟩)

/-- As long as it has not ended, a life has come through as many phases as there are events of
it, the first ones first, among those that have happened. -/
theorem exists_isGreatest (hopen : p.after es ≠ .closed) :
    ∃ k, IsGreatest (progress p.ahead es) k ∧ p.onward[k]? = some (p.after es) := by
  induction es generalizing p with
  | nil => exact ⟨0, isGreatest_progress_nil _, getElem?_onward_zero p⟩
  | cons e es ih =>
    rw [after_cons] at hopen
    obtain ⟨k, hk, hphase⟩ := ih hopen
    cases hnext : p.next e with
    | none =>
      rw [on, hnext, Option.getD_none] at hk hphase
      refine ⟨k, ?_, ?_⟩
      · rwa [progress_cons_of_ne (head?_ahead_of_next hnext)]
      · rwa [after_cons, on, hnext, Option.getD_none]
    | some q =>
      rw [on, hnext, Option.getD_some] at hk hphase hopen
      have hq : q ≠ .closed := by
        rintro rfl
        exact hopen (after_closed es)
      obtain ⟨hahead, honward⟩ := ahead_of_next hnext hq
      refine ⟨k + 1, ?_, ?_⟩
      · rw [hahead]
        exact isGreatest_progress_cons hk
      · rwa [honward, List.getElem?_cons_succ, after_cons, on, hnext, Option.getD_some]

/-- Where events lead that happen one after another from the beginning of a life on.  One that
leads nowhere changes nothing. -/
theorem phases_of_events (es : List Event) :
    (.ok .established ∈ listen.trace es ↔
      ∃ rest, OccursBefore [.receiveRst] .receiveSyn es rest ∧
        [.sendSynAck, .receiveAck] <+ rest) ∧
    (listen.after es = .closed ↔
      (∃ rest, OccursBefore [.receiveSyn] .receiveRst es rest) ∨
        ∃ rest, Behind listen .established es rest ∧
          ((∃ more, OccursBefore [.receiveFin, .receiveRst] .receiveRst rest more) ∨
            ∃ more, OccursBefore [.receiveFin, .receiveRst] .receiveFin rest more ∧
              [.sendFin, .receiveAck] <+ more)) ∧
    (listen.after es = .closed → ∀ more, listen.after (es ++ more) = .closed) ∧
    (listen.after es ≠ .closed →
      ∃ k, IsGreatest {n | ∃ front, front <+: life ∧ front <+ es ∧ front.length = n} k ∧
        all[k]? = some (listen.after es)) := by
  refine ⟨mem_trace_listen es, ?_, ?_, exists_isGreatest⟩
  · rw [after_opening (by simp)]
    simp only [after_established, true_and]
  · intro hclosed more
    rw [after_append, hclosed, after_closed]

/-- Resets and acknowledgements where they mean nothing, and a handshake whose events come twice:
the connection is closing, and a fifth of its events is what it has come through last.  The same
events with a reset behind the handshake end it. -/
theorem phases_of_events_stray :
    let opening : List Event := [.sendSynAck, .receiveAck, .receiveSyn, .receiveSyn, .receiveRst,
      .sendSynAck, .receiveFin, .receiveAck]
    let closing : List Event := [.receiveFin, .receiveRst, .sendAck, .sendFin]
    listen.after (opening ++ closing) ≠ .closed ∧
      listen.after (opening ++ .receiveRst :: closing) = .closed ∧
      (∃ k, IsGreatest {n | ∃ front, front <+: life ∧ front <+ opening ++ closing ∧
          front.length = n} k ∧ all[k]? = some .lastAck) ∧
      listen.after (opening ++ .receiveRst :: closing ++ [.receiveSyn]) = .closed := by
  intro opening closing
  obtain ⟨-, -, -, hopen⟩ := phases_of_events (opening ++ closing)
  obtain ⟨-, -, hclosed, -⟩ := phases_of_events (opening ++ .receiveRst :: closing)
  exact ⟨by decide, by decide, hopen (by decide), hclosed (by decide) [.receiveSyn]⟩

end Phase

end StreamTap
