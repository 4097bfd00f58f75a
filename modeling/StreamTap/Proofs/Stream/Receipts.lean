import StreamTap.Proofs.Stream.Conservation
import StreamTap.Proofs.Stream.Fates

/-!
# What each call has received

The record of a history says which call received which chunk.  Taken call by call this is what
the calls have: the answer of a finished call gives the chunks that it received, joined in their
order, and an unfinished call holds those that it received so far (`eachHas_run`).

A call is found again by its number, so no number may be given twice.  What all calls have
together needs no numbers (`holdings_perm_run`).
-/

namespace StreamTap

namespace Record

/-- The bytes that the call under a number has received, in their order. -/
def receivedBy (r : Record) (number : Nat) : Bytes :=
  (r.receipts.filter fun receipt => receipt.1 == number).flatMap Prod.snd

variable {r r' : Record} {number : Nat} {chunks : List Bytes}
  (hreceipts : r'.receipts = r.receipts ++ chunks.map fun chunk => (number, chunk))

include hreceipts

theorem receivedBy_self : r'.receivedBy number = r.receivedBy number ++ chunks.flatten := by
  have hall : (chunks.map fun chunk => (number, chunk)).filter
      (fun receipt => receipt.1 == number) = chunks.map fun chunk => (number, chunk) := by
    rw [List.filter_eq_self]
    intro receipt hreceipt
    obtain ⟨chunk, -, rfl⟩ := List.mem_map.1 hreceipt
    exact beq_self_eq_true number
  rw [receivedBy, hreceipts, List.filter_append, hall, List.flatMap_append, List.flatMap_map]
  simp [receivedBy]

theorem receivedBy_of_ne {other : Nat} (hother : other ≠ number) :
    r'.receivedBy other = r.receivedBy other := by
  have hnone : (chunks.map fun chunk => (number, chunk)).filter
      (fun receipt => receipt.1 == other) = [] := by
    rw [List.filter_eq_nil_iff]
    intro receipt hreceipt
    obtain ⟨chunk, -, rfl⟩ := List.mem_map.1 hreceipt
    simpa using hother.symm
  rw [receivedBy, hreceipts, List.filter_append, hnone, List.append_nil, receivedBy]

omit hreceipts

theorem receivedBy_eq_nil (h : number ∉ r.receipts.map Prod.fst) : r.receivedBy number = [] := by
  have hnone : r.receipts.filter (fun receipt => receipt.1 == number) = [] := by
    rw [List.filter_eq_nil_iff]
    intro receipt hreceipt hnumber
    exact h (List.mem_map.2 ⟨receipt, hreceipt, eq_of_beq hnumber⟩)
  rw [receivedBy, hnone, List.flatMap_nil]

end Record

namespace History

/-- Each call has what it has received, and whoever has received something is one of the calls. -/
structure EachHas (h : History) : Prop where
  received : ∀ x ∈ h.holdings, x.2 = h.record.receivedBy x.1
  known : h.record.receipts.map Prod.fst ⊆ h.holdings.map Prod.fst

theorem map_fst_holdings (h : History) :
    h.holdings.map Prod.fst = h.answers.map Prod.fst ++ h.session.pending.map Prod.fst := by
  simp [holdings, Function.comp_def]

theorem Numbered.perm_holdings {calls : List (Nat × Call)} {h : History}
    (hnumbered : h.Numbered calls) : (calls.map Prod.fst).Perm (h.holdings.map Prod.fst) := by
  rw [map_fst_holdings]
  exact hnumbered.numbers

namespace EachHas

variable {h : History}

theorem resume (heach : EachHas h) (hnodup : (h.holdings.map Prod.fst).Nodup)
    {before after : List (Nat × Task)} {number : Nat} {task : Task}
    (hpending : h.session.pending = before ++ (number, task) :: after) (myTurn : Bool) :
    EachHas (h.resume before after number task (task.step h.buffer myTurn)) := by
  obtain ⟨others, hhere, hthere⟩ := holdings_resume hpending myTurn
  have hreceipts := h.receipts_resume before after number task (task.step h.buffer myTurn)
  have hothers : number ∉ others.map Prod.fst :=
    (List.nodup_cons.1 ((hhere.map Prod.fst).nodup_iff.1 hnodup)).1
  constructor
  · intro x hx
    rcases List.mem_cons.1 (hthere.mem_iff.1 hx) with rfl | hother
    · have hheld := heach.received _ (hhere.mem_iff.2 List.mem_cons_self)
      rw [Record.receivedBy_self hreceipts]
      exact congrArg (· ++ _) hheld
    · have hne : x.1 ≠ number := by
        rintro rfl
        exact hothers (List.mem_map_of_mem hother)
      rw [Record.receivedBy_of_ne hreceipts hne]
      exact heach.received x (hhere.mem_iff.2 (List.mem_cons_of_mem _ hother))
  · intro other hother
    rw [hreceipts, List.map_append, List.mem_append] at hother
    rw [(hthere.map Prod.fst).mem_iff]
    rcases hother with hother | hother
    · exact (hhere.map Prod.fst).mem_iff.1 (heach.known hother)
    · obtain ⟨receipt, hreceipt, rfl⟩ := List.mem_map.1 hother
      obtain ⟨chunk, -, rfl⟩ := List.mem_map.1 hreceipt
      exact List.mem_cons_self

theorem start (heach : EachHas h) {number : Nat} (hfresh : number ∉ h.holdings.map Prod.fst)
    (call : Call) : EachHas (h.happen (.start number call)) := by
  have hheld : call.task.held = [] := by cases call <;> rfl
  have hholdings : (h.happen (.start number call)).holdings = h.holdings ++ [(number, [])] := by
    simp [holdings, happen, hheld]
  constructor
  · intro x hx
    rw [hholdings] at hx
    rcases List.mem_append.1 hx with hx | hx
    · exact heach.received x hx
    · rw [List.mem_singleton.1 hx]
      exact (Record.receivedBy_eq_nil fun hmem => hfresh (heach.known hmem)).symm
  · rw [hholdings, List.map_append]
    exact List.subset_append_of_subset_left _ heach.known

end EachHas

/-- Where no number is given twice, each call has what it has received, at every moment. -/
theorem eachHas_run (b : Buffer) {schedule : List Occurrence}
    (hnodup : ((startedCalls schedule).map Prod.fst).Nodup) :
    EachHas ((ofBuffer b).run schedule) := by
  have hdistinct : ∀ done, done <+: schedule →
      (((ofBuffer b).run done).holdings.map Prod.fst).Nodup := by
    intro done hdone
    have hstarted : (startedCalls done).map Prod.fst <+: (startedCalls schedule).map Prod.fst :=
      (hdone.filterMap Occurrence.call?).map Prod.fst
    exact (numbered_run b done).perm_holdings.nodup_iff.1 (hnodup.sublist hstarted.sublist)
  refine prefix_induction (motive := fun done => EachHas ((ofBuffer b).run done))
    ⟨(fun x hx => by cases hx), List.nil_subset _⟩ ?_
  intro done o hupto heach
  rw [run_snoc]
  cases o with
  | close => exact ⟨heach.received, heach.known⟩
  | start number call =>
    -- The number is new, for it is among those of the calls only from now on.
    have hnext := hdistinct _ hupto
    rw [run_snoc] at hnext
    refine heach.start ?_ call
    have hnumbers : (((ofBuffer b).run done).happen (.start number call)).holdings.map Prod.fst =
        ((ofBuffer b).run done).holdings.map Prod.fst ++ [number] := by
      simp [map_fst_holdings, happen]
    rw [hnumbers] at hnext
    exact fun hmem => (List.nodup_append.1 hnext).2.2 number hmem number List.mem_cons_self rfl
  | move place =>
    have hhere := hdistinct done ((List.prefix_append done _).trans hupto)
    rcases ((ofBuffer b).run done).happen_move_cases place with
      hstay | ⟨before, number, task, after, hpending, hmove⟩
    · rw [hstay]
      exact heach
    · rw [hmove]
      exact heach.resume hhere hpending _

end History

end StreamTap
