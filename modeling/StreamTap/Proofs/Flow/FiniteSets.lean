import Mathlib.Data.Finset.Basic
import Mathlib.Data.Finset.Card
import Mathlib.Data.Multiset.Sort
import Mathlib.Data.String.Basic
import StreamTap.Flow.Workspace

/-!
# Named sets of flows are finite sets

A set of flows is kept as a list, and which list it is depends on how the set came about.
What can be asked of a set does not: its `finset` has the same members, and every operation
on sets of flows is the operation of the same name on finite sets.  That holds for both ways
in which an intersection is found, so it does not matter which of the sets is the smaller one.

A workspace is then a finite set under each name.  A request writes under one name,
`Request.written`, what it computes from the sets under the names it reads, `Request.outcome`,
and it tells what `Request.answer` says (`finsets_run`).  Neither of the three looks at
whether the two sets of a request are one: the ways that the workspace takes in this case
lead to the same sets and the same replies.

Sets share nothing.  Since a request writes under one name only, a copy of a set, or what two
sets have in common, stays as it was until a request writes under the name of the copy.
-/

namespace StreamTap

namespace FlowSet

/-- The flows of a set, in no order. -/
def finset (s : FlowSet) : Finset Flow := ⟨s.flows, Multiset.coe_nodup.2 s.nodup⟩

@[simp] theorem mem_finset {s : FlowSet} {f : Flow} : f ∈ s.finset ↔ f ∈ s := Iff.rfl

@[simp] theorem finset_empty : empty.finset = ∅ := rfl

@[simp] theorem finset_insert (s : FlowSet) (f : Flow) :
    (s.insert f).finset = Insert.insert f s.finset := by
  ext g
  simp

@[simp] theorem finset_erase (s : FlowSet) (f : Flow) : (s.erase f).finset = s.finset.erase f := by
  ext g
  simp [and_comm]

@[simp] theorem finset_union (s t : FlowSet) : (s.union t).finset = s.finset ∪ t.finset := by
  ext f
  simp

@[simp] theorem finset_difference (s t : FlowSet) :
    (s.difference t).finset = s.finset \ t.finset := by
  ext f
  simp

theorem finset_filter_mem (s t : FlowSet) :
    (s.filter fun f => decide (f ∈ t)).finset = s.finset ∩ t.finset ∧
      (t.filter fun f => decide (f ∈ s)).finset = s.finset ∩ t.finset := by
  constructor <;> ext f
  · simp
  · simp [and_comm]

@[simp] theorem finset_intersection (s t : FlowSet) :
    (s.intersection t).finset = s.finset ∩ t.finset := by
  unfold intersection
  split
  · exact (s.finset_filter_mem t).1
  · exact (s.finset_filter_mem t).2

@[simp] theorem finset_ofList (fs : List Flow) : (ofList fs).finset = fs.toFinset := by
  ext f
  simp

@[simp] theorem card_finset (s : FlowSet) : s.finset.card = s.size := rfl

theorem finset_eq_empty_iff (s : FlowSet) : s.finset = ∅ ↔ s.size = 0 := Finset.card_eq_zero.symm

end FlowSet

/-- The texts of the flows in a finite set, in increasing order. -/
def listing (s : Finset Flow) : List String := (s.val.map Flow.text).sort

theorem FlowSet.listing_finset (s : FlowSet) : StreamTap.listing s.finset = s.listing := rfl

namespace Workspace

/-- A finite set of flows under each name. -/
abbrev Finsets := String → Finset Flow

/-- The sets of a workspace; under a name that was not mentioned the empty one. -/
def finsets (w : Workspace) : Finsets := fun name => (w.get name).finset

/-! ## Programs on finite sets -/

namespace Request

/-- The name under which a request may change the set. -/
def written (r : Request) : String :=
  match r.command with
  | .intersection into => into
  | .clone into => into
  | _ => r.target

/-- The set that is under the written name afterwards. -/
def outcome (r : Request) (sets : Finsets) : Finset Flow :=
  match r.command with
  | .add f => insert f (sets r.target)
  | .remove f => (sets r.target).erase f
  | .has _ => sets r.target
  | .size => sets r.target
  | .isEmpty => sets r.target
  | .members => sets r.target
  | .addAll => sets r.target ∪ sets r.second
  | .removeAll => sets r.target \ sets r.second
  | .intersection _ => sets r.target ∩ sets r.second
  | .clone _ => sets r.target
  | .collect fs => fs.toFinset

def apply (r : Request) (sets : Finsets) : Finsets :=
  Function.update sets r.written (r.outcome sets)

/-- What a request tells about the sets before it. -/
def answer (r : Request) (sets : Finsets) : Reply :=
  match r.command with
  | .add f => .flag (decide (f ∉ sets r.target))
  | .remove f => .flag (decide (f ∈ sets r.target))
  | .has f => .flag (decide (f ∈ sets r.target))
  | .size => .count (sets r.target).card
  | .isEmpty => .flag (decide (sets r.target = ∅))
  | .members => .flows (listing (sets r.target))
  | .addAll => .nothing
  | .removeAll => .nothing
  | .intersection _ => .flows (listing (sets r.target ∩ sets r.second))
  | .clone _ => .nothing
  | .collect _ => .nothing

theorem apply_written (r : Request) (sets : Finsets) : r.apply sets r.written = r.outcome sets :=
  Function.update_self ..

theorem apply_of_ne {r : Request} {name : String} (h : r.written ≠ name) (sets : Finsets) :
    r.apply sets name = sets name :=
  Function.update_of_ne h.symm ..

end Request

def Finsets.applyAll (sets : Finsets) : List Request → Finsets × List Reply
  | [] => (sets, [])
  | r :: rest =>
    let (last, replies) := Finsets.applyAll (r.apply sets) rest
    (last, r.answer sets :: replies)

/-! ## A workspace runs such a program -/

variable (w : Workspace)

theorem finsets_put (name : String) (s : FlowSet) :
    (w.put name s).finsets = Function.update w.finsets name s.finset := by
  funext other
  by_cases h : other = name
  · subst h
    simp [finsets, put, get, Registry.find?_insert_self]
  · rw [Function.update_of_ne h]
    simp [finsets, put, get, Registry.find?_insert_of_ne _ _ (Ne.symm h)]

/-- To mention a name changes no set: one that is not there has no members. -/
@[simp] theorem finsets_mention (name : String) : (w.mention name).finsets = w.finsets := by
  funext other
  by_cases h : other = name
  · subst h
    simp only [finsets, mention, get, Registry.find?_ensure_self, Option.getD_some]
  · simp [finsets, mention, get, Registry.find?_ensure_of_ne _ _ (Ne.symm h)]

theorem finset_get (name : String) : (w.get name).finset = w.finsets name := rfl

theorem finsets_carryOut (r : Request) :
    (w.carryOut r).1.finsets = r.apply w.finsets ∧ (w.carryOut r).2 = r.answer w.finsets := by
  have hone : r.isAboutOne = true → r.second = r.target := fun h => beq_iff_eq.1 h
  unfold carryOut Request.apply Request.answer Request.written Request.outcome
  cases r.command with
  | add f => simp [finsets_put, finset_get, ← FlowSet.mem_finset]
  | remove f => simp [finsets_put, finset_get, ← FlowSet.mem_finset]
  | has f => simp [← finset_get]
  | size => simp [← finset_get]
  | isEmpty => simp [← finset_get, FlowSet.finset_eq_empty_iff, Bool.beq_eq_decide_eq]
  | members => simp [← finset_get, FlowSet.listing_finset]
  | addAll =>
    cases h : r.isAboutOne with
    | true => simp [hone h]
    | false => simp [finsets_put, finset_get]
  | removeAll =>
    cases h : r.isAboutOne with
    | true => simp [hone h, finsets_put]
    | false => simp [finsets_put, finset_get]
  | intersection into =>
    cases h : r.isAboutOne with
    | true => simp [hone h, finsets_put, finset_get, ← FlowSet.listing_finset]
    | false => simp [finsets_put, finset_get, ← FlowSet.listing_finset]
  | clone into => simp [finsets_put, finset_get]
  | collect fs => simp [finsets_put]

theorem finsets_run (r : Request) :
    (w.run r).1.finsets = r.apply w.finsets ∧ (w.run r).2 = r.answer w.finsets := by
  have hmentioned := finsets_carryOut ((w.mention r.target).mention r.second) r
  rwa [finsets_mention, finsets_mention] at hmentioned

theorem finsets_runAll (requests : List Request) :
    ((w.runAll requests).1.finsets, (w.runAll requests).2) =
      Finsets.applyAll w.finsets requests := by
  induction requests generalizing w with
  | nil => rfl
  | cons r rest ih =>
    obtain ⟨hsets, hreply⟩ := w.finsets_run r
    have hrest := ih (w.run r).1
    rw [hsets] at hrest
    rw [Finsets.applyAll, ← hrest, ← hreply]
    rfl

theorem finsets_runAll_of_ne {requests : List Request} {name : String}
    (h : ∀ r ∈ requests, r.written ≠ name) :
    (w.runAll requests).1.finsets name = w.finsets name := by
  induction requests generalizing w with
  | nil => rfl
  | cons r rest ih =>
    have hrest := ih (w.run r).1 fun r' hr' => h r' (List.mem_cons_of_mem _ hr')
    refine hrest.trans ?_
    rw [(w.finsets_run r).1]
    exact Request.apply_of_ne (h r List.mem_cons_self) _

/-- A flow is told to be new, or to have been a member, exactly when the set has changed. -/
theorem flag_iff_changed {r : Request} {f : Flow}
    (h : r.command = .add f ∨ r.command = .remove f) :
    (w.run r).2 = .flag true ↔ (w.run r).1.finsets r.target ≠ w.finsets r.target := by
  obtain ⟨hsets, hreply⟩ := w.finsets_run r
  have hwritten : r.written = r.target := by
    unfold Request.written
    rcases h with h | h <;> rw [h]
  have hafter : (w.run r).1.finsets r.target = r.outcome w.finsets := by
    rw [hsets, ← hwritten]
    exact r.apply_written _
  rw [hreply, hafter]
  unfold Request.answer Request.outcome
  rcases h with h | h <;> rw [h]
  · simp [Finset.insert_eq_self]
  · simp [Finset.erase_eq_self]

/-- Whatever is asked of a workspace, its sets afterwards and all replies are those of the same
program on finite sets.  A set that no request writes stays as it is.  A flow is told to be new,
or to have been a member, exactly when this changes the set.  A copy and an intersection stay what
they were when they were made, whatever becomes of the sets they were made from.  And it does not
matter in which order two sets are intersected, that is, which of them is the smaller one. -/
theorem runs_as_finite_sets (w : Workspace) (requests : List Request) :
    ((w.runAll requests).1.finsets, (w.runAll requests).2) =
        Finsets.applyAll w.finsets requests ∧
      (∀ name, (∀ r ∈ requests, r.written ≠ name) →
        (w.runAll requests).1.finsets name = w.finsets name) ∧
      (∀ r f, r.command = .add f ∨ r.command = .remove f →
        ((w.run r).2 = .flag true ↔ (w.run r).1.finsets r.target ≠ w.finsets r.target)) ∧
      (∀ r into, r.command = .clone into ∨ r.command = .intersection into →
        (∀ later ∈ requests, later.written ≠ into) →
        ((w.run r).1.runAll requests).1.finsets into = r.outcome w.finsets) ∧
      ∀ s t : FlowSet, (s.intersection t).finset = s.finset ∩ t.finset ∧
        (t.intersection s).finset = s.finset ∩ t.finset := by
  refine ⟨w.finsets_runAll requests, fun name => w.finsets_runAll_of_ne,
    fun r f => w.flag_iff_changed, ?_, ?_⟩
  · intro r into hcommand hlater
    have hwritten : r.written = into := by
      unfold Request.written
      rcases hcommand with h | h <;> rw [h]
    rw [finsets_runAll_of_ne _ hlater, (w.finsets_run r).1, ← hwritten]
    exact r.apply_written _
  · intro s t
    rw [FlowSet.finset_intersection, FlowSet.finset_intersection, Finset.inter_comm t.finset]
    exact ⟨rfl, rfl⟩

/-- A call from a client to a service. -/
def calling (client : UInt16) : Flow :=
  ⟨⟨.v4 ⟨10, 0, 0, 2⟩, client⟩, ⟨.v4 ⟨10, 0, 0, 1⟩, 50051⟩⟩

/-- A set with a repeated flow is copied, joined with itself and emptied by itself; the copy and
what it has in common with the set before are still there. -/
theorem runs_as_finite_sets_emptied :
    let w := (empty.runAll [⟨"live", none, .collect [calling 1, calling 2, calling 1]⟩]).1
    let later : List Request := [⟨"live", some "live", .addAll⟩, ⟨"live", none, .removeAll⟩]
    ((w.run ⟨"live", none, .clone "copy"⟩).1.runAll later).1.finsets "copy" =
        {calling 1, calling 2} ∧
      ((w.run ⟨"live", some "live", .intersection "common"⟩).1.runAll later).1.finsets "common" =
        {calling 1, calling 2} ∧
      (w.runAll later).1.finsets "live" = ∅ ∧
      (w.run ⟨"live", none, .add (calling 2)⟩).2 ≠ .flag true := by
  intro w later
  obtain ⟨hall, -, hflag, hcopies, -⟩ := runs_as_finite_sets w later
  have hlater : ∀ name, name ≠ "live" → ∀ r ∈ later, r.written ≠ name := by
    intro name hname r hr
    simp only [later, List.mem_cons, List.not_mem_nil, or_false] at hr
    rcases hr with rfl | rfl <;> exact hname.symm
  refine ⟨?_, ?_, ?_, ?_⟩
  · exact (hcopies _ "copy" (Or.inl rfl) (hlater _ (by decide))).trans (by decide)
  · exact (hcopies _ "common" (Or.inr rfl) (hlater _ (by decide))).trans (by decide)
  · exact (congrFun (congrArg Prod.fst hall) "live").trans (by decide)
  · rw [ne_eq, hflag _ (calling 2) (Or.inl rfl)]
    decide

end Workspace

end StreamTap
