import StreamTap.Flow.Basic

/-!
# Sets of flows

A finite set of flows, kept as a list without repetitions.  Its view is
membership, and every operation comes with the lemma that says which flows are
members afterwards.  A listing of the members is sorted by their text, because a
set has no order of its own.
-/

namespace StreamTap

/-- A finite set of flows. -/
structure FlowSet where
  flows : List Flow
  nodup : flows.Nodup
  deriving DecidableEq, Repr

namespace FlowSet

instance : Membership Flow FlowSet := ⟨fun s f => f ∈ s.flows⟩

instance (f : Flow) (s : FlowSet) : Decidable (f ∈ s) :=
  inferInstanceAs (Decidable (f ∈ s.flows))

def empty : FlowSet := ⟨[], .nil⟩

def insert (s : FlowSet) (f : Flow) : FlowSet :=
  if h : f ∈ s.flows then s else ⟨f :: s.flows, List.nodup_cons.2 ⟨h, s.nodup⟩⟩

/-- The members that satisfy a condition. -/
def filter (s : FlowSet) (keep : Flow → Bool) : FlowSet :=
  ⟨s.flows.filter keep, s.nodup.filter keep⟩

def erase (s : FlowSet) (f : Flow) : FlowSet := s.filter (fun g => g != f)

def ofList (fs : List Flow) : FlowSet := fs.foldl insert empty

def union (s t : FlowSet) : FlowSet := t.flows.foldl insert s

def difference (s t : FlowSet) : FlowSet := t.flows.foldl erase s

def size (s : FlowSet) : Nat := s.flows.length

/-- The members of both sets, found by looking through the smaller one. -/
def intersection (s t : FlowSet) : FlowSet :=
  if s.size ≤ t.size then s.filter (fun f => decide (f ∈ t))
  else t.filter (fun f => decide (f ∈ s))

/-- The members as text, in increasing order. -/
def listing (s : FlowSet) : List String :=
  (s.flows.map Flow.text).mergeSort (fun a b => decide (a ≤ b))

@[simp] theorem not_mem_empty (f : Flow) : ¬ f ∈ empty := List.not_mem_nil

@[simp] theorem mem_insert {s : FlowSet} {f g : Flow} : g ∈ s.insert f ↔ g = f ∨ g ∈ s := by
  unfold insert
  split
  · next h =>
    refine ⟨Or.inr, fun hg => hg.elim (fun hg => ?_) id⟩
    exact hg ▸ h
  · exact List.mem_cons

@[simp] theorem mem_filter {s : FlowSet} {keep : Flow → Bool} {f : Flow} :
    f ∈ s.filter keep ↔ f ∈ s ∧ keep f = true :=
  List.mem_filter

@[simp] theorem mem_erase {s : FlowSet} {f g : Flow} : g ∈ s.erase f ↔ g ∈ s ∧ g ≠ f := by
  simp [erase]

theorem mem_foldl_insert {fs : List Flow} {s : FlowSet} {g : Flow} :
    g ∈ fs.foldl insert s ↔ g ∈ s ∨ g ∈ fs := by
  induction fs generalizing s with
  | nil => simp
  | cons f fs ih =>
    simp only [List.foldl_cons, ih, mem_insert, List.mem_cons]
    constructor
    · rintro ((h | h) | h)
      · exact .inr (.inl h)
      · exact .inl h
      · exact .inr (.inr h)
    · rintro (h | h | h)
      · exact .inl (.inr h)
      · exact .inl (.inl h)
      · exact .inr h

theorem mem_foldl_erase {fs : List Flow} {s : FlowSet} {g : Flow} :
    g ∈ fs.foldl erase s ↔ g ∈ s ∧ g ∉ fs := by
  induction fs generalizing s with
  | nil => simp
  | cons f fs ih =>
    simp only [List.foldl_cons, ih, mem_erase, List.mem_cons, not_or, and_assoc]

@[simp] theorem mem_ofList {fs : List Flow} {g : Flow} : g ∈ ofList fs ↔ g ∈ fs := by
  simp [ofList, mem_foldl_insert]

@[simp] theorem mem_union {s t : FlowSet} {g : Flow} : g ∈ s.union t ↔ g ∈ s ∨ g ∈ t :=
  mem_foldl_insert

@[simp] theorem mem_difference {s t : FlowSet} {g : Flow} :
    g ∈ s.difference t ↔ g ∈ s ∧ g ∉ t :=
  mem_foldl_erase

@[simp] theorem mem_intersection {s t : FlowSet} {g : Flow} :
    g ∈ s.intersection t ↔ g ∈ s ∧ g ∈ t := by
  unfold intersection
  split
  · simp
  · simp [and_comm]

end FlowSet

end StreamTap
