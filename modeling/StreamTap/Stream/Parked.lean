import StreamTap.Total
import StreamTap.Wire.Bytes
import StreamTap.Wire.Seq

/-!
# Parked segments

A segment that arrives ahead of a gap is parked under the sequence number it
starts at until the bytes before it have come.  At most one segment is parked
under a number, and the segments are kept in increasing order of it, so that two
collections with the same segments are equal.

The view of a collection is `find?`: the payload parked under a number.  Each
operation below comes with the lemma that says what it does to this view.
-/

namespace StreamTap

/-- Payload together with the sequence number of its first byte. -/
structure Segment where
  seq : Seq
  payload : Bytes
  deriving DecidableEq, Repr

/-- The segments that wait for a predecessor. -/
structure Parked where
  segments : List Segment
  ordered : segments.Pairwise (fun a b => a.seq < b.seq)
  deriving DecidableEq, Repr

namespace Parked

/-- Puts a segment at its place in an ordered list; a segment that starts at the
same number gives way to it. -/
def place (x : Segment) : List Segment → List Segment
  | [] => [x]
  | y :: ys =>
    if x.seq < y.seq then x :: y :: ys
    else if y.seq < x.seq then y :: place x ys
    else x :: ys

theorem mem_place {x z : Segment} {l : List Segment} (h : z ∈ place x l) : z = x ∨ z ∈ l := by
  induction l with
  | nil => exact Or.inl (by simpa [place] using h)
  | cons y ys ih =>
    unfold place at h
    split at h
    · simpa using h
    · split at h
      · rcases List.mem_cons.1 h with h | h
        · exact Or.inr (by simp [h])
        · exact (ih h).imp_right (List.mem_cons_of_mem _)
      · rcases List.mem_cons.1 h with h | h
        · exact Or.inl h
        · exact Or.inr (List.mem_cons_of_mem _ h)

theorem ordered_place (x : Segment) {l : List Segment}
    (h : l.Pairwise (fun a b => a.seq < b.seq)) :
    (place x l).Pairwise (fun a b => a.seq < b.seq) := by
  induction l with
  | nil => simp [place]
  | cons y ys ih =>
    have hy := List.pairwise_cons.1 h
    unfold place
    split
    · next hlt =>
      refine List.pairwise_cons.2 ⟨fun z hz => ?_, h⟩
      rcases List.mem_cons.1 hz with hz | hz
      · exact hz ▸ hlt
      · exact UInt32.lt_trans hlt (hy.1 z hz)
    · split
      · next hlt =>
        refine List.pairwise_cons.2 ⟨fun z hz => ?_, ih hy.2⟩
        rcases mem_place hz with hz | hz
        · exact hz ▸ hlt
        · exact hy.1 z hz
      · next hnlt hngt =>
        have heq : x.seq = y.seq :=
          UInt32.le_antisymm (UInt32.not_lt.1 hngt) (UInt32.not_lt.1 hnlt)
        exact List.pairwise_cons.2 ⟨fun z hz => heq ▸ hy.1 z hz, hy.2⟩

def empty : Parked := ⟨[], .nil⟩

/-- Parks a payload under a number, in place of what was parked there. -/
def insert (p : Parked) (seq : Seq) (payload : Bytes) : Parked :=
  ⟨place ⟨seq, payload⟩ p.segments, ordered_place _ p.ordered⟩

/-- Keeps only the segments whose number satisfies `keep`. -/
def filter (p : Parked) (keep : Seq → Bool) : Parked :=
  ⟨p.segments.filter (fun x => keep x.seq), p.ordered.filter _⟩

/-- Gives up what is parked under a number. -/
def erase (p : Parked) (seq : Seq) : Parked := p.filter (fun s => s != seq)

/-- The payload parked under a number. -/
def find? (p : Parked) (seq : Seq) : Option Bytes :=
  (p.segments.find? (fun x => x.seq == seq)).map (·.payload)

def size (p : Parked) : Nat := p.segments.length

def bytes (p : Parked) : Nat := total (·.payload.length) p.segments

@[simp] theorem find?_empty (s : Seq) : empty.find? s = none := rfl

theorem find?_place_self (x : Segment) (l : List Segment) :
    (place x l).find? (fun y => y.seq == x.seq) = some x := by
  induction l with
  | nil => simp [place]
  | cons y ys ih =>
    unfold place
    split
    · simp
    · split
      · next hlt => simp [UInt32.ne_of_lt hlt, ih]
      · simp

theorem find?_place_of_ne (x : Segment) (l : List Segment) {s : Seq} (h : x.seq ≠ s) :
    (place x l).find? (fun y => y.seq == s) = l.find? (fun y => y.seq == s) := by
  induction l with
  | nil => simp [place, h]
  | cons y ys ih =>
    unfold place
    split
    · simp [List.find?_cons, h]
    · split
      · simp only [List.find?_cons, ih]
      · next hnlt hngt =>
        have heq : x.seq = y.seq :=
          UInt32.le_antisymm (UInt32.not_lt.1 hngt) (UInt32.not_lt.1 hnlt)
        simp [h, ← heq]

theorem find?_insert_self (p : Parked) (s : Seq) (payload : Bytes) :
    (p.insert s payload).find? s = some payload := by
  simp [find?, insert, find?_place_self ⟨s, payload⟩]

theorem find?_insert_of_ne (p : Parked) {s t : Seq} (payload : Bytes) (h : s ≠ t) :
    (p.insert s payload).find? t = p.find? t := by
  simp [find?, insert, find?_place_of_ne ⟨s, payload⟩ _ h]

theorem find?_filter (p : Parked) (keep : Seq → Bool) (s : Seq) :
    (p.filter keep).find? s = if keep s then p.find? s else none := by
  obtain ⟨l, hl⟩ := p
  simp only [find?, filter]
  induction l with
  | nil => simp
  | cons y ys ih =>
    have ih := ih (List.pairwise_cons.1 hl).2
    rw [List.filter_cons]
    by_cases hy : y.seq = s
    · subst hy
      by_cases hk : keep y.seq
      · simp [hk]
      · simpa [hk] using ih
    · by_cases hk : keep y.seq
      · simpa [hk, List.find?_cons, hy] using ih
      · simpa [hk, List.find?_cons, hy] using ih

@[simp] theorem find?_erase_self (p : Parked) (s : Seq) : (p.erase s).find? s = none := by
  simp [erase, find?_filter]

theorem find?_erase_of_ne (p : Parked) {s t : Seq} (h : t ≠ s) :
    (p.erase s).find? t = p.find? t := by
  simp [erase, find?_filter, h]

end Parked

end StreamTap
