import StreamTap.Stream.Buffer

/-!
# Layouts

A `Layout` says which segments of a stream there are: at most one starts at each
offset, none is empty, and they are finitely many.  They may overlap and they may
leave gaps.

From an offset on, a layout determines a *chain*: the segment that starts there, the
one that starts where the first ends, and so on until no segment starts at the offset
that was reached.  A buffer that follows a stream follows its chain; the segments that
start inside a link of it are never wanted.

The segments into which a stream was cut lie one behind the other, and they are their
own chain (`chain_ofSegments`).
-/

namespace StreamTap

/-- The segments of a stream by the offsets they start at. -/
structure Layout where
  /-- The segment that starts at an offset. -/
  entry? : Nat → Option Bytes
  /-- Every segment starts before this offset. -/
  bound : Nat
  inside : ∀ {o p}, entry? o = some p → o < bound
  nonempty : ∀ {o p}, entry? o = some p → p ≠ []

namespace Layout

variable (m : Layout)

theorem length_pos {o : Nat} {p : Bytes} (h : m.entry? o = some p) : 0 < p.length :=
  List.length_pos_iff.2 (m.nonempty h)

/-- The segments that follow on one another from an offset on. -/
def chain (o : Nat) : List Bytes :=
  match _h : m.entry? o with
  | none => []
  | some p => p :: chain (o + p.length)
termination_by m.bound - o
decreasing_by
  have hinside := m.inside _h
  have hlength := m.length_pos _h
  omega

theorem chain_of_none {o : Nat} (h : m.entry? o = none) : m.chain o = [] := by
  rw [chain]
  split
  · rfl
  · next p hp =>
    rw [h] at hp
    cases hp

theorem chain_of_some {o : Nat} {p : Bytes} (h : m.entry? o = some p) :
    m.chain o = p :: m.chain (o + p.length) := by
  rw [chain]
  split
  · next hnone =>
    rw [h] at hnone
    cases hnone
  · next q hq =>
    rw [h] at hq
    cases hq
    rfl

/-- How far the chain from an offset on reaches. -/
def reach (o : Nat) : Nat := o + total List.length (m.chain o)

theorem le_reach (o : Nat) : o ≤ m.reach o := Nat.le_add_right ..

theorem reach_of_none {o : Nat} (h : m.entry? o = none) : m.reach o = o := by
  rw [reach, m.chain_of_none h, total_nil, Nat.add_zero]

theorem reach_of_some {o : Nat} {p : Bytes} (h : m.entry? o = some p) :
    m.reach o = m.reach (o + p.length) := by
  rw [reach, reach, m.chain_of_some h, total_cons, Nat.add_assoc]

theorem reach_le {n : Nat} (h : ∀ {o p}, m.entry? o = some p → o + p.length ≤ n) (o : Nat) :
    m.reach o ≤ max o n := by
  induction o using chain.induct m with
  | case1 o hnone =>
    rw [m.reach_of_none hnone]
    exact Nat.le_max_left o n
  | case2 o p hsome ih =>
    have hend := h hsome
    rw [m.reach_of_some hsome]
    omega

theorem chain_congr {m' : Layout} {o : Nat} (h : ∀ n, o ≤ n → m'.entry? n = m.entry? n) :
    m'.chain o = m.chain o := by
  induction o using chain.induct m with
  | case1 o hnone =>
    rw [m.chain_of_none hnone, m'.chain_of_none ((h o (Nat.le_refl o)).trans hnone)]
  | case2 o p hsome ih =>
    rw [m.chain_of_some hsome, m'.chain_of_some ((h o (Nat.le_refl o)).trans hsome),
      ih fun n hn => h n (by omega)]

/-- The layout with one more segment, in place of any other that starts where it does. -/
def put (o : Nat) (p : Bytes) (h : p ≠ []) : Layout where
  entry? n := if n = o then some p else m.entry? n
  bound := max m.bound (o + 1)
  inside := by
    intro n q hq
    split at hq
    · omega
    · have hinside := m.inside hq
      omega
  nonempty := by
    intro n q hq
    split at hq
    · cases hq
      exact h
    · exact m.nonempty hq

section Put

variable {o : Nat} {p : Bytes} (h : p ≠ [])

theorem entry?_put_self : entry? (m.put o p h) o = some p := if_pos rfl

theorem entry?_put_of_ne {n : Nat} (hn : n ≠ o) : entry? (m.put o p h) n = m.entry? n :=
  if_neg hn

theorem chain_put : (m.put o p h).chain o = p :: m.chain (o + p.length) := by
  have hpos := List.length_pos_iff.2 h
  rw [(m.put o p h).chain_of_some (m.entry?_put_self h)]
  exact congrArg _ (m.chain_congr fun n hn => m.entry?_put_of_ne h (by omega))

theorem reach_put : (m.put o p h).reach o = m.reach (o + p.length) := by
  rw [reach, reach, m.chain_put h, total_cons, Nat.add_assoc]

end Put

def offsets : List Nat := (List.range m.bound).filter fun o => (m.entry? o).isSome

theorem mem_offsets_iff {o : Nat} : o ∈ m.offsets ↔ ∃ p, m.entry? o = some p := by
  simp only [offsets, List.mem_filter, List.mem_range, Option.isSome_iff_exists]
  constructor
  · exact fun h => h.2
  · rintro ⟨p, hp⟩
    exact ⟨m.inside hp, p, hp⟩

theorem nodup_offsets : m.offsets.Nodup := List.nodup_range.filter _

def payload (o : Nat) : Bytes := (m.entry? o).getD []

theorem payload_of_some {o : Nat} {p : Bytes} (h : m.entry? o = some p) : m.payload o = p := by
  rw [payload, h]
  rfl

/-- The segment at an offset of a stream that begins at number `s`. -/
def segment (s : Seq) (o : Nat) : Segment := ⟨s.advance o, m.payload o⟩

def writeAt (s : Seq) (o : Nat) : Write := .add (s.advance o) (m.payload o)

theorem isVoid_writeAt (s : Seq) {o : Nat} (h : o ∈ m.offsets) :
    (m.writeAt s o).isVoid = false := by
  obtain ⟨p, hp⟩ := m.mem_offsets_iff.1 h
  have hempty : p.isEmpty = false := by simp [m.nonempty hp]
  rw [writeAt, m.payload_of_some hp]
  exact hempty

/-! ## Streams cut into segments -/

/-- The segment that starts at an offset when `segments` lie one behind the other from
offset `base` on. -/
def startingAt (base : Nat) : List Bytes → Nat → Option Bytes
  | [], _ => none
  | p :: ps, o => if o = base then some p else startingAt (base + p.length) ps o

section StartingAt

variable {base o : Nat} {p : Bytes} {segments : List Bytes}

theorem mem_of_startingAt (h : startingAt base segments o = some p) : p ∈ segments := by
  induction segments generalizing base with
  | nil => cases h
  | cons q qs ih =>
    rw [startingAt] at h
    split at h
    · cases h
      exact List.mem_cons_self
    · exact List.mem_cons_of_mem _ (ih h)

theorem le_of_startingAt (h : startingAt base segments o = some p) :
    base ≤ o ∧ o + p.length ≤ base + total List.length segments := by
  induction segments generalizing base with
  | nil => cases h
  | cons q qs ih =>
    rw [startingAt] at h
    split at h
    · next hbase =>
      cases h
      rw [total_cons]
      omega
    · have hrest := ih h
      rw [total_cons]
      omega

theorem startingAt_pair {p₁ p₂ : Bytes} (h : startingAt base [p₁, p₂] o = some p) :
    (o = base ∧ p = p₁) ∨ (o = base + p₁.length ∧ p = p₂) := by
  rw [startingAt, startingAt, startingAt] at h
  split at h
  · next ho => exact Or.inl ⟨ho, (Option.some.inj h).symm⟩
  · split at h
    · next ho => exact Or.inr ⟨ho, (Option.some.inj h).symm⟩
    · cases h

end StartingAt

/-- What is left of a stream cut into segments when its first segment loses the bytes before
`rest`.  If nothing is left of it there is no such segment. -/
def behindCut (rest : Bytes) (segments : List Bytes) : List Bytes :=
  if rest.isEmpty then segments else rest :: segments

section BehindCut

variable {base o : Nat} {rest p : Bytes} {segments : List Bytes}

theorem behindCut_nil (segments : List Bytes) : behindCut [] segments = segments := rfl

theorem behindCut_of_ne_nil (h : rest ≠ []) : behindCut rest segments = rest :: segments := by
  simp [behindCut, h]

theorem flatten_behindCut (rest : Bytes) (segments : List Bytes) :
    (behindCut rest segments).flatten = rest ++ segments.flatten := by
  cases rest with
  | nil => rfl
  | cons x xs => rfl

theorem nonempty_behindCut (h : ∀ q ∈ segments, q ≠ []) :
    ∀ q ∈ behindCut rest segments, q ≠ [] := by
  intro q hq
  cases rest with
  | nil => exact h q hq
  | cons x xs =>
    rcases List.mem_cons.1 hq with rfl | hq
    · exact List.cons_ne_nil x xs
    · exact h q hq

theorem startingAt_behindCut_iff :
    startingAt base (behindCut rest segments) o = some p ↔
      (rest ≠ [] ∧ o = base ∧ p = rest) ∨
        startingAt (base + rest.length) segments o = some p := by
  cases rest with
  | nil => simp [behindCut_nil]
  | cons x xs =>
    rw [behindCut_of_ne_nil (List.cons_ne_nil x xs), startingAt]
    constructor
    · intro h
      split at h
      · next hbase =>
        cases h
        exact Or.inl ⟨List.cons_ne_nil x xs, hbase, rfl⟩
      · exact Or.inr h
    · rintro (⟨-, rfl, rfl⟩ | h)
      · rw [if_pos rfl]
      · have hle := le_of_startingAt h
        rw [if_neg (by simp only [List.length_cons] at hle; omega)]
        exact h

end BehindCut

/-- The layout of a stream that was cut into segments, the first of which starts at
offset `base`. -/
def ofSegments (base : Nat) (segments : List Bytes) (h : ∀ p ∈ segments, p ≠ []) : Layout where
  entry? := startingAt base segments
  bound := base + total List.length segments
  inside := by
    intro o p hp
    have hpos := List.length_pos_iff.2 (h p (mem_of_startingAt hp))
    have hle := le_of_startingAt hp
    omega
  nonempty := fun hp => h _ (mem_of_startingAt hp)

/-- A stream that was cut into segments is the chain of its layout. -/
theorem chain_ofSegments (base : Nat) (segments : List Bytes) (h : ∀ p ∈ segments, p ≠ []) :
    (ofSegments base segments h).chain base = segments := by
  -- Along the way the layout is that of the whole stream, the offset that of the rest.
  suffices hrest : ∀ (rest : List Bytes) (m : Layout) (o : Nat),
      (∀ n, o ≤ n → m.entry? n = startingAt o rest n) → m.chain o = rest from
    hrest segments _ base fun _ _ => rfl
  intro rest
  induction rest with
  | nil => exact fun m o hm => m.chain_of_none (hm o (Nat.le_refl o))
  | cons p ps ih =>
    intro m o hm
    have hhead : m.entry? o = some p := by
      rw [hm o (Nat.le_refl o), startingAt, if_pos rfl]
    have hpos := m.length_pos hhead
    rw [m.chain_of_some hhead, ih m (o + p.length)]
    intro n hn
    rw [hm n (by omega), startingAt, if_neg (by omega)]

end Layout

end StreamTap
