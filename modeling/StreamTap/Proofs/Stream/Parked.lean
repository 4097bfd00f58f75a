import StreamTap.Stream.Parked

/-!
# How many segments are parked, and how much they hold

`Parked.size` and `Parked.bytes` are both totals over the parked segments, of one
for each and of its payload.  Parking adds one segment, up to the order, and giving up
takes one away (`perm_insert`, `perm_erase`).  From this follows what they do to a total,
for any measure, and the two counts are read off from it.
-/

namespace StreamTap

namespace Parked

theorem mem_segments_iff (p : Parked) (x : Segment) :
    x ∈ p.segments ↔ p.find? x.seq = some x.payload := by
  obtain ⟨l, hl⟩ := p
  simp only [find?, Option.map_eq_some_iff]
  constructor
  · intro hx
    induction l with
    | nil => cases hx
    | cons y ys ih =>
      have hy := List.pairwise_cons.1 hl
      rcases List.mem_cons.1 hx with rfl | hx
      · exact ⟨x, by simp, rfl⟩
      · obtain ⟨z, hz, hzx⟩ := ih hy.2 hx
        have hne : y.seq ≠ x.seq := UInt32.ne_of_lt (hy.1 x hx)
        exact ⟨z, by simpa [List.find?_cons, hne] using hz, hzx⟩
  · rintro ⟨z, hz, hzx⟩
    have hseq : z.seq = x.seq := by simpa using List.find?_some hz
    have hmem := List.mem_of_find?_eq_some hz
    cases z with
    | mk seq payload => cases x with
      | mk seq' payload' =>
        cases hseq
        cases hzx
        exact hmem

theorem find?_eq_none_iff (p : Parked) (s : Seq) :
    p.find? s = none ↔ ∀ x ∈ p.segments, x.seq ≠ s := by
  simp [find?, List.find?_eq_none]

theorem nodup_segments (p : Parked) : p.segments.Nodup := by
  refine List.Pairwise.imp ?_ p.ordered
  rintro x y hlt rfl
  exact UInt32.lt_irrefl _ hlt

theorem perm_segments (p : Parked) {l : List Segment} (hl : l.Nodup)
    (hview : ∀ x, x ∈ l ↔ p.find? x.seq = some x.payload) : p.segments.Perm l := by
  rw [List.perm_ext_iff_of_nodup p.nodup_segments hl]
  exact fun x => (p.mem_segments_iff x).trans (hview x).symm

theorem ext_find? {p q : Parked} (h : ∀ s, p.find? s = q.find? s) : p = q := by
  have hperm : p.segments.Perm q.segments := by
    refine p.perm_segments q.nodup_segments fun x => ?_
    rw [mem_segments_iff, h]
  have hsame : p.segments = q.segments := by
    refine hperm.eq_of_pairwise (fun x y _ _ hxy hyx => ?_) p.ordered q.ordered
    exact absurd (UInt32.lt_trans hxy hyx) (UInt32.lt_irrefl _)
  cases p
  cases q
  cases hsame
  rfl

theorem perm_cons {p q : Parked} {s : Seq} {payload : Bytes} (hfree : p.find? s = none)
    (hone : q.find? s = some payload) (hrest : ∀ t, t ≠ s → q.find? t = p.find? t) :
    q.segments.Perm (⟨s, payload⟩ :: p.segments) := by
  have hnew : (⟨s, payload⟩ : Segment) ∉ p.segments := fun hmem =>
    (p.find?_eq_none_iff s).1 hfree _ hmem rfl
  refine q.perm_segments (List.nodup_cons.2 ⟨hnew, p.nodup_segments⟩) fun x => ?_
  rw [List.mem_cons, mem_segments_iff]
  by_cases hx : x.seq = s
  · subst hx
    rw [hone, hfree]
    cases x
    simp [eq_comm]
  · rw [hrest _ hx]
    constructor
    · rintro (rfl | hold)
      · exact absurd rfl hx
      · exact hold
    · exact Or.inr

theorem perm_insert {p : Parked} {s : Seq} (payload : Bytes) (h : p.find? s = none) :
    (p.insert s payload).segments.Perm (⟨s, payload⟩ :: p.segments) :=
  perm_cons h (p.find?_insert_self s payload) fun _ ht => p.find?_insert_of_ne payload ht.symm

theorem perm_erase {p : Parked} {s : Seq} {payload : Bytes} (h : p.find? s = some payload) :
    p.segments.Perm (⟨s, payload⟩ :: (p.erase s).segments) :=
  perm_cons (p.find?_erase_self s) h fun _ ht => (p.find?_erase_of_ne ht).symm

/-! ## Totals -/

section Totals

variable (measure : Segment → Nat)

theorem size_eq_total (p : Parked) : p.size = total (fun _ => 1) p.segments :=
  (total_one p.segments).symm

theorem total_insert {p : Parked} {s : Seq} (payload : Bytes) (h : p.find? s = none) :
    total measure (p.insert s payload).segments
      = measure ⟨s, payload⟩ + total measure p.segments :=
  total_perm (perm_insert payload h)

theorem total_filter (p : Parked) (keep : Seq → Bool) :
    total measure (p.filter keep).segments
      + total measure (p.filter (fun s => !keep s)).segments = total measure p.segments :=
  total_filter_add_total_filter_not (fun x => keep x.seq) p.segments

theorem total_erase {p : Parked} {s : Seq} {payload : Bytes} (h : p.find? s = some payload) :
    total measure (p.erase s).segments + measure ⟨s, payload⟩ = total measure p.segments := by
  rw [total_perm (perm_erase h), total_cons, Nat.add_comm]

end Totals

/-! ## The two counts -/

section Counts

variable {p : Parked} {s : Seq} {payload : Bytes}

theorem size_insert (payload : Bytes) (h : p.find? s = none) :
    (p.insert s payload).size = p.size + 1 := by
  rw [size_eq_total, size_eq_total, total_insert _ payload h, Nat.add_comm]

theorem bytes_insert (payload : Bytes) (h : p.find? s = none) :
    (p.insert s payload).bytes = p.bytes + payload.length := by
  rw [bytes, bytes, total_insert _ payload h, Nat.add_comm]

theorem size_erase (h : p.find? s = some payload) : (p.erase s).size + 1 = p.size := by
  rw [size_eq_total, size_eq_total, total_erase (fun _ => 1) h]

theorem bytes_erase (h : p.find? s = some payload) :
    (p.erase s).bytes + payload.length = p.bytes :=
  total_erase (·.payload.length) h

theorem size_filter (p : Parked) (keep : Seq → Bool) :
    (p.filter keep).size + (p.filter (fun s => !keep s)).size = p.size := by
  simp only [size_eq_total]
  exact total_filter _ p keep

theorem bytes_filter (p : Parked) (keep : Seq → Bool) :
    (p.filter keep).bytes + (p.filter (fun s => !keep s)).bytes = p.bytes :=
  total_filter _ p keep

end Counts

end Parked

end StreamTap
