import StreamTap.Wire.Seq

/-!
# Distances between sequence numbers

The window is decided by comparing words that may have wrapped.  What it decides is
a statement about numbers: a position is inside exactly when its distance from the
expected one is at most the window (`inWindow_iff_distance_le`).

A position of the stream is a number without bound, and `s.advance n` is the
sequence number it is sent under.  Positions less than `2 ^ 32` apart never share
one (`eq_of_advance_eq`).  Of two such positions the later one is as far ahead as it
should be, and the earlier one lies almost a full circle ahead.  So a window finds
what is ahead of it, and mistakes nothing behind it for something ahead as long as
the two together are less than the circle.  Where exactly that ends, for windows of any
width, is said in `inWindow_around`.
-/

namespace StreamTap

namespace Seq

theorem toNat_advance (s : Seq) (n : Nat) :
    (s.advance n).toNat = (s.toNat + n) % UInt32.size := by
  simp [advance, UInt32.toNat_add, UInt32.size]

theorem inWindow_iff_distance_le (expected : Seq) (window : UInt32) (s : Seq) :
    inWindow expected window s = true ↔ distance expected s ≤ window.toNat := by
  have he := expected.toNat_lt
  have hw := window.toNat_lt
  have hs := s.toNat_lt
  have hright : (expected + window).toNat = (expected.toNat + window.toNat) % UInt32.size :=
    UInt32.toNat_add ..
  have hdist : distance expected s = (UInt32.size - expected.toNat + s.toNat) % UInt32.size :=
    UInt32.toNat_sub ..
  simp only [UInt32.size] at hright hdist
  rw [hdist]
  simp only [inWindow]
  split
  · next hwrap =>
    rw [UInt32.lt_iff_toNat_lt, hright] at hwrap
    simp only [Bool.or_eq_true, decide_eq_true_eq, UInt32.le_iff_toNat_le, hright]
    omega
  · next hflat =>
    rw [UInt32.lt_iff_toNat_lt, hright] at hflat
    simp only [Bool.and_eq_true, decide_eq_true_eq, UInt32.le_iff_toNat_le, hright]
    omega

theorem eq_of_distance_eq {expected s t : Seq} (h : distance expected s = distance expected t) :
    s = t := by
  have he := expected.toNat_lt
  have hs := s.toNat_lt
  have ht := t.toNat_lt
  simp only [distance, UInt32.toNat_sub] at h
  exact UInt32.toNat_inj.1 (by omega)

theorem advance_distance (s t : Seq) : s.advance (distance s t) = t := by
  rw [advance, distance, UInt32.ofNat_toNat, UInt32.add_comm, UInt32.sub_add_cancel]

theorem distance_eq_zero_iff {expected s : Seq} : distance expected s = 0 ↔ s = expected := by
  constructor
  · exact fun h => eq_of_distance_eq (h.trans (distance_self expected).symm)
  · rintro rfl
    exact distance_self s

/-! ## Positions of one stream -/

section Positions

variable (s : Seq) {m n : Nat}

theorem distance_advance :
    distance (s.advance m) (s.advance n) =
      (n + (UInt32.size - m % UInt32.size)) % UInt32.size := by
  have hs := s.toNat_lt
  simp only [distance, UInt32.toNat_sub, toNat_advance, UInt32.size]
  omega

theorem distance_advance_of_le (h : m ≤ n) (hlt : n - m < UInt32.size) :
    distance (s.advance m) (s.advance n) = n - m := by
  simp only [UInt32.size] at hlt
  rw [distance_advance, UInt32.size]
  omega

theorem distance_advance_self (hlt : n < UInt32.size) : distance s (s.advance n) = n := by
  have hahead := s.distance_advance_of_le (Nat.zero_le n) hlt
  rwa [advance_zero, Nat.sub_zero] at hahead

theorem distance_advance_of_lt (h : n < m) (hlt : m - n < UInt32.size) :
    distance (s.advance m) (s.advance n) = UInt32.size - (m - n) := by
  simp only [UInt32.size] at hlt
  rw [distance_advance, UInt32.size]
  omega

theorem eq_of_advance_eq (h : s.advance m = s.advance n) (hmn : m < n + UInt32.size)
    (hnm : n < m + UInt32.size) : m = n := by
  have hs := s.toNat_lt
  have hnat := congrArg UInt32.toNat h
  rw [toNat_advance, toNat_advance] at hnat
  simp only [UInt32.size] at hmn hnm hnat
  omega

theorem inWindow_advance_of_le {window : UInt32} (h : m ≤ n) (hnear : n ≤ m + window.toNat) :
    inWindow (s.advance m) window (s.advance n) = true := by
  have hw := window.toNat_lt
  have hlt : n - m < UInt32.size := by
    simp only [UInt32.size]
    omega
  rw [inWindow_iff_distance_le, distance_advance_of_le s h hlt]
  omega

/-- A position ahead is outside the window when it is too far. -/
theorem inWindow_advance_of_far {window : UInt32} (h : m + window.toNat < n)
    (hround : n - m < UInt32.size) : inWindow (s.advance m) window (s.advance n) = false := by
  rw [Bool.eq_false_iff, ne_eq, inWindow_iff_distance_le,
    distance_advance_of_le s (by omega) hround]
  omega

/-- A position behind is outside the window unless the two nearly fill the circle. -/
theorem inWindow_advance_of_lt {window : UInt32} (h : n < m)
    (hfar : m - n + window.toNat < UInt32.size) :
    inWindow (s.advance m) window (s.advance n) = false := by
  rw [Bool.eq_false_iff, ne_eq, inWindow_iff_distance_le,
    distance_advance_of_lt s h (by omega)]
  omega

end Positions

/-! ## The window around the circle -/

/-- The distance is the difference of the two numbers, going around the circle once if that is
negative. -/
theorem distance_eq_emod (s t : Seq) :
    (distance s t : Int) = ((t.toNat : Int) - s.toNat) % UInt32.size := by
  have hs := s.toNat_lt
  have ht := t.toNat_lt
  have hdist : distance s t = (UInt32.size - s.toNat + t.toNat) % UInt32.size :=
    UInt32.toNat_sub ..
  simp only [UInt32.size] at hdist ⊢
  omega

theorem distance_add_right (s t k : Seq) : distance (s + k) (t + k) = distance s t := by
  have hs := s.toNat_lt
  have ht := t.toNat_lt
  have hk := k.toNat_lt
  simp only [distance, UInt32.toNat_sub, UInt32.toNat_add]
  omega

theorem distance_sub_ofNat (s : Seq) {d : Nat} (hpos : 1 ≤ d) (hlt : d < UInt32.size) :
    distance s (s - UInt32.ofNat d) = UInt32.size - d := by
  have hback : (s - UInt32.ofNat d).advance d = s := UInt32.sub_add_cancel ..
  have hahead := distance_advance_of_lt (s - UInt32.ofNat d) hpos hlt
  rwa [hback, advance_zero] at hahead

/-- The two cases of the window are one condition: what is inside is at most `window` ahead
modulo `2 ^ 32`.  So it does not matter where the expected position is, and a position behind
it is inside just if the window reaches around the circle as far as there. -/
theorem inWindow_around (expected : Seq) (window : UInt32) (s : Seq) :
    (inWindow expected window s = true ↔
        ((s.toNat : Int) - expected.toNat) % UInt32.size ≤ window.toNat) ∧
      (∀ k : UInt32, inWindow (expected + k) window (s + k) = inWindow expected window s) ∧
      ∀ d : Nat, 1 ≤ d → d < UInt32.size →
        (inWindow expected window (expected - UInt32.ofNat d) = true ↔
          UInt32.size - window.toNat ≤ d) := by
  refine ⟨?_, fun k => ?_, fun d hpos hlt => ?_⟩
  · rw [inWindow_iff_distance_le, ← distance_eq_emod, Int.ofNat_le]
  · rw [Bool.eq_iff_iff, inWindow_iff_distance_le, inWindow_iff_distance_le, distance_add_right]
  · rw [inWindow_iff_distance_le, distance_sub_ofNat expected hpos hlt]
    omega

/-- Ten bytes behind, across the wrap, is where the first of these windows ends and where the
second, which is one byte narrower, does not reach. -/
theorem inWindow_around_tenBehind :
    (1 ≤ 10 ∧ 10 < UInt32.size) ∧ inWindow 4 4294967286 (4 - UInt32.ofNat 10) = true ∧
      inWindow 4 4294967285 (4 - UInt32.ofNat 10) = false := by
  refine ⟨⟨by decide, by decide⟩, ?wide, ?narrow⟩
  case wide =>
    obtain ⟨-, -, hbehind⟩ := inWindow_around 4 4294967286 4
    exact (hbehind 10 (by decide) (by decide)).2 (by decide)
  case narrow =>
    obtain ⟨-, -, hbehind⟩ := inWindow_around 4 4294967285 4
    rw [Bool.eq_false_iff, ne_eq, hbehind 10 (by decide) (by decide)]
    decide

end Seq

end StreamTap
