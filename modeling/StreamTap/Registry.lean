/-!
# Registries

A registry files values under keys, at most one under a key.  Its view is
`find?`, and the two lemmas beside each operation say what it does to this view,
at its own key and at every other one.  The order of the entries is the order in
which the keys were first filed, and nothing but a listing depends on it.
-/

namespace StreamTap

/-- Values filed under keys. -/
structure Registry (κ α : Type) where
  entries : List (κ × α)
  nodup_keys : (entries.map Prod.fst).Nodup
  deriving DecidableEq, Repr

namespace Registry

variable {κ α : Type} [DecidableEq κ]

/-- Files a value in a list of entries, in place of the one under the same key. -/
def put (k : κ) (a : α) : List (κ × α) → List (κ × α)
  | [] => [(k, a)]
  | (j, b) :: rest => if j = k then (k, a) :: rest else (j, b) :: put k a rest

theorem mem_keys_put {k j : κ} {a : α} {l : List (κ × α)}
    (h : j ∈ (put k a l).map Prod.fst) : j = k ∨ j ∈ l.map Prod.fst := by
  induction l with
  | nil => exact Or.inl (by simpa [put] using h)
  | cons e rest ih =>
    obtain ⟨i, b⟩ := e
    simp only [put] at h
    split at h
    · simp only [List.map_cons, List.mem_cons] at h ⊢
      rcases h with h | h
      · exact Or.inl h
      · exact Or.inr (Or.inr h)
    · simp only [List.map_cons, List.mem_cons] at h ⊢
      rcases h with h | h
      · exact Or.inr (Or.inl h)
      · exact (ih h).imp_right Or.inr

theorem nodup_keys_put (k : κ) (a : α) {l : List (κ × α)}
    (h : (l.map Prod.fst).Nodup) : ((put k a l).map Prod.fst).Nodup := by
  induction l with
  | nil => simp [put]
  | cons e rest ih =>
    obtain ⟨i, b⟩ := e
    simp only [List.map_cons, List.nodup_cons] at h
    simp only [put]
    split
    · next heq => exact List.nodup_cons.2 ⟨heq ▸ h.1, h.2⟩
    · next hne =>
      refine List.nodup_cons.2 ⟨fun hi => ?_, ih h.2⟩
      exact (mem_keys_put hi).elim hne h.1

def empty : Registry κ α := ⟨[], .nil⟩

def insert (r : Registry κ α) (k : κ) (a : α) : Registry κ α :=
  ⟨put k a r.entries, nodup_keys_put k a r.nodup_keys⟩

def erase (r : Registry κ α) (k : κ) : Registry κ α where
  entries := r.entries.filter (fun e => e.1 != k)
  nodup_keys := r.nodup_keys.sublist (List.filter_sublist.map _)

def find? (r : Registry κ α) (k : κ) : Option α :=
  (r.entries.find? (fun e => e.1 == k)).map Prod.snd

def contains (r : Registry κ α) (k : κ) : Bool := (r.find? k).isSome

/-- Files a value under a key that has none yet. -/
def ensure (r : Registry κ α) (k : κ) (a : α) : Registry κ α :=
  if r.contains k then r else r.insert k a

def size (r : Registry κ α) : Nat := r.entries.length

def keys (r : Registry κ α) : List κ := r.entries.map Prod.fst

/-- The values, in the order of their keys. -/
def values (r : Registry κ α) : List α := r.entries.map Prod.snd

@[simp] theorem find?_empty (k : κ) : (empty : Registry κ α).find? k = none := rfl

theorem find?_insert_self (r : Registry κ α) (k : κ) (a : α) :
    (r.insert k a).find? k = some a := by
  obtain ⟨l, hl⟩ := r
  simp only [find?, insert]
  clear hl
  induction l with
  | nil => simp [put]
  | cons e rest ih =>
    obtain ⟨i, b⟩ := e
    by_cases h : i = k
    · simp [put, h]
    · simpa [put, h, List.find?_cons] using ih

theorem find?_insert_of_ne (r : Registry κ α) {k j : κ} (a : α) (h : k ≠ j) :
    (r.insert k a).find? j = r.find? j := by
  obtain ⟨l, hl⟩ := r
  simp only [find?, insert]
  clear hl
  induction l with
  | nil => simp [put, h]
  | cons e rest ih =>
    obtain ⟨i, b⟩ := e
    by_cases hi : i = k
    · subst hi
      simp [put, h]
    · by_cases hj : i = j
      · subst hj
        simp [put, hi]
      · simpa [put, hi, hj, List.find?_cons] using ih

@[simp] theorem find?_erase_self (r : Registry κ α) (k : κ) : (r.erase k).find? k = none := by
  simp [find?, erase]

theorem find?_erase_of_ne (r : Registry κ α) {k j : κ} (h : k ≠ j) :
    (r.erase k).find? j = r.find? j := by
  obtain ⟨l, hl⟩ := r
  simp only [find?, erase]
  clear hl
  induction l with
  | nil => simp
  | cons e rest ih =>
    obtain ⟨i, b⟩ := e
    rw [List.filter_cons]
    by_cases hi : i = k
    · subst hi
      simpa [h] using ih
    · by_cases hj : i = j
      · subst hj
        simp [hi]
      · simpa [hi, hj, List.find?_cons] using ih

theorem find?_ensure_self (r : Registry κ α) (k : κ) (a : α) :
    (r.ensure k a).find? k = some ((r.find? k).getD a) := by
  unfold ensure contains
  cases h : r.find? k with
  | some b => simp [h]
  | none => simp [find?_insert_self]

theorem find?_ensure_of_ne (r : Registry κ α) {k j : κ} (a : α) (h : k ≠ j) :
    (r.ensure k a).find? j = r.find? j := by
  unfold ensure
  split
  · rfl
  · exact r.find?_insert_of_ne a h

end Registry

end StreamTap
