/-!
# Totals

The total of a list is what its members count for together, where a measure says
what each of them counts for.  The laws below say how a total changes when a member
joins the list, when two lists are joined, and when a list is split by a condition.
-/

namespace StreamTap

/-- What the members of a list count for together. -/
def total {α : Type} (measure : α → Nat) : List α → Nat
  | [] => 0
  | a :: as => measure a + total measure as

variable {α : Type} {measure : α → Nat}

@[simp] theorem total_nil : total measure [] = 0 := rfl

@[simp] theorem total_cons (a : α) (as : List α) :
    total measure (a :: as) = measure a + total measure as := rfl

@[simp] theorem total_append (as bs : List α) :
    total measure (as ++ bs) = total measure as + total measure bs := by
  induction as with
  | nil => simp
  | cons a as ih =>
    simp only [List.cons_append, total_cons, ih]
    omega

theorem total_perm {as bs : List α} (h : as.Perm bs) : total measure as = total measure bs := by
  induction h with
  | nil => rfl
  | cons a _ ih => rw [total_cons, total_cons, ih]
  | swap a b as =>
    simp only [total_cons]
    omega
  | trans _ _ ih₁ ih₂ => exact ih₁.trans ih₂

theorem total_map {β : Type} (f : β → α) (bs : List β) :
    total measure (bs.map f) = total (fun b => measure (f b)) bs := by
  induction bs with
  | nil => rfl
  | cons b bs ih => rw [List.map_cons, total_cons, total_cons, ih]

theorem total_one (as : List α) : total (fun _ => 1) as = as.length := by
  induction as with
  | nil => rfl
  | cons a as ih => simp [ih, Nat.add_comm]

theorem total_length_eq {β : Type} (ls : List (List β)) :
    total List.length ls = ls.flatten.length := by
  induction ls with
  | nil => rfl
  | cons l ls ih => rw [total_cons, ih, List.flatten_cons, List.length_append]

theorem length_flatMap_eq {β : Type} (f : α → List β) (as : List α) :
    (as.flatMap f).length = total (fun a => (f a).length) as := by
  rw [List.flatMap_def, ← total_length_eq, total_map]

theorem total_filter_add_total_filter_not (p : α → Bool) (as : List α) :
    total measure (as.filter p) + total measure (as.filter (fun a => !p a))
      = total measure as := by
  induction as with
  | nil => rfl
  | cons a as ih =>
    rw [total_cons, ← ih]
    by_cases h : p a
    · simp [h, Nat.add_assoc]
    · simp [h, Nat.add_left_comm]

end StreamTap
