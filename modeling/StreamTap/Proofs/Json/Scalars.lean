import Mathlib.Data.List.TakeDrop
import Mathlib.Data.Nat.Init
import StreamTap.Json.Pretty
import StreamTap.Json.Record

/-!
# Booleans and numbers are read back

A reader takes a value off the front of a text.  It skips the blanks before the value, and
where the value ends it finds out by what follows: a number goes on as long as there is
something that could belong to it.  So that a text is read as a value (`Reads`) means that it
is read so behind any blanks and before anything that `Delimited` allows there.

A boolean or a natural number can be written in one way only, and so the texts that are read
here are those that are written.
-/

namespace StreamTap

namespace Json

/-! ## Blanks and ends -/

/-- Whether a character ends the value before it. -/
def isDelimiter (c : Char) : Bool := isBlank c || c == ',' || c == ']' || c == '\x7d'

/-- A text that may follow a value. -/
def Delimited (rest : List Char) : Prop := ∀ c ∈ rest.head?, isDelimiter c = true

theorem delimited_nil : Delimited [] := fun _ h => by cases h

theorem delimited_cons {c : Char} (h : isDelimiter c = true) (cs : List Char) :
    Delimited (c :: cs) := by
  rintro _ ⟨⟩
  exact h

theorem skipBlank_append {blanks : List Char} (h : blanks.all isBlank = true) (cs : List Char) :
    skipBlank (blanks ++ cs) = skipBlank cs := by
  induction blanks with
  | nil => rfl
  | cons b bs ih =>
    rw [List.all_cons, Bool.and_eq_true] at h
    rw [List.cons_append, skipBlank, List.dropWhile_cons_of_pos h.1]
    exact ih h.2

theorem skipBlank_cons {c : Char} (h : isBlank c = false) (cs : List Char) :
    skipBlank (c :: cs) = c :: cs :=
  List.dropWhile_cons_of_neg (by simp [h])

/-- A reader takes this value off every text that begins, behind blanks, like this. -/
def Reads {β : Type} (read : Reader β) (text : List Char) (b : β) : Prop :=
  ∀ blanks rest, blanks.all isBlank = true → Delimited rest →
    read (blanks ++ text ++ rest) = .ok (b, rest)

theorem skipBlank_before {blanks : List Char} (hblanks : blanks.all isBlank = true) {c : Char}
    (hc : isBlank c = false) (cs rest : List Char) :
    skipBlank (blanks ++ c :: cs ++ rest) = c :: (cs ++ rest) := by
  rw [List.append_assoc, skipBlank_append hblanks, List.cons_append, skipBlank_cons hc]

/-! ## Booleans -/

theorem readLetters_append (letters rest : List Char) :
    Skip.readLetters letters (letters ++ rest) = .ok rest := by
  induction letters with
  | nil => rfl
  | cons c cs ih => simpa [Skip.readLetters] using ih

theorem reads_bool (value : Bool) (indent : Nat) :
    Reads readBool ((Value.bool value).write indent) value := by
  intro blanks rest hblanks _
  cases value with
  | true =>
    have hletters := readLetters_append ['r', 'u', 'e'] rest
    simp only [readBool, Value.write, if_true, skipBlank_before hblanks (c := 't') (by decide),
      hletters]
    rfl
  | false =>
    have hletters := readLetters_append ['a', 'l', 's', 'e'] rest
    simp only [readBool, Value.write, Bool.false_eq_true, if_false,
      skipBlank_before hblanks (c := 'f') (by decide), hletters]
    rfl

/-! ## Natural numbers -/

namespace Number

theorem spanDigits_append {ds rest : List Char} (hds : ∀ c ∈ ds, c.isDigit = true)
    (hrest : ∀ c ∈ rest.head?, c.isDigit = false) : spanDigits (ds ++ rest) = (ds, rest) := by
  have hstop : rest.takeWhile Char.isDigit = [] ∧ rest.dropWhile Char.isDigit = rest := by
    cases rest with
    | nil => exact ⟨rfl, rfl⟩
    | cons c cs =>
      have hc : c.isDigit = false := hrest c rfl
      exact ⟨List.takeWhile_cons_of_neg (by simp [hc]), List.dropWhile_cons_of_neg (by simp [hc])⟩
  rw [spanDigits, List.span_eq_takeWhile_dropWhile, List.takeWhile_append_of_pos hds,
    List.dropWhile_append_of_pos hds, hstop.1, hstop.2, List.append_nil]

theorem accumulate_eq {ds : List Char} {n : Nat}
    (h : ds.foldl (fun n c => n * 10 + digit c) n < significandLimit) :
    accumulate n ds = (ds.foldl (fun n c => n * 10 + digit c) n, []) := by
  induction ds generalizing n with
  | nil => rfl
  | cons c cs ih =>
    have hgrows : ∀ (cs : List Char) (m : Nat), m ≤ cs.foldl (fun n c => n * 10 + digit c) m := by
      intro cs
      induction cs with
      | nil => exact fun m => Nat.le_refl m
      | cons d ds ih =>
        intro m
        have hrest := ih (m * 10 + digit d)
        rw [List.foldl_cons]
        omega
    rw [List.foldl_cons] at h ⊢
    have hfirst : n * 10 + digit c < significandLimit := Nat.lt_of_le_of_lt (hgrows cs _) h
    rw [accumulate]
    simp only [hfirst, if_true]
    exact ih h

theorem ofDigitChars_eq (ds : List Char) :
    Nat.ofDigitChars 10 ds 0 = ds.foldl (fun n c => n * 10 + digit c) 0 := by
  rw [Nat.ofDigitChars_eq_foldl]
  simp only [Nat.mul_comm 10]
  rfl

theorem ofDigits_toDigits (n : Nat) :
    (Nat.toDigits 10 n).foldl (fun n c => n * 10 + digit c) 0 = n := by
  rw [← ofDigitChars_eq]
  exact Nat.ofDigitChars_ten_toDigits

theorem isDigit_of_mem_toDigits {n : Nat} {c : Char} (h : c ∈ Nat.toDigits 10 n) :
    c.isDigit = true :=
  Nat.isDigit_of_mem_toDigits (by decide) (by decide) h

theorem head_toDigits (n : Nat) : ∃ d ds, Nat.toDigits 10 n = d :: ds ∧ (d = '0' → ds = []) := by
  induction n using Nat.strong_induction_on with
  | _ n ih =>
    by_cases hn : n < 10
    · exact ⟨_, [], Nat.toDigits_of_lt_base hn, fun _ => rfl⟩
    · obtain ⟨d, ds, hdigits, hzero⟩ := ih (n / 10) (by omega)
      refine ⟨d, ds ++ [(n % 10).digitChar], ?_, fun hd => ?_⟩
      · rw [Nat.toDigits_of_base_le (by decide) (by omega), hdigits, List.cons_append]
      · -- A leading zero would make the number without its last digit zero.
        have hvalue := ofDigits_toDigits (n / 10)
        rw [hdigits, hzero hd, hd] at hvalue
        have hnone : n / 10 = 0 := hvalue.symm
        omega

theorem not_number_of_isDelimiter {c : Char} (h : isDelimiter c = true) :
    c.isDigit = false ∧ c ≠ '.' ∧ c ≠ 'e' ∧ c ≠ 'E' := by
  simp only [isDelimiter, isBlank, Bool.or_eq_true, beq_iff_eq] at h
  rcases h with (((((rfl | rfl) | rfl) | rfl) | rfl) | rfl) | rfl <;> decide

theorem not_more_of_delimited {rest : List Char} (h : Delimited rest) :
    (∀ c ∈ rest.head?, c.isDigit = false) ∧ isFloatTail rest = false := by
  cases rest with
  | nil => exact ⟨by simp, rfl⟩
  | cons c cs =>
    obtain ⟨hdigit, hpoint, hsmall, hlarge⟩ := not_number_of_isDelimiter (h c rfl)
    refine ⟨?_, ?_⟩
    · rintro _ ⟨⟩
      exact hdigit
    · simp [isFloatTail, hpoint, hsmall, hlarge]

theorem read_of_isDigit {d : Char} (hd : d.isDigit = true) (cs : List Char) :
    read (d :: cs) = readUnsigned false (d :: cs) := by
  unfold read
  split
  · next heq =>
    rw [(List.cons.inj heq).1] at hd
    exact absurd hd (by decide)
  · rfl

/-- Whether digits are an integer depends on what follows, and on whether there is room for all
of them. -/
theorem readUnsigned_digits {d : Char} {ds rest : List Char}
    (hdigits : ∀ c ∈ d :: ds, c.isDigit = true) (hzero : d = '0' → ds = [])
    (hrest : ∀ c ∈ rest.head?, c.isDigit = false) (negative : Bool) {significand : Nat}
    {unused : List Char} (htaken : accumulate 0 (d :: ds) = (significand, unused)) :
    readUnsigned negative (d :: (ds ++ rest)) =
      if unused.isEmpty && !isFloatTail rest then .ok (ofInteger negative significand, rest)
      else readTail negative significand unused.length rest := by
  have hleading : (d = '0' && decide (1 < (d :: ds).length)) = false := by
    by_cases hd : d = '0'
    · simp [hzero hd]
    · simp [hd]
  have hspan : spanDigits (d :: (ds ++ rest)) = (d :: ds, rest) := spanDigits_append hdigits hrest
  simp only [readUnsigned, hdigits d List.mem_cons_self, hspan, hleading, htaken]
  rfl

theorem read_toDigits {n : Nat} (hn : n < significandLimit) {rest : List Char}
    (hrest : Delimited rest) : read (Nat.toDigits 10 n ++ rest) = .ok (.integer n, rest) := by
  obtain ⟨d, ds, hdigits, hzero⟩ := head_toDigits n
  obtain ⟨hends, hinteger⟩ := not_more_of_delimited hrest
  have hall : ∀ c ∈ d :: ds, c.isDigit = true :=
    fun c hc => isDigit_of_mem_toDigits (hdigits ▸ hc)
  have hvalue : (d :: ds).foldl (fun n c => n * 10 + digit c) 0 = n :=
    hdigits ▸ ofDigits_toDigits n
  have htaken : accumulate 0 (d :: ds) = (n, []) := by
    rw [accumulate_eq (hvalue.symm ▸ hn), hvalue]
  rw [hdigits, List.cons_append, read_of_isDigit (hall d List.mem_cons_self),
    readUnsigned_digits hall hzero hends false htaken, hinteger]
  rfl

end Number

theorem reads_natural {limit n : Nat} (hn : n < limit) (hlimit : limit ≤ Number.significandLimit)
    (expected : String) (indent : Nat) :
    Reads (readNatural limit expected) ((Value.number n).write indent) n := by
  intro blanks rest hblanks hrest
  obtain ⟨d, ds, hdigits, -⟩ := Number.head_toDigits n
  have hd : d.isDigit = true := Number.isDigit_of_mem_toDigits (hdigits ▸ List.mem_cons_self)
  have hblank : isBlank d = false := by
    cases h : isBlank d with
    | false => rfl
    | true =>
      simp only [isBlank, Bool.or_eq_true, beq_iff_eq] at h
      rcases h with ((rfl | rfl) | rfl) | rfl <;> exact absurd hd (by decide)
  have hread := Number.read_toDigits (Nat.lt_of_lt_of_le hn hlimit) hrest
  rw [hdigits, List.cons_append] at hread
  have hrange : (0 : Int) ≤ n ∧ (n : Int) < limit := by omega
  simp only [readNatural, Value.write, hdigits, skipBlank_before hblanks hblank, hd, hread,
    Bool.or_true, if_true, if_pos hrange, Int.toNat_natCast]

end Json

end StreamTap
