import StreamTap.Proofs.Json.Skipping

/-!
# Numbers that are taken exactly, and all others

A number may be written in many ways and be of any size.  Where a natural number below a limit
is asked for, the reader takes a literal if it consists of digits only and what they stand for
is below the limit, and then this is what it takes.  It refuses every other literal: one with a
minus sign, and be it `-0`, one with a fraction or an exponent, even if it stands for a natural
number, and one that is too large (`NumberLiteral.decides`).

The reader tells integers from floats in two places, by what follows the digits before the point
and by whether these digits fit into the significand.  So nothing has to be known of floats, but
that none of the functions which compute one gives an integer (`readTail_float`).
-/

namespace StreamTap

namespace Json

variable {β : Type}

/-! ## Readers that refuse -/

/-- A reader refuses every text that begins, behind blanks, like this. -/
def Refuses (read : Reader β) (text : List Char) : Prop :=
  ∀ blanks rest, blanks.all isBlank = true → Delimited rest →
    ∃ e, read (blanks ++ text ++ rest) = .error e

/-- A reader takes this value off a text or refuses the text, according to whether it fits. -/
structure Decides (read : Reader β) (text : List Char) (fits : Prop) (b : β) : Prop where
  reads : fits → Reads read text b
  refuses : ¬fits → Refuses read text

theorem Decides.of_reads {read : Reader β} {text : List Char} {b : β} (h : Reads read text b) :
    Decides read text True b :=
  ⟨fun _ => h, fun hnot => absurd trivial hnot⟩

/-! ## Literals -/

inductive IsNumber : List Char → Prop
  | unsigned {cs : List Char} : Unsigned cs → IsNumber cs
  | negative {cs : List Char} : Unsigned cs → IsNumber ('-' :: cs)

/-- A number as it is written. -/
structure NumberLiteral where
  chars : List Char
  isNumber : IsNumber chars

namespace NumberLiteral

/-- What a literal stands for that consists of digits only. -/
def value (l : NumberLiteral) : Nat := Nat.ofDigitChars 10 l.chars 0

/-- A literal consists of digits only, and they stand for a number below the limit. -/
structure Fits (l : NumberLiteral) (limit : Nat) : Prop where
  digits : l.chars.all Char.isDigit = true
  below : l.value < limit

instance (l : NumberLiteral) (limit : Nat) : Decidable (l.Fits limit) :=
  decidable_of_iff (l.chars.all Char.isDigit = true ∧ l.value < limit)
    ⟨fun h => ⟨h.1, h.2⟩, fun h => ⟨h.digits, h.below⟩⟩

def IsText (l : NumberLiteral) (text : List Char) : Prop := text = l.chars

end NumberLiteral

namespace Number

/-! ## Floats are no integers -/

section Floats

variable {negative : Bool} {significand : Nat} {exponent : Int} {cs rest : List Char} {x : Number}

theorem scaled_float (h : scaled negative significand exponent = .ok x) :
    ∃ bits, x = .float bits := by
  simp only [scaled, signed] at h
  split at h
  · exact ⟨_, (Except.ok.inj h).symm⟩
  · split at h
    · split at h
      · cases h
      · exact ⟨_, (Except.ok.inj h).symm⟩
    · split at h
      · exact ⟨_, (Except.ok.inj h).symm⟩
      · cases h

theorem scaled_bind_float
    (h : (do return (← scaled negative significand exponent, cs) : Except Error _) =
      .ok (x, rest)) :
    ∃ bits, x = .float bits := by
  cases hscaled : scaled negative significand exponent with
  | error e =>
    rw [hscaled] at h
    cases h
  | ok y =>
    rw [hscaled] at h
    cases h
    exact scaled_float hscaled

theorem readExponent_float (h : readExponent negative significand exponent cs = .ok (x, rest)) :
    ∃ bits, x = .float bits := by
  unfold readExponent at h
  split at h
  split at h
  · cases h
  · split at h
    · cases h
    · simp only at h
      split at h
      · split at h
        · cases h
        · cases h
          exact ⟨_, rfl⟩
      · exact scaled_bind_float h

theorem readPower_float (h : readPower negative significand exponent cs = .ok (x, rest)) :
    ∃ bits, x = .float bits := by
  unfold readPower at h
  split at h
  · exact readExponent_float h
  · exact readExponent_float h
  · exact scaled_bind_float h

theorem readTail_float (h : readTail negative significand exponent cs = .ok (x, rest)) :
    ∃ bits, x = .float bits := by
  unfold readTail at h
  split at h
  · simp only [readFraction] at h
    split at h
    · cases h
    · exact readPower_float h
  · exact readPower_float h

end Floats

/-! ## Digits -/

/-- The significand holds all digits only if what they stand for is below its limit. -/
theorem accumulate_all {ds : List Char} {n m : Nat} (hn : n < significandLimit)
    (h : accumulate n ds = (m, [])) :
    m = ds.foldl (fun n c => n * 10 + digit c) n ∧ m < significandLimit := by
  induction ds generalizing n with
  | nil =>
    cases h
    exact ⟨rfl, hn⟩
  | cons c cs ih =>
    rw [accumulate] at h
    split at h
    · next hfirst => exact ih hfirst h
    · cases h

theorem split_unsigned {cs : List Char} (h : Unsigned cs) :
    ∃ integer tail, cs = integer ++ tail ∧ IntegerPart integer ∧
      (tail = [] ∨ isFloatTail tail = true ∧ tail.all Char.isDigit = false) := by
  obtain ⟨hinteger, hfraction, hexponent⟩ := h
  refine ⟨_, _, rfl, hinteger, ?_⟩
  cases hfraction with
  | some _ => exact Or.inr ⟨rfl, rfl⟩
  | none =>
    cases hexponent with
    | none => exact Or.inl rfl
    | some hletter _ _ =>
      simp only [List.mem_cons, List.not_mem_nil, or_false] at hletter
      rcases hletter with rfl | rfl <;> exact Or.inr ⟨rfl, rfl⟩

theorem isFloatTail_append {tail : List Char} (h : isFloatTail tail = true) (rest : List Char) :
    isFloatTail (tail ++ rest) = true ∧ Skip.NoDigit (tail ++ rest) := by
  unfold isFloatTail at h
  split at h
  · exact ⟨rfl, by rintro _ ⟨⟩; decide⟩
  · exact ⟨rfl, by rintro _ ⟨⟩; decide⟩
  · exact ⟨rfl, by rintro _ ⟨⟩; decide⟩
  · cases h

theorem digits_of_integerPart {integer : List Char} (h : IntegerPart integer) :
    ∃ c cs, integer = c :: cs ∧ (∀ d ∈ c :: cs, d.isDigit = true) ∧ (c = '0' → cs = []) := by
  cases h with
  | zero => exact ⟨'0', [], rfl, List.forall_mem_singleton.2 rfl, fun _ => rfl⟩
  | other hzero hds => exact ⟨_, _, rfl, List.all_eq_true.1 hds.2, fun h => absurd h hzero⟩

theorem readUnsigned_append {integer rest : List Char} (h : IntegerPart integer)
    (hrest : Skip.NoDigit rest) (negative : Bool) {significand : Nat} {unused : List Char}
    (htaken : accumulate 0 integer = (significand, unused)) :
    readUnsigned negative (integer ++ rest) =
      if unused.isEmpty && !isFloatTail rest then .ok (ofInteger negative significand, rest)
      else readTail negative significand unused.length rest := by
  obtain ⟨c, cs, rfl, hdigits, hzero⟩ := digits_of_integerPart h
  exact readUnsigned_digits hdigits hzero hrest negative htaken

end Number

namespace NumberLiteral

variable {l : NumberLiteral} {rest : List Char}

theorem integerPart_of_digits (h : l.chars.all Char.isDigit = true) : IntegerPart l.chars := by
  have hnumber := l.isNumber
  generalize l.chars = chars at h hnumber
  cases hnumber with
  | unsigned hunsigned =>
    obtain ⟨integer, tail, rfl, hinteger, rfl | ⟨-, htail⟩⟩ := Number.split_unsigned hunsigned
    · rwa [List.append_nil]
    · rw [List.all_append, htail, Bool.and_false] at h
      cases h
  | negative _ => cases h

theorem read_of_fits (h : l.Fits Number.significandLimit) (hrest : Delimited rest) :
    Number.read (l.chars ++ rest) = .ok (.integer l.value, rest) := by
  have hinteger := integerPart_of_digits h.digits
  have hbelow := h.below
  rw [value, Number.ofDigitChars_eq] at hbelow
  obtain ⟨hends, htail⟩ := Number.not_more_of_delimited hrest
  have hread := Number.readUnsigned_append hinteger hends false (Number.accumulate_eq hbelow)
  obtain ⟨c, cs, hchars, hdigits, -⟩ := Number.digits_of_integerPart hinteger
  have hsign : Number.read (l.chars ++ rest) = Number.readUnsigned false (l.chars ++ rest) := by
    rw [hchars, List.cons_append]
    exact Number.read_of_isDigit (hdigits c List.mem_cons_self) _
  rw [hsign, hread, htail, value, Number.ofDigitChars_eq]
  rfl

/-- What is left of a number without its sign is an integer only if it has no fraction and no
exponent and is not too large. -/
theorem integer_of_readUnsigned {cs : List Char} (h : Unsigned cs) (hrest : Delimited rest)
    {negative : Bool} {n : Int} {rest' : List Char}
    (hread : Number.readUnsigned negative (cs ++ rest) = .ok (.integer n, rest')) :
    IntegerPart cs ∧ Nat.ofDigitChars 10 cs 0 < Number.significandLimit ∧
      Number.ofInteger negative (Nat.ofDigitChars 10 cs 0) = .integer n := by
  obtain ⟨integer, tail, rfl, hinteger, htail⟩ := Number.split_unsigned h
  obtain ⟨⟨significand, unused⟩, htaken⟩ : ∃ taken, Number.accumulate 0 integer = taken := ⟨_, rfl⟩
  have hends : Skip.NoDigit (tail ++ rest) := by
    rcases htail with rfl | ⟨htail, -⟩
    · exact (Number.not_more_of_delimited hrest).1
    · exact (Number.isFloatTail_append htail rest).2
  rw [List.append_assoc, Number.readUnsigned_append hinteger hends negative htaken] at hread
  split at hread
  · next hplain =>
    rw [Bool.and_eq_true, List.isEmpty_iff, Bool.not_eq_true'] at hplain
    obtain ⟨rfl, hplain⟩ := hplain
    rcases htail with rfl | ⟨htail, -⟩
    · obtain ⟨rfl, hbelow⟩ := Number.accumulate_all (by decide) htaken
      rw [← Number.ofDigitChars_eq] at hbelow hread
      rw [List.append_nil]
      exact ⟨hinteger, hbelow, congrArg Prod.fst (Except.ok.inj hread)⟩
    · rw [(Number.isFloatTail_append htail rest).1] at hplain
      cases hplain
  · obtain ⟨bits, hbits⟩ := Number.readTail_float hread
    cases hbits

theorem fits_of_read (hrest : Delimited rest) {n : Int} {rest' : List Char}
    (h : Number.read (l.chars ++ rest) = .ok (.integer n, rest')) (hn : 0 ≤ n) :
    l.Fits Number.significandLimit := by
  have hnumber := l.isNumber
  suffices hfits : l.chars.all Char.isDigit = true ∧
      Nat.ofDigitChars 10 l.chars 0 < Number.significandLimit from ⟨hfits.1, hfits.2⟩
  generalize l.chars = chars at h hnumber ⊢
  cases hnumber with
  | unsigned hunsigned =>
    obtain ⟨d, ds, rfl, hd⟩ := Skip.head_unsigned hunsigned
    rw [List.cons_append, Number.read_of_isDigit hd] at h
    obtain ⟨hinteger, hbelow, -⟩ := integer_of_readUnsigned hunsigned hrest h
    obtain ⟨c, cs, hchars, hdigits, -⟩ := Number.digits_of_integerPart hinteger
    exact ⟨hchars ▸ List.all_eq_true.2 hdigits, hbelow⟩
  | negative hunsigned =>
    -- A minus sign makes a float of zero, and of every other number a negative one.
    obtain ⟨-, -, hnegated⟩ := integer_of_readUnsigned hunsigned hrest h
    simp only [Number.ofInteger, Number.signed, Bool.not_true, Bool.false_eq_true, if_false]
      at hnegated
    split at hnegated
    · cases hnegated
    · cases hnegated
      omega

theorem scalar (l : NumberLiteral) : Scalar l.chars := by
  have hnumber := l.isNumber
  generalize l.chars = chars at hnumber ⊢
  cases hnumber with
  | unsigned h => exact .number h
  | negative h => exact .negative h

theorem head_chars (l : NumberLiteral) :
    ∃ c cs, l.chars = c :: cs ∧ isBlank c = false ∧ (c = '-' || c.isDigit) = true := by
  obtain ⟨c, cs, hchars, hblank, -, -⟩ := Skip.skipScalar_append l.scalar
  refine ⟨c, cs, hchars, hblank, ?_⟩
  have hnumber := l.isNumber
  rw [hchars] at hnumber
  generalize htext : c :: cs = text at hnumber
  cases hnumber with
  | unsigned h =>
    obtain ⟨d, ds, rfl, hd⟩ := Skip.head_unsigned h
    rw [(List.cons.inj htext).1, hd, Bool.or_true]
  | negative _ =>
    rw [(List.cons.inj htext).1]
    rfl

/-- A natural number below a limit is read from the literals that fit, and from no other. -/
theorem decides {text : List Char} (h : l.IsText text) {limit : Nat}
    (hlimit : limit ≤ Number.significandLimit) (expected : String) :
    Decides (readNatural limit expected) text (l.Fits limit) l.value := by
  rw [IsText] at h
  subst h
  obtain ⟨c, cs, hchars, hblank, hnumber⟩ := l.head_chars
  constructor
  · intro hfits blanks rest hblanks hrest
    have hread := read_of_fits ⟨hfits.digits, Nat.lt_of_lt_of_le hfits.below hlimit⟩ hrest
    have hbelow := hfits.below
    have hrange : (0 : Int) ≤ l.value ∧ (l.value : Int) < limit := by omega
    rw [hchars, List.cons_append] at hread
    simp only [readNatural, hchars, skipBlank_before hblanks hblank, hnumber, hread, if_true,
      if_pos hrange, Int.toNat_natCast]
  · intro hnot blanks rest hblanks hrest
    simp only [readNatural, hchars, skipBlank_before hblanks hblank, hnumber, if_true]
    split
    · exact ⟨_, rfl⟩
    · exact ⟨_, rfl⟩
    · next n rest' hread =>
      rw [← List.cons_append, ← hchars] at hread
      split
      · next hrange =>
        have hfits := fits_of_read hrest hread hrange.1
        have hsame := read_of_fits hfits hrest
        rw [hread] at hsame
        cases hsame
        exact absurd ⟨hfits.digits, by omega⟩ hnot
      · exact ⟨_, rfl⟩

end NumberLiteral

end Json

end StreamTap
