import StreamTap.Proofs.Json.Grammar

/-!
# Strings in any form are read and skipped

The reader of a string goes from character to character, and between two of them it remembers
nothing.  So it is enough to follow it over the ways to write one character: each of them takes
it from `plain` to `plain` with just this character more (`readFrom_spelling`).  A string that
is skipped is followed over its pieces in the same way, where a piece need not make up a
character.

Before the reader goes into four hexadecimal digits it looks whether there is room for them,
and by their value it decides whether they are a character or half of one (`complete_char`,
`complete_halves`).
-/

namespace StreamTap

namespace Json

namespace StringLiteral

/-! ## Hexadecimal digits -/

theorem hexDigit?_of_hexDigit {c : Char} {n : Nat} (h : HexDigit c n) : hexDigit? c = some n := by
  have hall : ∀ n < 16, hexDigit? n.digitChar = some n ∧ hexDigit? n.digitChar.toUpper = some n := by
    decide
  obtain ⟨hn, rfl | rfl⟩ := h
  · exact (hall n hn).1
  · exact (hall n hn).2

theorem hasFourBytes_append {ds : List Char} {n : Nat} (h : HexNumber ds n) (rest : List Char) :
    hasFourBytes (ds ++ rest) = true := by
  obtain ⟨-, -, -, -⟩ := h
  next a b c d i j k l =>
  have hfirst := a.utf8Size_pos
  have hsecond := b.utf8Size_pos
  have hthird := c.utf8Size_pos
  have hfourth := d.utf8Size_pos
  refine decide_eq_true ?_
  simp only [List.cons_append, List.nil_append, List.take_succ_cons, List.take_zero, total_cons,
    total_nil]
  omega

theorem readFrom_hexNumber {ds : List Char} {n : Nat} (h : HexNumber ds n) (first : Option Nat)
    (done rest : List Char) {state : State} {found : Option Char}
    (hcomplete : complete n first = .ok (state, found)) :
    readFrom (.hex 3 0 first) done (ds ++ rest) =
      readFrom state (found.toList ++ done) rest := by
  obtain ⟨ha, hb, hc, hd⟩ := h
  have ha := hexDigit?_of_hexDigit ha
  have hb := hexDigit?_of_hexDigit hb
  have hc := hexDigit?_of_hexDigit hc
  have hd := hexDigit?_of_hexDigit hd
  simp only [List.cons_append, List.nil_append, readFrom, advance, ha, hb, hc, hd, Nat.zero_mul,
    Nat.zero_add, hcomplete]
  cases found with
  | none => simp
  | some c => simp

theorem complete_char (c : Char) : complete c.toNat none = .ok (.plain, some c) := by
  have hvalid : c.toNat < 0xd800 ∨ 0xdfff < c.toNat ∧ c.toNat < 0x110000 := c.valid
  have hfirst : isFirstHalf c.toNat = false := by
    rw [isFirstHalf, Bool.and_eq_false_iff, decide_eq_false_iff_not, decide_eq_false_iff_not]
    omega
  have hsecond : isSecondHalf c.toNat = false := by
    rw [isSecondHalf, Bool.and_eq_false_iff, decide_eq_false_iff_not, decide_eq_false_iff_not]
    omega
  simp [complete, hfirst, hsecond]

theorem complete_halves {c : Char} (hlarge : 0x10000 ≤ c.toNat) :
    complete (0xd800 + (c.toNat - 0x10000) / 0x400) none =
        .ok (.halfway (0xd800 + (c.toNat - 0x10000) / 0x400), none) ∧
      complete (0xdc00 + (c.toNat - 0x10000) % 0x400)
          (some (0xd800 + (c.toNat - 0x10000) / 0x400)) = .ok (.plain, some c) := by
  have hvalid : c.toNat < 0xd800 ∨ 0xdfff < c.toNat ∧ c.toNat < 0x110000 := c.valid
  generalize hfirst : 0xd800 + (c.toNat - 0x10000) / 0x400 = first
  generalize hsecond : 0xdc00 + (c.toNat - 0x10000) % 0x400 = second
  have hfirstHalf : isFirstHalf first = true := by
    simp only [isFirstHalf, Bool.and_eq_true, decide_eq_true_eq]
    omega
  have hnot : isSecondHalf first = false := by
    rw [isSecondHalf, Bool.and_eq_false_iff, decide_eq_false_iff_not, decide_eq_false_iff_not]
    omega
  have hsecondHalf : isSecondHalf second = true := by
    simp only [isSecondHalf, Bool.and_eq_true, decide_eq_true_eq]
    omega
  have hjoin : joinHalves first second = c := by
    have hvalue : 0x10000 + (first - 0xd800) * 0x400 + (second - 0xdc00) = c.toNat := by omega
    rw [joinHalves, hvalue, Char.ofNat_toNat]
  simp [complete, hfirstHalf, hnot, hsecondHalf, hjoin]

theorem of_isPlain {c : Char} (h : isPlain c = true) : c ≠ '"' ∧ c ≠ '\\' ∧ 0x20 ≤ c.toNat := by
  simpa [isPlain, and_assoc] using h

/-! ## Reading -/

theorem simpleEscape?_of_mem {l c : Char} (h : (l, c) ∈ letterEscapes) :
    simpleEscape? l = some c ∧ l ≠ 'u' := by
  simp only [letterEscapes, List.mem_cons, Prod.mk.injEq, List.not_mem_nil, or_false] at h
  rcases h with ⟨rfl, rfl⟩ | ⟨rfl, rfl⟩ | ⟨rfl, rfl⟩ | ⟨rfl, rfl⟩ | ⟨rfl, rfl⟩ | ⟨rfl, rfl⟩ |
    ⟨rfl, rfl⟩ | ⟨rfl, rfl⟩ <;> exact ⟨rfl, by decide⟩

theorem readFrom_spelling {c : Char} {cs : List Char} (h : Spelling c cs) (done rest : List Char) :
    readFrom .plain done (cs ++ rest) = readFrom .plain (c :: done) rest := by
  cases h with
  | plain hplain =>
    obtain ⟨hquote, hslash, hcontrol⟩ := of_isPlain hplain
    simp [readFrom, advance, hquote, hslash, Nat.not_lt_of_le hcontrol]
  | letter hmem =>
    obtain ⟨hletter, hu⟩ := simpleEscape?_of_mem hmem
    simp [readFrom, advance, hletter, hu]
  | number hds =>
    have hroom := hasFourBytes_append hds rest
    have hread := readFrom_hexNumber hds none done rest (complete_char c)
    simpa [readFrom, advance, hroom] using hread
  | @pair ds ds' hlarge hds hds' =>
    obtain ⟨hfirst, hsecond⟩ := complete_halves hlarge
    have hroom := hasFourBytes_append hds ('\\' :: 'u' :: (ds' ++ rest))
    have hread := readFrom_hexNumber hds none done ('\\' :: 'u' :: (ds' ++ rest)) hfirst
    have hroom' := hasFourBytes_append hds' rest
    have hread' := readFrom_hexNumber hds' _ done rest hsecond
    simp only [Option.toList_none, Option.toList_some, List.nil_append, List.singleton_append]
      at hread hread'
    simp [readFrom, advance, hroom, hread, hroom', hread']

/-- What stands between quotes is read as the text that it writes. -/
theorem read_spells {text inside : List Char} (h : Spells text inside) (rest : List Char) :
    read (inside ++ '"' :: rest) = .ok (String.ofList text, rest) := by
  have hfrom : ∀ done, readFrom .plain done (inside ++ '"' :: rest) =
      .ok (done.reverse ++ text, rest) := by
    induction h with
    | nil => simp [readFrom]
    | cons hspelling _ ih =>
      intro done
      rw [List.append_assoc, readFrom_spelling hspelling, ih]
      simp
  simp only [read, hfrom]
  rfl

/-! ## Skipping -/

theorem skipFrom_piece {cs : List Char} (h : QuotedPiece cs) (rest : List Char) :
    skipFrom .plain (cs ++ rest) = skipFrom .plain rest := by
  cases h with
  | plain hplain =>
    obtain ⟨hquote, hslash, hcontrol⟩ := of_isPlain hplain
    simp [skipFrom, pass, advance, hquote, hslash, Nat.not_lt_of_le hcontrol, Except.map]
  | letter hmem =>
    obtain ⟨hletter, hu⟩ := simpleEscape?_of_mem hmem
    simp [skipFrom, pass, advance, hletter, hu, Except.map]
  | number hds =>
    have hroom := hasFourBytes_append hds rest
    obtain ⟨ha, hb, hc, hd⟩ := hds
    have ha := hexDigit?_of_hexDigit ha
    have hb := hexDigit?_of_hexDigit hb
    have hc := hexDigit?_of_hexDigit hc
    have hd := hexDigit?_of_hexDigit hd
    simp only [List.cons_append, List.nil_append] at hroom
    simp [skipFrom, pass, advance, hroom, ha, hb, hc, hd, Except.map]

theorem skip_quoted {inside : List Char} (h : Quoted inside) (rest : List Char) :
    skip (inside ++ '"' :: rest) = .ok rest := by
  rw [skip]
  induction h with
  | nil => simp [skipFrom]
  | cons hpiece _ ih => rw [List.append_assoc, skipFrom_piece hpiece, ih]

end StringLiteral

end Json

end StreamTap
