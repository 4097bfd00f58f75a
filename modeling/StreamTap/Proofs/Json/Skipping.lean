import StreamTap.Proofs.Json.Strings

/-!
# Every JSON value can be skipped

Whatever a value is, `Skip.value` takes it off the front of a text and leaves the rest
(`value_append`).  The reader is a machine that keeps the brackets that are open in a list and
takes one step after another, and so the induction over the grammar is about a number of its
steps: from where a value is expected they lead to where the value has ended, under the same
open brackets, and from where the entries of a list or of an object begin to behind its closing
bracket (`Skips`).  There are at most two steps for each character, and the steps that the
reader is given are enough.

Two things are asked of what follows a value.  A number has to end there (`Delimited`), and in
the text of a list or an object this is so because a blank, a comma or a closing bracket
follows.  And behind an opening bracket the reader looks for the closing one first, so that no
entry may begin like it (`begins`).
-/

namespace StreamTap

namespace Json

namespace Skip

/-! ## Numbers -/

def NoDigit (cs : List Char) : Prop := ∀ c ∈ cs.head?, c.isDigit = false

theorem skipDigits_append {ds rest : List Char} (hds : Digits ds) (hrest : NoDigit rest) :
    skipDigits (ds ++ rest) = .ok rest := by
  obtain ⟨hsome, hall⟩ := hds
  rw [List.all_eq_true] at hall
  have hstop : rest.dropWhile Char.isDigit = rest := by
    cases rest with
    | nil => rfl
    | cons c cs =>
      have hc : c.isDigit = false := hrest c rfl
      exact List.dropWhile_cons_of_neg (by simp [hc])
  cases ds with
  | nil => exact absurd rfl hsome
  | cons d ds =>
    have hd : d.isDigit = true := hall d List.mem_cons_self
    rw [List.cons_append, skipDigits, if_pos hd,
      List.dropWhile_append_of_pos fun c hc => hall c (List.mem_cons_of_mem _ hc), hstop]

theorem skipInteger_append {cs rest : List Char} (h : IntegerPart cs) (hrest : NoDigit rest) :
    skipInteger (cs ++ rest) = .ok rest := by
  cases h with
  | zero =>
    have hnone : rest.head?.any Char.isDigit = false := by
      cases rest with
      | nil => rfl
      | cons c cs => exact hrest c rfl
    simp [skipInteger, hnone]
  | other hzero hds =>
    rw [← skipDigits_append hds hrest, List.cons_append]
    unfold skipInteger
    split
    · next heq => exact absurd (List.cons.inj heq).1 hzero
    · rfl

theorem skipFraction_append {cs rest : List Char} (h : FractionPart cs) (hdigit : NoDigit rest)
    (hpoint : ∀ c ∈ rest.head?, c ≠ '.') :
    skipFraction (cs ++ rest) = .ok rest ∧ NoDigit (cs ++ rest) := by
  cases h with
  | none =>
    refine ⟨?_, hdigit⟩
    rw [List.nil_append]
    unfold skipFraction
    split
    · exact absurd rfl (hpoint '.' rfl)
    · rfl
  | some hds =>
    refine ⟨skipDigits_append hds hdigit, ?_⟩
    rintro _ ⟨⟩
    decide

theorem skipSign_append {sign ds : List Char} (hsign : sign ∈ [[], ['+'], ['-']]) (hds : Digits ds)
    (rest : List Char) : skipSign (sign ++ (ds ++ rest)) = ds ++ rest := by
  simp only [List.mem_cons, List.not_mem_nil, or_false] at hsign
  rcases hsign with rfl | rfl | rfl
  · obtain ⟨hsome, hall⟩ := hds
    cases ds with
    | nil => exact absurd rfl hsome
    | cons d ds =>
      have hd : d.isDigit = true := List.all_eq_true.1 hall d List.mem_cons_self
      rw [List.nil_append, List.cons_append]
      unfold skipSign
      split
      · next heq => exact absurd ((List.cons.inj heq).1 ▸ hd) (by decide)
      · next heq => exact absurd ((List.cons.inj heq).1 ▸ hd) (by decide)
      · rfl
  · rfl
  · rfl

theorem skipExponent_append {cs rest : List Char} (h : ExponentPart cs) (hrest : Delimited rest) :
    skipExponent (cs ++ rest) = .ok rest ∧ NoDigit (cs ++ rest) ∧
      ∀ c ∈ (cs ++ rest).head?, c ≠ '.' := by
  have hends : ∀ c ∈ rest.head?, c.isDigit = false ∧ c ≠ '.' ∧ c ≠ 'e' ∧ c ≠ 'E' :=
    fun c hc => Number.not_number_of_isDelimiter (hrest c hc)
  cases h with
  | none =>
    refine ⟨?_, fun c hc => (hends c hc).1, fun c hc => (hends c hc).2.1⟩
    rw [List.nil_append]
    unfold skipExponent
    split
    · exact absurd rfl (hends 'e' rfl).2.2.1
    · exact absurd rfl (hends 'E' rfl).2.2.2
    · rfl
  | @some e sign ds hletter hsign hds =>
    have hskip := skipDigits_append hds fun c hc => (hends c hc).1
    have hsign := skipSign_append hsign hds rest
    have hhead : e.isDigit = false ∧ e ≠ '.' := by
      simp only [List.mem_cons, List.not_mem_nil, or_false] at hletter
      rcases hletter with rfl | rfl <;> decide
    refine ⟨?_, ?_, ?_⟩
    · simp only [List.mem_cons, List.not_mem_nil, or_false] at hletter
      rcases hletter with rfl | rfl <;>
        simp only [List.cons_append, List.append_assoc, skipExponent, hsign, hskip]
    · rintro _ ⟨⟩
      exact hhead.1
    · rintro _ ⟨⟩
      exact hhead.2

theorem skipNumber_append {cs rest : List Char} (h : Unsigned cs) (hrest : Delimited rest) :
    skipNumber (cs ++ rest) = .ok rest := by
  obtain ⟨hinteger, hfraction, hexponent⟩ := h
  obtain ⟨hskip, hdigit, hpoint⟩ := skipExponent_append hexponent hrest
  obtain ⟨hskip', hdigit'⟩ := skipFraction_append hfraction hdigit hpoint
  have hskip'' := skipInteger_append hinteger hdigit'
  simp only [List.append_assoc, skipNumber, hskip'', hskip', hskip, bind, Except.bind]

/-! ## Scalars -/

theorem head_unsigned {cs : List Char} (h : Unsigned cs) :
    ∃ d ds, cs = d :: ds ∧ d.isDigit = true := by
  obtain ⟨hinteger, -, -⟩ := h
  cases hinteger with
  | zero => exact ⟨'0', _, rfl, rfl⟩
  | other _ hds => exact ⟨_, _, rfl, List.all_eq_true.1 hds.2 _ List.mem_cons_self⟩

theorem skipScalar_append {text : List Char} (h : Scalar text) :
    ∃ c cs, text = c :: cs ∧ isBlank c = false ∧ c ∉ ['[', ']', '\x7b', '\x7d'] ∧
      ∀ rest, Delimited rest → skipScalar c (cs ++ rest) = .ok rest := by
  cases h with
  | word hword =>
    simp only [List.mem_cons, List.not_mem_nil, or_false] at hword
    rcases hword with rfl | rfl | rfl
    · exact ⟨_, _, rfl, by decide, by decide, fun rest _ => readLetters_append _ rest⟩
    · exact ⟨_, _, rfl, by decide, by decide, fun rest _ => readLetters_append _ rest⟩
    · exact ⟨_, _, rfl, by decide, by decide, fun rest _ => readLetters_append _ rest⟩
  | number hnumber =>
    obtain ⟨d, ds, rfl, hd⟩ := head_unsigned hnumber
    have hne : ∀ c : Char, c.isDigit = false → d ≠ c := by
      rintro c hc rfl
      exact Bool.false_ne_true (hc.symm.trans hd)
    refine ⟨d, ds, rfl, ?_, ?_, fun rest hrest => ?_⟩
    · simp [isBlank, hne]
    · simp [hne]
    · have hskip := skipNumber_append hnumber hrest
      simpa [skipScalar, hne, hd] using hskip
  | negative hnumber =>
    exact ⟨_, _, rfl, by decide, by decide, fun rest hrest => skipNumber_append hnumber hrest⟩
  | string hquoted =>
    refine ⟨_, _, rfl, by decide, by decide, fun rest _ => ?_⟩
    rw [List.append_assoc]
    exact StringLiteral.skip_quoted hquoted rest

/-! ## Values -/

/-- Nothing that is well formed begins like the end of something. -/
theorem begins {part : Part} {text : List Char} (h : WellFormed part text) :
    ∃ (before : Blanks) (c : Char) (cs : List Char), text = before.chars ++ c :: cs ∧
      isBlank c = false ∧ c ≠ ']' ∧ c ≠ '\x7d' := by
  have hitem : ∀ (before : Blanks) {cs : List Char} (rest : List Char),
      (∃ (inner : Blanks) (c : Char) (cs' : List Char), cs = inner.chars ++ c :: cs' ∧
        isBlank c = false ∧ c ≠ ']' ∧ c ≠ '\x7d') →
      ∃ (outer : Blanks) (c : Char) (cs' : List Char),
        before.chars ++ (cs ++ rest) = outer.chars ++ c :: cs' ∧
          isBlank c = false ∧ c ≠ ']' ∧ c ≠ '\x7d' := by
    rintro before _ rest ⟨inner, c, cs', rfl, hc⟩
    exact ⟨before.append inner, c, cs' ++ rest, by simp [Blanks.append], hc⟩
  induction h with
  | scalar hscalar =>
    obtain ⟨c, cs, rfl, hblank, hc, -⟩ := skipScalar_append hscalar
    simp only [List.mem_cons, List.not_mem_nil, or_false, not_or] at hc
    exact ⟨.none, c, cs, rfl, hblank, hc.2.1, hc.2.2.2⟩
  | emptyList inside => exact ⟨.none, '[', _, rfl, by decide⟩
  | list _ _ => exact ⟨.none, '[', _, rfl, by decide⟩
  | emptyObject inside => exact ⟨.none, '\x7b', _, rfl, by decide⟩
  | object _ _ => exact ⟨.none, '\x7b', _, rfl, by decide⟩
  | lastItem before after _ ih => exact hitem before _ ih
  | item before after _ _ ih _ => exact hitem before _ ih
  | lastMember s _ _ _ => exact ⟨s.before, '"', _, rfl, by decide⟩
  | member s _ _ _ _ _ =>
    exact ⟨s.before, '"', _, by rw [Spacing.member, List.append_assoc, List.cons_append], by decide⟩

theorem skipKey_member (s : Spacing) {key : List Char} (h : Quoted key) (value rest : List Char) :
    skipKey (s.member key value ++ rest) =
      .ok (s.behindColon.chars ++ (value ++ (s.after.chars ++ rest))) := by
  have hquote : isBlank '"' = false := by decide
  have hcolon : isBlank ':' = false := by decide
  simp only [Spacing.member, skipKey, List.append_assoc, List.cons_append, skipBlank_blanks,
    skipBlank_cons hquote, StringLiteral.skip_quoted h, skipBlank_cons hcolon, ne_eq,
    not_true_eq_false, if_false, if_true]

def Frame.opening : Frame → Char
  | .list => '['
  | .object => '\x7b'

def Frame.closing : Frame → Char
  | .list => ']'
  | .object => '\x7d'

/-- What is expected at the beginning of each of its entries. -/
def Frame.entry : Frame → State
  | .list => .value
  | .object => .member

def Frame.inside : Frame → Part
  | .list => .items
  | .object => .members

-- Every lemma about the machine opens `run`: its equations are made once, here, and not by the
-- first of these lemmas while the others wait for it.
attribute [local simp] run

section Run

variable (frame : Frame) (n : Nat) (frames : List Frame) (b : Blanks) (cs : List Char)

theorem isBlank_opening : isBlank frame.opening = false := by cases frame <;> rfl

theorem isBlank_closing : isBlank frame.closing = false := by cases frame <;> rfl

theorem run_opening :
    run (n + 1) .value frames (b.chars ++ frame.opening :: cs) =
      run n .opened (frame :: frames) cs := by
  have hblank := skipBlank_cons (isBlank_opening frame) cs
  rw [run, skipBlank_blanks, hblank]
  cases frame <;> rfl

theorem run_empty :
    run (n + 1) .opened (frame :: frames) (b.chars ++ frame.closing :: cs) =
      run n .closed frames cs := by
  have hblank := skipBlank_cons (isBlank_closing frame) cs
  cases frame <;> rw [run, skipBlank_blanks, hblank] <;> rfl

theorem run_closing :
    run (n + 1) .closed (frame :: frames) (b.chars ++ frame.closing :: cs) =
      run n .closed frames cs := by
  have hblank := skipBlank_cons (isBlank_closing frame) cs
  cases frame <;> rw [run, skipBlank_blanks, hblank] <;> rfl

theorem run_comma :
    run (n + 1) .closed (frame :: frames) (b.chars ++ ',' :: cs) =
      run n frame.entry (frame :: frames) cs := by
  have hblank : skipBlank (',' :: cs) = ',' :: cs := skipBlank_cons (by decide) cs
  cases frame <;> rw [run, skipBlank_blanks, hblank] <;> rfl

theorem run_member (s : Spacing) {key : List Char} (h : Quoted key) (value : List Char) :
    run (n + 1) .member frames (s.member key value ++ cs) =
      run n .value frames (s.behindColon.chars ++ (value ++ (s.after.chars ++ cs))) := by
  rw [run, skipKey_member s h]

variable {cs}

theorem run_entry (h : WellFormed frame.inside cs) (rest : List Char) :
    run (n + 1) .opened (frame :: frames) (cs ++ rest) =
      run n frame.entry (frame :: frames) (cs ++ rest) := by
  obtain ⟨before, c, cs, rfl, hblank, hlist, hobject⟩ := begins h
  have hskip : skipBlank (before.chars ++ c :: cs ++ rest) = c :: (cs ++ rest) := by
    rw [List.append_assoc, skipBlank_blanks, List.cons_append, skipBlank_cons hblank]
  have hsame : skipBlank (c :: (cs ++ rest)) = c :: (cs ++ rest) := skipBlank_cons hblank _
  -- The reader has skipped the blanks already, and looks for the entry behind them.
  cases frame with
  | list =>
    rw [run, hskip]
    simp only [hlist, if_false]
    cases n with
    | zero => rfl
    | succ n => simp only [Frame.entry, run, hskip, hsame]
  | object =>
    rw [run, hskip]
    simp only [hobject, if_false]
    cases n with
    | zero => rfl
    | succ n => simp only [Frame.entry, run, skipKey, hskip, hsame]

end Run

/-- A number of steps takes the reader over a value, and over what stands inside brackets with
the closing one. -/
def Skips : Part → List Char → Prop
  | .value, text => ∃ k < 2 * text.length, ∀ n frames (before : Blanks) rest, Delimited rest →
    run (n + k) .value frames (before.chars ++ (text ++ rest)) = run n .closed frames rest
  | .items, text => ∃ k ≤ 2 * text.length, ∀ n frames rest,
    run (n + k) .value (.list :: frames) (text ++ ']' :: rest) = run n .closed frames rest
  | .members, text => ∃ k ≤ 2 * text.length, ∀ n frames rest,
    run (n + k) .member (.object :: frames) (text ++ '\x7d' :: rest) = run n .closed frames rest

theorem run_emptyPair (frame : Frame) (inside : Blanks) (n : Nat) (frames : List Frame) (before : Blanks)
    (rest : List Char) :
    run (n + 2) .value frames
        (before.chars ++ (frame.opening :: (inside.chars ++ [frame.closing]) ++ rest)) =
      run n .closed frames rest := by
  rw [List.cons_append, List.append_assoc, List.singleton_append, run_opening, run_empty]

/-- Brackets around entries take two steps more than the entries. -/
theorem run_enclosed (frame : Frame) {cs : List Char} {k : Nat}
    (hentries : WellFormed frame.inside cs)
    (h : ∀ n frames rest, run (n + k) frame.entry (frame :: frames) (cs ++ frame.closing :: rest) =
      run n .closed frames rest) (n : Nat) (frames : List Frame) (before : Blanks)
    (rest : List Char) :
    run (n + (k + 2)) .value frames
        (before.chars ++ (frame.opening :: (cs ++ [frame.closing]) ++ rest)) =
      run n .closed frames rest := by
  rw [List.cons_append, List.append_assoc, List.singleton_append, ← Nat.add_assoc n k 2,
    run_opening, run_entry frame _ _ hentries, h]

/-- What is well formed is skipped. -/
theorem skips {part : Part} {text : List Char} (h : WellFormed part text) : Skips part text := by
  induction h with
  | scalar hscalar =>
    obtain ⟨c, cs, rfl, hblank, hc, hskip⟩ := skipScalar_append hscalar
    simp only [List.mem_cons, List.not_mem_nil, or_false, not_or] at hc
    refine ⟨1, by simp only [List.length_cons]; omega, fun n frames before rest hrest => ?_⟩
    simp only [run, skipBlank_blanks, List.cons_append, skipBlank_cons hblank, hc.1, hc.2.2.1,
      if_false, hskip rest hrest]
  | emptyList inside =>
    refine ⟨2, ?_, fun n frames before rest _ => run_emptyPair .list inside n frames before rest⟩
    simp only [List.length_cons, List.length_append, List.length_nil]
    omega
  | emptyObject inside =>
    refine ⟨2, ?_, fun n frames before rest _ => run_emptyPair .object inside n frames before rest⟩
    simp only [List.length_cons, List.length_append, List.length_nil]
    omega
  | list hitems ih =>
    obtain ⟨k, hk, hrun⟩ := ih
    refine ⟨k + 2, ?_, fun n frames before rest _ =>
      run_enclosed .list hitems hrun n frames before rest⟩
    simp only [List.length_cons, List.length_append, List.length_nil]
    omega
  | object hmembers ih =>
    obtain ⟨k, hk, hrun⟩ := ih
    refine ⟨k + 2, ?_, fun n frames before rest _ =>
      run_enclosed .object hmembers hrun n frames before rest⟩
    simp only [List.length_cons, List.length_append, List.length_nil]
    omega
  | lastItem before after hvalue ih =>
    obtain ⟨k, hk, hrun⟩ := ih
    refine ⟨k + 1, ?_, fun n frames rest => ?_⟩
    · simp only [List.length_append]
      omega
    · rw [List.append_assoc, List.append_assoc, Nat.add_comm k 1, ← Nat.add_assoc n 1 k,
        hrun _ _ _ _ (delimited_blanks after (delimited_cons (by decide) rest))]
      exact run_closing .list n frames after rest
  | item before after hvalue hothers ih ihs =>
    obtain ⟨k, hk, hrun⟩ := ih
    obtain ⟨k', hk', hrun'⟩ := ihs
    refine ⟨k' + 1 + k, ?_, fun n frames rest => ?_⟩
    · simp only [List.length_append, List.length_cons]
      omega
    · rw [List.append_assoc, List.append_assoc, List.append_assoc, List.cons_append,
        ← Nat.add_assoc n (k' + 1) k, ← Nat.add_assoc n k' 1,
        hrun _ _ _ _ (delimited_blanks after (delimited_cons (by decide) _)),
        run_comma .list, Frame.entry, hrun']
  | lastMember s hkey hvalue ih =>
    obtain ⟨k, hk, hrun⟩ := ih
    refine ⟨k + 2, ?_, fun n frames rest => ?_⟩
    · simp only [Spacing.member, List.length_append, List.length_cons]
      omega
    · rw [show n + (k + 2) = n + 1 + k + 1 by omega, run_member _ _ _ s hkey,
        hrun _ _ _ _ (delimited_blanks s.after (delimited_cons (by decide) rest))]
      exact run_closing .object n frames s.after rest
  | member s hkey hvalue hothers ih ihs =>
    obtain ⟨k, hk, hrun⟩ := ih
    obtain ⟨k', hk', hrun'⟩ := ihs
    refine ⟨k' + 1 + k + 1, ?_, fun n frames rest => ?_⟩
    · simp only [Spacing.member, List.length_append, List.length_cons]
      omega
    · rw [List.append_assoc, List.cons_append,
        show n + (k' + 1 + k + 1) = n + k' + 1 + k + 1 by omega, run_member _ _ _ s hkey,
        hrun _ _ _ _ (delimited_blanks s.after (delimited_cons (by decide) _)),
        run_comma .object, Frame.entry, hrun']

theorem value_append {text : List Char} (h : WellFormed .value text) (before : Blanks)
    {rest : List Char} (hrest : Delimited rest) :
    value (before.chars ++ (text ++ rest)) = .ok rest := by
  obtain ⟨k, hk, hrun⟩ := skips h
  obtain ⟨n, hn⟩ : ∃ n, 2 * (before.chars ++ (text ++ rest)).length + 3 = n + 1 + k :=
    ⟨2 * (before.chars ++ (text ++ rest)).length + 2 - k, by
      simp only [List.length_append]
      omega⟩
  rw [value, hn, hrun _ _ before _ hrest, run]

end Skip

end Json

end StreamTap
