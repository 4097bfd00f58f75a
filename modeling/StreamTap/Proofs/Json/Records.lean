import StreamTap.Proofs.Json.Literals
import StreamTap.Proofs.Json.Members

/-!
# Records in which something cannot be read

A record may be written as an object or as a list of the values of its first fields (`IsRecord`).
A list is read like the object that has these values under the keys of the fields, so that
nothing but the text differs between the two, and what a record has to give can be said once for
both (`Gives`).

Reading stops at the first value that is refused, and what stands behind it does not matter.  So
a record is refused as soon as one of its members is (`refuses_isRecord`), provided that the
others are such that the reader comes that far: each is taken, or is refused as well.

A `Question` is a slot for which it depends on a condition whether what is given there is taken
or refused.  A record of which every field is such a question is itself one, its condition being
that all theirs hold (`Question.decides_gives`).  Thus conditions about numbers are carried from
sections to the document.
-/

namespace StreamTap

namespace Json

variable {α β : Type}

/-! ## Lists -/

/-- What stands between the brackets of a list with these values. -/
inductive Listed : List (List Char) → List Char → Prop
  | last (before after : Blanks) {value : List Char} : WellFormed .value value →
      Listed [value] (before.chars ++ (value ++ after.chars))
  | more (before after : Blanks) {value text : List Char} {values : List (List Char)} :
      WellFormed .value value → Listed values text →
      Listed (value :: values) (before.chars ++ (value ++ (after.chars ++ ',' :: text)))

inductive IsList : List (List Char) → List Char → Prop
  | empty (inside : Blanks) : IsList [] ('[' :: (inside.chars ++ [']']))
  | listed {values : List (List Char)} {text : List Char} : Listed values text →
      IsList values ('[' :: (text ++ [']']))

/-- The text of a record whose fields have these keys: an object with these members, or a list
whose values belong to the first fields. -/
inductive IsRecord (keys : List String) : List (String × List Char) → List Char → Prop
  | object {members : List (String × List Char)} {text : List Char} : IsObject members text →
      IsRecord keys members text
  | list {values : List (List Char)} {text : List Char} : IsList values text →
      values.length ≤ keys.length → IsRecord keys (keys.zip values) text

/-- The text of a record that gives what the entries say. -/
def Gives (entries : List Entry) (text : List Char) : Prop :=
  ∃ members, IsRecord (entries.map Entry.key) members text ∧ Presents entries members

/-! ## Members that are refused -/

/-- The value of a member is refused, whatever the record is by then. -/
def Spoils (r : Record α) (m : String × List Char) : Prop :=
  ∃ f, r.field? m.1 = some f ∧ ∀ a, Refuses (f.readInto a) m.2

/-- The reader comes to the end of the members or to one that is refused. -/
def Passable (r : Record α) (members : List (String × List Char)) : Prop :=
  ∀ m ∈ members, Spoils r m ∨ ∀ a, ∃ a', Takes r a m a'

/-- Unless the first member is refused, it is taken and another is refused. -/
theorem Passable.first {r : Record α} {m : String × List Char}
    {members : List (String × List Char)} (h : Passable r (m :: members))
    (hspoils : ∃ m' ∈ m :: members, Spoils r m') (a : α) :
    Spoils r m ∨ (∃ a', Takes r a m a') ∧ Passable r members ∧ ∃ m' ∈ members, Spoils r m' := by
  by_cases hfirst : Spoils r m
  · exact Or.inl hfirst
  · refine Or.inr ⟨(h m List.mem_cons_self).resolve_left hfirst a,
      fun m' hm' => h m' (List.mem_cons_of_mem _ hm'), ?_⟩
    obtain ⟨m', hm', hspoils⟩ := hspoils
    rcases List.mem_cons.1 hm' with rfl | hm'
    · exact absurd hspoils hfirst
    · exact ⟨m', hm', hspoils⟩

section Objects

variable {r : Record α} {key : String} {inside value : List Char}

theorem readMember_spoils (h : Spoils r (key, value)) (seen : List String) (a : α)
    (before behind : Blanks) {rest : List Char} (hrest : Delimited rest) :
    ∃ e, r.readMember seen a key (before.chars ++ ':' :: (behind.chars ++ (value ++ rest))) =
      .error e := by
  obtain ⟨f, hfield, hrefuses⟩ := h
  simp only [Record.readMember, hfield]
  split
  · exact ⟨_, rfl⟩
  · obtain ⟨e, he⟩ := hrefuses a behind.chars rest behind.blank hrest
    rw [List.append_assoc] at he
    exact ⟨e, by rw [readColon_append]; exact he⟩

theorem readMember_passes {a a' : α} (h : Takes r a (key, value) a') (seen : List String)
    (before behind : Blanks) {rest : List Char} (hrest : Delimited rest) :
    r.readMember seen a key (before.chars ++ ':' :: (behind.chars ++ (value ++ rest))) =
        .ok (a', rest) ∨
      ∃ e, r.readMember seen a key (before.chars ++ ':' :: (behind.chars ++ (value ++ rest))) =
        .error e := by
  by_cases hfresh : (r.field? key).isSome → key ∉ seen
  · exact Or.inl (readMember_takes h hfresh before behind hrest)
  · simp only [not_forall, not_not] at hfresh
    obtain ⟨hknown, hseen⟩ := hfresh
    obtain ⟨f, hfield⟩ := Option.isSome_iff_exists.1 hknown
    exact Or.inr ⟨.duplicateField key, by simp only [Record.readMember, hfield, if_pos hseen]⟩

theorem readMembers_refuses {members : List (String × List Char)} {text : List Char}
    (htext : Joined members text) (hpassable : Passable r members)
    (hspoils : ∃ m ∈ members, Spoils r m) (n : Nat) (first : Bool) (lead : Blanks)
    (seen : List String) (a : α) (rest : List Char) :
    ∃ e, r.readMembers n first seen a
      ((if first then [] else lead.chars ++ [',']) ++ (text ++ '\x7d' :: rest)) = .error e := by
  induction htext generalizing n first lead seen a with
  | @last s key inside value hkey =>
    obtain ⟨m, hm, hspoils⟩ := hspoils
    obtain rfl := List.mem_singleton.1 hm
    cases n with
    | zero => exact ⟨_, rfl⟩
    | succ n =>
      obtain ⟨e, he⟩ := readMember_spoils hspoils seen a s.beforeColon s.behindColon
        (delimited_blanks s.after (delimited_cons (show isDelimiter '\x7d' = true by decide) rest))
      exact ⟨e, by simp only [readMembers_found hkey, he, Except.bind]⟩
  | @more s key inside value text members hkey _ ih =>
    have hdelimited : Delimited (s.after.chars ++ ',' :: (text ++ '\x7d' :: rest)) :=
      delimited_blanks s.after (delimited_cons (by decide) _)
    cases n with
    | zero => exact ⟨_, rfl⟩
    | succ n =>
      rw [List.append_assoc, List.cons_append, readMembers_found hkey]
      rcases hpassable.first hspoils a with hfirst | ⟨⟨a', htakes⟩, hothers, hspoils⟩
      · obtain ⟨e, he⟩ := readMember_spoils hfirst seen a s.beforeColon s.behindColon hdelimited
        exact ⟨e, by simp only [he, Except.bind]⟩
      · rcases readMember_passes htakes seen s.beforeColon s.behindColon hdelimited with
          hread | ⟨e, he⟩
        · obtain ⟨e, he⟩ := ih hothers hspoils n false s.after (key :: seen) a'
          refine ⟨e, ?_⟩
          simp only [hread, Except.bind, ← he, Bool.false_eq_true, if_false, List.append_assoc,
            List.singleton_append]
        · exact ⟨e, by simp only [he, Except.bind]⟩

end Objects

/-! ## Lists of values -/

section Lists

variable {r : Record α} {fields : List (Field α)}

theorem readItems_bracket (first : Bool) (a : α) (fields : List (Field α)) (b : Blanks)
    (rest : List Char) :
    Record.readItems first a fields (b.chars ++ ']' :: rest) = .ok (a, rest) := by
  have hbracket := skipBlank_cons (show isBlank ']' = false by decide) rest
  induction fields generalizing b with
  | nil =>
    simp only [Record.readItems, Record.endList, skipBlank_blanks, hbracket]
    rfl
  | cons f fields ih =>
    have hrest := ih .none
    simp only [Record.readItems, skipBlank_blanks, hbracket, if_true]
    exact hrest

theorem head_value {value : List Char} (h : WellFormed .value value) :
    ∃ c cs, value = c :: cs ∧ isBlank c = false ∧ c ≠ ']' := by
  cases h with
  | scalar hscalar =>
    obtain ⟨c, cs, rfl, hblank, hc, -⟩ := Skip.skipScalar_append hscalar
    exact ⟨c, cs, rfl, hblank, by rintro rfl; exact hc (by decide)⟩
  | emptyList _ => exact ⟨_, _, rfl, by decide, by decide⟩
  | list _ => exact ⟨_, _, rfl, by decide, by decide⟩
  | emptyObject _ => exact ⟨_, _, rfl, by decide, by decide⟩
  | object _ => exact ⟨_, _, rfl, by decide, by decide⟩

theorem readItems_found {value : List Char} (hvalue : WellFormed .value value) (first : Bool)
    (lead before : Blanks) (f : Field α) (fields : List (Field α)) (a : α) (rest : List Char) :
    Record.readItems first a (f :: fields) ((if first then [] else lead.chars ++ [',']) ++
        (before.chars ++ (value ++ rest))) =
      (f.readInto a (value ++ rest)).bind
        fun read => Record.readItems false read.1 fields read.2 := by
  obtain ⟨c, cs, rfl, hblank, hbracket⟩ := head_value hvalue
  have hskip := skipBlank_cons hblank (cs ++ rest)
  have hcomma := skipBlank_cons (show isBlank ',' = false by decide)
  have hother : ¬(',' = ']') := by decide
  cases first with
  | true =>
    simp only [if_true, List.nil_append, List.cons_append, Record.readItems, skipBlank_blanks,
      hskip, if_neg hbracket]
    generalize f.readInto a _ = read
    cases read <;> rfl
  | false =>
    simp only [Bool.false_eq_true, if_false, List.append_assoc, List.cons_append, List.nil_append,
      Record.readItems, skipBlank_blanks, hcomma, hskip, if_neg hother, if_true]
    split
    · next heq => cases heq
    · next heq => exact absurd (List.cons.inj heq).1 hbracket
    · generalize f.readInto a _ = read
      cases read <;> rfl

section Items

variable (hfields : ∀ f ∈ fields, r.field? f.key = some f)

include hfields

theorem readInto_takes {f : Field α} (hf : f ∈ fields) {a a' : α} {value rest : List Char}
    (h : Takes r a (f.key, value) a') (hrest : Delimited rest) :
    f.readInto a (value ++ rest) = .ok (a', rest) := by
  cases h with
  | known hfield hreads =>
    cases (hfields f hf).symm.trans hfield
    exact hreads [] rest rfl hrest
  | unknown hfield _ =>
    rw [hfields f hf] at hfield
    cases hfield

theorem readInto_spoils {f : Field α} (hf : f ∈ fields) {value rest : List Char}
    (h : Spoils r (f.key, value)) (a : α) (hrest : Delimited rest) :
    ∃ e, f.readInto a (value ++ rest) = .error e := by
  obtain ⟨f', hfield, hrefuses⟩ := h
  cases (hfields f hf).symm.trans hfield
  exact hrefuses a [] rest rfl hrest

theorem readItems_listed {values : List (List Char)} {text : List Char}
    (htext : Listed values text) (hlength : values.length ≤ fields.length) {a a' : α}
    (h : TakesAll r a ((fields.map Field.key).zip values) a') (first : Bool) (lead : Blanks)
    (rest : List Char) :
    Record.readItems first a fields
        ((if first then [] else lead.chars ++ [',']) ++ (text ++ ']' :: rest)) =
      .ok (a', rest) := by
  induction htext generalizing fields a first lead with
  | @last before after value hvalue =>
    obtain - | ⟨f, fields⟩ := fields
    · cases hlength
    · rw [List.map_cons, List.zip_cons_cons, List.zip_nil_right] at h
      obtain - | ⟨hmember, -, ⟨⟩⟩ := h
      have hread := readInto_takes hfields List.mem_cons_self hmember
        (delimited_blanks after (delimited_cons (show isDelimiter ']' = true by decide) rest))
      simp only [List.append_assoc, readItems_found hvalue, hread, Except.bind, readItems_bracket]
  | @more before after value text values hvalue _ ih =>
    obtain - | ⟨f, fields⟩ := fields
    · cases hlength
    · obtain - | ⟨hmember, -, hothers⟩ := h
      have hread := readInto_takes hfields List.mem_cons_self hmember (delimited_blanks after
        (delimited_cons (show isDelimiter ',' = true by decide) (text ++ ']' :: rest)))
      have hnext := ih (fun f hf => hfields f (List.mem_cons_of_mem _ hf))
        (Nat.le_of_succ_le_succ hlength) hothers false after
      simp only [List.append_assoc, List.cons_append, readItems_found hvalue, hread, Except.bind,
        ← hnext, Bool.false_eq_true, if_false, List.nil_append]

theorem readItems_refuses {values : List (List Char)} {text : List Char}
    (htext : Listed values text) (hlength : values.length ≤ fields.length)
    (hpassable : Passable r ((fields.map Field.key).zip values))
    (hspoils : ∃ m ∈ (fields.map Field.key).zip values, Spoils r m) (first : Bool) (lead : Blanks)
    (a : α) (rest : List Char) :
    ∃ e, Record.readItems first a fields
      ((if first then [] else lead.chars ++ [',']) ++ (text ++ ']' :: rest)) = .error e := by
  induction htext generalizing fields a first lead with
  | @last before after value hvalue =>
    obtain - | ⟨f, fields⟩ := fields
    · cases hlength
    · rw [List.map_cons, List.zip_cons_cons, List.zip_nil_right] at hspoils
      obtain ⟨m, hm, hspoils⟩ := hspoils
      obtain rfl := List.mem_singleton.1 hm
      obtain ⟨e, he⟩ := readInto_spoils hfields List.mem_cons_self hspoils a
        (delimited_blanks after (delimited_cons (show isDelimiter ']' = true by decide) rest))
      exact ⟨e, by simp only [List.append_assoc, readItems_found hvalue, he, Except.bind]⟩
  | @more before after value text values hvalue _ ih =>
    obtain - | ⟨f, fields⟩ := fields
    · cases hlength
    · have hdelimited : Delimited (after.chars ++ ',' :: (text ++ ']' :: rest)) :=
        delimited_blanks after (delimited_cons (by decide) _)
      rcases hpassable.first hspoils a with hfirst | ⟨⟨a', htakes⟩, hothers, hspoils⟩
      · obtain ⟨e, he⟩ := readInto_spoils hfields List.mem_cons_self hfirst a hdelimited
        exact ⟨e, by
          simp only [List.append_assoc, List.cons_append, readItems_found hvalue, he,
            Except.bind]⟩
      · obtain ⟨e, he⟩ := ih (fun f hf => hfields f (List.mem_cons_of_mem _ hf))
          (Nat.le_of_succ_le_succ hlength) hothers hspoils false after a'
        have hread := readInto_takes hfields List.mem_cons_self htakes hdelimited
        refine ⟨e, ?_⟩
        simp only [List.append_assoc, List.cons_append, readItems_found hvalue, hread,
          Except.bind, ← he, Bool.false_eq_true, if_false, List.nil_append]

end Items

end Lists

/-! ## Records -/

section Records

variable {r : Record α} (hkeys : (r.fields.map Field.key).Nodup)

include hkeys

theorem field?_of_mem {f : Field α} (hf : f ∈ r.fields) : r.field? f.key = some f := by
  unfold Record.field?
  generalize r.fields = fields at hkeys hf
  induction fields with
  | nil => cases hf
  | cons g fields ih =>
    rw [List.map_cons, List.nodup_cons] at hkeys
    rcases List.mem_cons.1 hf with rfl | hf
    · exact List.find?_cons_of_pos (beq_self_eq_true _)
    · have hne : g.key ≠ f.key := fun heq => hkeys.1 (heq ▸ List.mem_map_of_mem hf)
      rw [List.find?_cons_of_neg (by simpa using hne)]
      exact ih hkeys.2 hf

theorem reads_isRecord {members : List (String × List Char)} {text : List Char}
    (htext : IsRecord (r.fields.map Field.key) members text) {a : α}
    (h : TakesAll r r.blank members a) : Reads r.read text a := by
  cases htext with
  | object hobject => exact reads_isObject hobject h
  | @list values text hlist hlength =>
    intro blanks rest hblanks _
    have hbracket : isBlank '[' = false := by decide
    cases hlist with
    | empty inside =>
      rw [List.zip_nil_right] at h
      cases h
      simp only [Record.read, skipBlank_before hblanks hbracket, if_true]
      rw [List.append_assoc]
      exact readItems_bracket true r.blank r.fields inside rest
    | @listed values inside hlisted =>
      rw [List.length_map] at hlength
      have hread := readItems_listed (fun f hf => field?_of_mem hkeys hf) hlisted hlength h true
        .none rest
      rw [if_pos rfl, List.nil_append] at hread
      simp only [Record.read, skipBlank_before hblanks hbracket, if_true]
      rw [List.append_assoc]
      exact hread

theorem refuses_isRecord {members : List (String × List Char)} {text : List Char}
    (htext : IsRecord (r.fields.map Field.key) members text) (hpassable : Passable r members)
    (hspoils : ∃ m ∈ members, Spoils r m) : Refuses r.read text := by
  intro blanks rest hblanks _
  cases htext with
  | object hobject =>
    cases hobject with
    | empty _ =>
      obtain ⟨m, hm, -⟩ := hspoils
      cases hm
    | @joined members inside hjoined =>
      have hbrace : isBlank '\x7b' = false := by decide
      obtain ⟨e, he⟩ := readMembers_refuses hjoined hpassable hspoils
        ((inside ++ '\x7d' :: rest).length + 1) true .none [] r.blank rest
      rw [if_pos rfl, List.nil_append] at he
      refine ⟨e, ?_⟩
      simp only [Record.read, skipBlank_before hblanks hbrace]
      rw [List.append_assoc]
      exact he
  | @list values text hlist hlength =>
    have hbracket : isBlank '[' = false := by decide
    cases hlist with
    | empty _ =>
      obtain ⟨m, hm, -⟩ := hspoils
      rw [List.zip_nil_right] at hm
      cases hm
    | @listed values inside hlisted =>
      rw [List.length_map] at hlength
      obtain ⟨e, he⟩ := readItems_refuses (fun f hf => field?_of_mem hkeys hf) hlisted hlength
        hpassable hspoils true .none r.blank rest
      rw [if_pos rfl, List.nil_append] at he
      refine ⟨e, ?_⟩
      simp only [Record.read, skipBlank_before hblanks hbracket, if_true]
      rw [List.append_assoc]
      exact he

end Records

namespace Slot

def Spoilt (r : Record α) (slot : Slot α) : Prop :=
  ∃ f, r.field? slot.key = some f ∧
    ∃ writes ∈ slot.value, ∀ text, writes text → ∀ a, Refuses (f.readInto a) text

variable {r : Record α} {slots : List (Slot α)} (hnodup : (r.fields.map Field.key).Nodup)
  (hkeys : r.fields.map Field.key = slots.map (·.key))

include hnodup hkeys

theorem reads_gives (hsettled : ∀ slot ∈ slots, slot.Settled r slots) {target : α}
    (htarget : ∀ a, (∀ slot ∈ slots, slot.Right a) → a = target) {text : List Char}
    (h : Gives (slots.map Slot.toEntry) text) : Reads r.read text target := by
  obtain ⟨members, htext, hmembers⟩ := h
  obtain ⟨a, hall, hright⟩ := takesAll_presents hsettled hkeys hmembers
  obtain rfl := htarget a hright
  rw [List.map_map] at htext
  exact reads_isRecord hnodup (hkeys ▸ htext) hall

theorem refuses_gives (hslots : ∀ slot ∈ slots, slot.Settled r slots ∨ slot.Spoilt r)
    (hspoilt : ∃ slot ∈ slots, slot.Spoilt r) {text : List Char}
    (h : Gives (slots.map Slot.toEntry) text) : Refuses r.read text := by
  obtain ⟨members, htext, hmembers⟩ := h
  have hentry : ∀ slot ∈ slots, slot.toEntry ∈ slots.map Slot.toEntry :=
    fun slot hslot => List.mem_map_of_mem hslot
  have hspoils : ∀ slot ∈ slots, slot.Spoilt r → ∀ m ∈ members, slot.key = m.1 → Spoils r m := by
    rintro slot hslot ⟨f, hfield, writes, hwrites, hrefuses⟩ m hm hkey
    obtain ⟨writes', hwrites', htext⟩ := hmembers.known m hm _ (hentry slot hslot) hkey
    cases Option.mem_unique hwrites hwrites'
    exact ⟨f, hkey ▸ hfield, hrefuses m.2 htext⟩
  rw [List.map_map] at htext
  refine refuses_isRecord hnodup (hkeys ▸ htext) (fun m hm => ?_) ?_
  · by_cases hslot : ∃ slot ∈ slots, slot.key = m.1
    · obtain ⟨slot, hslot, hkey⟩ := hslot
      rcases hslots slot hslot with hsettled | hspoilt
      · obtain ⟨writes, hgiven, htext⟩ := hmembers.known m hm _ (hentry slot hslot) hkey
        refine Or.inr fun a => ?_
        obtain ⟨a', htakes, -⟩ := hsettled.given writes hgiven m.2 htext a
        rw [hkey] at htakes
        exact ⟨a', htakes⟩
      · exact Or.inl (hspoils slot hslot hspoilt m hm hkey)
    · have hnone : ∀ slot ∈ slots, slot.key ≠ m.1 :=
        fun slot hmem hkey => hslot ⟨slot, hmem, hkey⟩
      refine Or.inr fun a => ⟨a, .unknown ((field?_eq_none hkeys).2 hnone) ?_⟩
      refine hmembers.unknown m hm fun e he => ?_
      obtain ⟨slot, hslot, rfl⟩ := List.mem_map.1 he
      exact hnone slot hslot
  · obtain ⟨slot, hslot, hspoilt⟩ := hspoilt
    have hgiven : slot.value.isSome := by
      obtain ⟨-, -, writes, hwrites, -⟩ := hspoilt
      exact Option.isSome_of_mem hwrites
    obtain ⟨m, hm, hkey⟩ := List.mem_map.1 (hmembers.given _ (hentry slot hslot) hgiven)
    exact ⟨m, hm, hspoils slot hslot hspoilt m hm hkey.symm⟩

end Slot

/-! ## Fields for which it depends -/

/-- A slot with a condition for what is given for it to be read. -/
structure Question (α : Type) extends Slot α where
  fits : Prop

namespace Question

variable {γ δ : Type} {r : Record α}

def of (r : Record α) (key : String) (get : α → δ) (is : γ → δ) (writes : γ → List Char → Prop)
    (fits : γ → Prop) (value : Option γ) : Question α where
  toSlot := .of r key get is writes value
  fits := ∀ v ∈ value, fits v

/-- What is given is put in place if it fits, and refused otherwise. -/
structure Decided (r : Record α) (slots : List (Slot α)) (q : Question α) : Prop where
  settled : q.fits → q.toSlot.Settled r slots
  spoilt : ¬q.fits → q.toSlot.Spoilt r

theorem refuses_field {read : Reader β} {text : List Char} (h : Refuses read text) (key : String)
    (set : α → β → α) (a : α) : Refuses ((Field.of key read set).readInto a) text := by
  intro blanks rest hblanks hrest
  obtain ⟨e, he⟩ := h blanks rest hblanks hrest
  exact ⟨e, by simp only [Field.of, he]; rfl⟩

theorem Decided.of {slots : List (Slot α)} {key : String} {get : α → δ} {is : γ → δ}
    {writes : γ → List Char → Prop} {fits : γ → Prop} {value : Option γ} {read : Reader β}
    {set : α → β → α} (code : γ → β) (hfield : r.field? key = some (.of key read set))
    (hdecides : ∀ v text, writes v text → Decides read text (fits v) (code v))
    (hslots : ∀ v, value = some v → ∀ a, ∀ other ∈ slots,
      (other.key ≠ key → other.Right a) → other.Right (set a (code v))) :
    Decided r slots (.of r key get is writes fits value) where
  settled hfits := .of code hfield
    (fun v hv text htext => (hdecides v text htext).reads (hfits v hv)) hslots
  spoilt hnot := by
    simp only [Question.of, not_forall] at hnot
    obtain ⟨v, hv, hnot⟩ := hnot
    exact ⟨_, hfield, writes v, Option.mem_map_of_mem writes hv, fun text htext a =>
      refuses_field ((hdecides v text htext).refuses hnot) key set a⟩

/-- A record is read if everything that is given for it fits, and refused otherwise. -/
theorem decides_gives {questions : List (Question α)}
    (hdecided : ∀ q ∈ questions, q.Decided r (questions.map Question.toSlot))
    (hnodup : (r.fields.map Field.key).Nodup)
    (hkeys : r.fields.map Field.key = questions.map (·.key)) {target : α}
    (htarget : ∀ a, (∀ q ∈ questions, q.Right a) → a = target) {text : List Char}
    (h : Gives (questions.map fun q => q.toEntry) text) :
    Decides r.read text (∀ q ∈ questions, q.fits) target := by
  have hkeys' : r.fields.map Field.key = (questions.map Question.toSlot).map (·.key) := by
    rw [hkeys, List.map_map]
    rfl
  have hgives : Gives ((questions.map Question.toSlot).map Slot.toEntry) text := by
    rw [List.map_map]
    exact h
  constructor
  · intro hfits
    refine Slot.reads_gives hnodup hkeys' (fun slot hslot => ?_) (fun a hright => ?_) hgives
    · obtain ⟨q, hq, rfl⟩ := List.mem_map.1 hslot
      exact (hdecided q hq).settled (hfits q hq)
    · exact htarget a fun q hq => hright q.toSlot (List.mem_map_of_mem hq)
  · intro hnot
    refine Slot.refuses_gives hnodup hkeys' (fun slot hslot => ?_) ?_ hgives
    · obtain ⟨q, hq, rfl⟩ := List.mem_map.1 hslot
      by_cases hfits : q.fits
      · exact Or.inl ((hdecided q hq).settled hfits)
      · exact Or.inr ((hdecided q hq).spoilt hfits)
    · simp only [not_forall] at hnot
      obtain ⟨q, hq, hnot⟩ := hnot
      exact ⟨q.toSlot, List.mem_map_of_mem hq, (hdecided q hq).spoilt hnot⟩

def number (r : Record α) (key : String) (get : α → δ) (ofNat : Nat → δ) (limit : Nat)
    (value : Option NumberLiteral) : Question α :=
  .of r key get (fun l => ofNat l.value) NumberLiteral.IsText (·.Fits limit) value

theorem Decided.number {slots : List (Slot α)} {key expected : String} {get : α → δ}
    {ofNat : Nat → δ} {limit : Nat} {value : Option NumberLiteral} {set : α → Nat → α}
    (hfield : r.field? key = some (.of key (readNatural limit expected) set))
    (hlimit : limit ≤ Number.significandLimit)
    (hslots : ∀ l, value = some l → ∀ a, ∀ other ∈ slots,
      (other.key ≠ key → other.Right a) → other.Right (set a l.value)) :
    Decided r slots (.number r key get ofNat limit value) :=
  .of NumberLiteral.value hfield (fun l _ htext => l.decides htext hlimit expected) hslots

end Question

theorem readDocument_of_refuses {read : Reader β} {text : List Char} (h : Refuses read text)
    (before after : Blanks) {document : String}
    (hdocument : document.toList = before.chars ++ (text ++ after.chars)) :
    ∃ e, readDocument read document = .error e := by
  obtain ⟨e, he⟩ := h before.chars after.chars before.blank
    (by simpa using delimited_blanks after delimited_nil)
  rw [List.append_assoc] at he
  exact ⟨e, by simp only [readDocument, hdocument, he, bind, Except.bind]⟩

end Json

end StreamTap
