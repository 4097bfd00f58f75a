import StreamTap.Proofs.Json.Skipping

/-!
# Objects in any form are read

An object is read one member at a time.  `TakesAll` follows the reader: under a key that the
record knows a value is read into it, and under any other key a value is skipped.  Around its
tokens a member has any blanks, and its key may be spelt in any way, so that what a text has to
do with its members is a relation (`IsObject`), and a record is read from every text of an
object whose members it takes (`reads_isObject`).

In what order the members come is up to the document.  `Presents` says of an unordered object
which keys it has and what stands behind them.  It is compared with the record field by field: a
`Slot` is a field with the value that may be given for it, and it is right in a record that has
there this value, or the default if there is none.  Where the next member comes for a slot, this
slot is put right and the others stay as they are, and what is wrong until then is yet to come
(`Slot.takesAll`).  So at the end every slot is right, and that makes up the record
(`Slot.reads_shows`).
-/

namespace StreamTap

namespace Json

variable {α β : Type}

/-! ## Texts of values of a known kind -/

def IsNatural (n : Nat) (text : List Char) : Prop := text = Nat.toDigits 10 n

def IsBool (value : Bool) (text : List Char) : Prop :=
  text = if value then ['t', 'r', 'u', 'e'] else ['f', 'a', 'l', 's', 'e']

inductive IsString (s : String) : List Char → Prop
  | mk {inside : List Char} : Spells s.toList inside → IsString s ('"' :: (inside ++ ['"']))

/-- What stands between the braces of an object with these members.  Of a value the text is
given, of a key what it stands for. -/
inductive Joined : List (String × List Char) → List Char → Prop
  | last (s : Spacing) {key : String} {inside value : List Char} : Spells key.toList inside →
      Joined [(key, value)] (s.member inside value)
  | more (s : Spacing) {key : String} {inside value text : List Char}
      {members : List (String × List Char)} : Spells key.toList inside → Joined members text →
      Joined ((key, value) :: members) (s.member inside value ++ ',' :: text)

inductive IsObject : List (String × List Char) → List Char → Prop
  | empty (inside : Blanks) : IsObject [] ('\x7b' :: (inside.chars ++ ['\x7d']))
  | joined {members : List (String × List Char)} {text : List Char} : Joined members text →
      IsObject members ('\x7b' :: (text ++ ['\x7d']))

/-! ## Objects of which some keys are known -/

/-- A known key, and which texts may stand behind it.  It need not be in the object at all. -/
structure Entry where
  key : String
  value : Option (List Char → Prop)

/-- The members in any order have the keys for which a value is given, and other keys with any
values. -/
structure Presents (entries : List Entry) (members : List (String × List Char)) : Prop where
  given : ∀ e ∈ entries, e.value.isSome → e.key ∈ members.map Prod.fst
  once : ∀ e ∈ entries, (members.map Prod.fst).count e.key ≤ 1
  /-- So there is no member with a key for which no value is given. -/
  known : ∀ m ∈ members, ∀ e ∈ entries, e.key = m.1 → ∃ writes ∈ e.value, writes m.2
  unknown : ∀ m ∈ members, (∀ e ∈ entries, e.key ≠ m.1) → WellFormed .value m.2

/-- The text of an object whose members give what the entries say. -/
def Shows (entries : List Entry) (text : List Char) : Prop :=
  ∃ members, IsObject members text ∧ Presents entries members

/-! ## Reading -/

theorem reads_isNatural {limit n : Nat} {text : List Char} (h : IsNatural n text)
    (hn : n < limit) (hlimit : limit ≤ Number.significandLimit) (expected : String) :
    Reads (readNatural limit expected) text n := by
  rw [IsNatural] at h
  rw [h]
  exact reads_natural hn hlimit expected 0

theorem reads_isBool {value : Bool} {text : List Char} (h : IsBool value text) :
    Reads readBool text value := by
  rw [IsBool] at h
  rw [h]
  exact reads_bool value 0

theorem reads_isString {s : String} {text : List Char} (h : IsString s text) :
    Reads readString text s := by
  obtain ⟨hspells⟩ := h
  intro blanks rest hblanks _
  have hquote : isBlank '"' = false := by decide
  have htext := StringLiteral.read_spells hspells rest
  rw [String.ofList_toList] at htext
  simp only [readString, skipBlank_before hblanks hquote, if_true]
  rw [List.append_assoc]
  exact htext

theorem reads_field {read : Reader β} {text : List Char} {b : β} (h : Reads read text b)
    (key : String) (set : α → β → α) (a : α) :
    Reads ((Field.of key read set).readInto a) text (set a b) := by
  intro blanks rest hblanks hrest
  simp only [Field.of, h blanks rest hblanks hrest]
  rfl

theorem readDocument_of_reads {read : Reader β} {text : List Char} {b : β} (h : Reads read text b)
    (before after : Blanks) {document : String}
    (hdocument : document.toList = before.chars ++ (text ++ after.chars)) :
    readDocument read document = .ok b := by
  have hread := h before.chars after.chars before.blank
    (by simpa using delimited_blanks after delimited_nil)
  have hend : skipBlank after.chars = [] := by
    rw [← List.append_nil after.chars, skipBlank_blanks]
    rfl
  rw [List.append_assoc] at hread
  simp only [readDocument, hdocument, hread, bind, Except.bind, hend]
  rfl

/-- What a record becomes by a member. -/
inductive Takes (r : Record α) : α → String × List Char → α → Prop
  | known {a a' : α} {key : String} {value : List Char} {f : Field α} :
      r.field? key = some f → Reads (f.readInto a) value a' → Takes r a (key, value) a'
  | unknown {a : α} {key : String} {value : List Char} :
      r.field? key = none → WellFormed .value value → Takes r a (key, value) a

/-- What it becomes by members of which only unknown ones come more than once. -/
inductive TakesAll (r : Record α) : α → List (String × List Char) → α → Prop
  | nil (a : α) : TakesAll r a [] a
  | cons {a a' a'' : α} {m : String × List Char} {members : List (String × List Char)} :
      Takes r a m a' → ((r.field? m.1).isSome → m.1 ∉ members.map Prod.fst) →
      TakesAll r a' members a'' → TakesAll r a (m :: members) a''

theorem nextKey_member (s : Spacing) (first : Bool) (lead : Blanks)
    (inside value rest : List Char) :
    Record.nextKey first ((if first then [] else lead.chars ++ [',']) ++
        (s.member inside value ++ rest)) =
      .ok (true, inside ++ '"' :: (s.beforeColon.chars ++ ':' ::
        (s.behindColon.chars ++ (value ++ (s.after.chars ++ rest))))) := by
  have hquote := skipBlank_cons (show isBlank '"' = false by decide)
  have hcomma := skipBlank_cons (show isBlank ',' = false by decide)
  cases first with
  | true =>
    simp only [if_true, List.nil_append, Spacing.member, List.append_assoc, List.cons_append,
      Record.nextKey, skipBlank_blanks, hquote]
    rfl
  | false =>
    simp only [Bool.false_eq_true, if_false, Spacing.member, List.append_assoc, List.cons_append,
      List.nil_append, Record.nextKey, skipBlank_blanks, hcomma, hquote]
    rfl

theorem nextKey_brace (first : Bool) (b : Blanks) (rest : List Char) :
    Record.nextKey first (b.chars ++ '\x7d' :: rest) = .ok (false, rest) := by
  have hbrace : skipBlank ('\x7d' :: rest) = '\x7d' :: rest := skipBlank_cons (by decide) rest
  simp only [Record.nextKey, skipBlank_blanks, hbrace]
  rfl

theorem readColon_append (before : Blanks) (cs : List Char) :
    Record.readColon (before.chars ++ ':' :: cs) = .ok cs := by
  simp only [Record.readColon, skipBlank_blanks,
    skipBlank_cons (show isBlank ':' = false by decide)]
  rfl

theorem readMember_takes {r : Record α} {a a' : α} {key : String} {value : List Char}
    (h : Takes r a (key, value) a') {seen : List String}
    (hfresh : (r.field? key).isSome → key ∉ seen) (before behind : Blanks) {rest : List Char}
    (hrest : Delimited rest) :
    r.readMember seen a key (before.chars ++ ':' :: (behind.chars ++ (value ++ rest))) =
      .ok (a', rest) := by
  cases h with
  | known hfield hreads =>
    have hvalue := hreads behind.chars rest behind.blank hrest
    rw [List.append_assoc] at hvalue
    simp only [Record.readMember, hfield, if_neg (hfresh (hfield ▸ rfl)), readColon_append]
    exact hvalue
  | unknown hfield hvalue =>
    simp only [Record.readMember, hfield, readColon_append, bind, Except.bind,
      Skip.value_append hvalue behind hrest]
    rfl

theorem readMembers_found {r : Record α} {key : String} {inside value : List Char}
    (hkey : Spells key.toList inside) (s : Spacing) (n : Nat) (first : Bool) (lead : Blanks)
    (seen : List String) (a : α) (rest : List Char) :
    r.readMembers (n + 1) first seen a ((if first then [] else lead.chars ++ [',']) ++
        (s.member inside value ++ rest)) =
      (r.readMember seen a key (s.beforeColon.chars ++ ':' ::
        (s.behindColon.chars ++ (value ++ (s.after.chars ++ rest))))).bind
          fun read => r.readMembers n false (key :: seen) read.1 read.2 := by
  have hname := StringLiteral.read_spells hkey (s.beforeColon.chars ++ ':' ::
    (s.behindColon.chars ++ (value ++ (s.after.chars ++ rest))))
  rw [String.ofList_toList] at hname
  simp only [Record.readMembers, nextKey_member, hname]
  generalize r.readMember seen a key _ = read
  cases read <;> rfl

theorem readMembers_member {r : Record α} {a a' : α} {key : String} {inside value : List Char}
    (hkey : Spells key.toList inside) (h : Takes r a (key, value) a') {seen : List String}
    (hfresh : (r.field? key).isSome → key ∉ seen) (s : Spacing) (n : Nat) (first : Bool)
    (lead : Blanks) {rest : List Char} (hrest : Delimited rest) :
    r.readMembers (n + 1) first seen a ((if first then [] else lead.chars ++ [',']) ++
        (s.member inside value ++ rest)) =
      r.readMembers n false (key :: seen) a' (s.after.chars ++ rest) := by
  have hvalue := readMember_takes h hfresh s.beforeColon s.behindColon
    (delimited_blanks s.after hrest)
  simp only [readMembers_found hkey, hvalue, Except.bind]

theorem readMembers_joined {r : Record α} {members : List (String × List Char)}
    {text : List Char} (htext : Joined members text) {a a' : α} (h : TakesAll r a members a')
    (first : Bool) (lead : Blanks) {seen : List String} {n : Nat}
    (hfresh : ∀ m ∈ members, (r.field? m.1).isSome → m.1 ∉ seen) (hn : members.length < n)
    (rest : List Char) :
    r.readMembers n first seen a
        ((if first then [] else lead.chars ++ [',']) ++ (text ++ '\x7d' :: rest)) =
      .ok (a', rest) := by
  induction htext generalizing a first lead seen n with
  | @last s key inside value hkey =>
    obtain ⟨n, rfl⟩ : ∃ k, n = k + 2 := ⟨n - 2, by rw [List.length_singleton] at hn; omega⟩
    obtain - | ⟨hmember, -, ⟨⟩⟩ := h
    rw [readMembers_member hkey hmember (hfresh _ List.mem_cons_self) s (n + 1) first lead
      (delimited_cons (by decide) rest)]
    simp only [Record.readMembers, nextKey_brace]
  | @more s key inside value text members hkey _ ih =>
    obtain ⟨n, rfl⟩ : ∃ k, n = k + 1 := ⟨n - 1, by omega⟩
    obtain - | ⟨hmember, honce, hothers⟩ := h
    have hfresh' : ∀ m ∈ members, (r.field? m.1).isSome → m.1 ∉ key :: seen := by
      intro m hm hknown
      rw [List.mem_cons, not_or]
      refine ⟨fun hsame => ?_, hfresh m (List.mem_cons_of_mem _ hm) hknown⟩
      have hagain : m.1 ∈ members.map Prod.fst := List.mem_map_of_mem hm
      exact honce (hsame ▸ hknown) (hsame ▸ hagain)
    have hnext := ih hothers false s.after hfresh' (Nat.lt_of_succ_lt_succ hn)
    rw [List.append_assoc, List.cons_append, readMembers_member hkey hmember
      (hfresh _ List.mem_cons_self) s n first lead (delimited_cons (by decide) _), ← hnext]
    simp only [Bool.false_eq_true, if_false, List.append_assoc, List.singleton_append]

theorem length_le_joined {members : List (String × List Char)} {text : List Char}
    (h : Joined members text) : members.length ≤ text.length := by
  induction h with
  | last s _ =>
    simp only [Spacing.member, List.length_append, List.length_cons, List.length_nil]
    omega
  | more s _ _ ih =>
    simp only [List.length_append, List.length_cons]
    omega

/-- An object is read as what its members make of the record in which nothing is given. -/
theorem reads_isObject {r : Record α} {members : List (String × List Char)} {text : List Char}
    (htext : IsObject members text) {a : α} (h : TakesAll r r.blank members a) :
    Reads r.read text a := by
  intro blanks rest hblanks _
  have hbrace : isBlank '\x7b' = false := by decide
  cases htext with
  | empty inside =>
    cases h
    simp only [Record.read, skipBlank_before hblanks hbrace]
    simp only [List.append_assoc, List.singleton_append, Record.readMembers, nextKey_brace]
    rfl
  | @joined members inside hjoined =>
    have hlength : members.length < (inside ++ '\x7d' :: rest).length + 1 := by
      have hjoin := length_le_joined hjoined
      rw [List.length_append]
      omega
    have hread := readMembers_joined hjoined h true .none (fun _ _ _ => List.not_mem_nil) hlength
      rest
    rw [if_pos rfl, List.nil_append] at hread
    simp only [Record.read, skipBlank_before hblanks hbrace]
    rw [List.append_assoc, List.singleton_append]
    exact hread

/-! ## Objects in which not every field is given -/

/-- A field of a record, with what may be given for it. -/
structure Slot (α : Type) extends Entry where
  /-- Whether a record has there what is given, or the default. -/
  Right : α → Prop

namespace Slot

variable {γ δ : Type} {r : Record α} {slots : List (Slot α)}

/-- A field that can be looked up.  What is given for it need not be what stands there: it can
be a part of that. -/
def of (r : Record α) (key : String) (get : α → δ) (is : γ → δ) (writes : γ → List Char → Prop)
    (value : Option γ) : Slot α where
  key
  value := value.map writes
  Right a := get a = (value.map is).getD (get r.blank)

/-- Where nothing is given the default is right, and by what is given the field is put right
and every other one left alone. -/
structure Settled (r : Record α) (slots : List (Slot α)) (slot : Slot α) : Prop where
  missing : slot.value = none → slot.Right r.blank
  given : ∀ writes ∈ slot.value, ∀ text, writes text → ∀ a, ∃ a', Takes r a (slot.key, text) a' ∧
    ∀ other ∈ slots, (other.key ≠ slot.key → other.Right a) → other.Right a'

theorem Settled.of {key : String} {get : α → δ} {is : γ → δ} {writes : γ → List Char → Prop}
    {value : Option γ} {read : Reader β} {set : α → β → α} (code : γ → β)
    (hfield : r.field? key = some (.of key read set))
    (hreads : ∀ v ∈ value, ∀ text, writes v text → Reads read text (code v))
    (hslots : ∀ v, value = some v → ∀ a, ∀ other ∈ slots,
      (other.key ≠ key → other.Right a) → other.Right (set a (code v))) :
    Settled r slots (.of r key get is writes value) where
  missing h := by
    obtain rfl := Option.map_eq_none_iff.1 h
    rfl
  given := by
    rintro _ hgiven text htext a
    obtain ⟨v, hv, rfl⟩ := Option.map_eq_some_iff.1 hgiven
    exact ⟨set a (code v), .known hfield (reads_field (hreads v hv text htext) key set a),
      hslots v hv a⟩

variable (hsettled : ∀ slot ∈ slots, slot.Settled r slots)
  (hkeys : r.fields.map Field.key = slots.map (·.key))

include hkeys in
theorem field?_eq_none {key : String} : r.field? key = none ↔ ∀ slot ∈ slots, slot.key ≠ key := by
  have hmem : key ∈ r.fields.map Field.key ↔ key ∈ slots.map (·.key) := by rw [hkeys]
  simp only [List.mem_map] at hmem
  simp only [Record.field?, List.find?_eq_none, beq_iff_eq]
  grind

include hsettled hkeys in
theorem takesAll {members : List (String × List Char)}
    (honce : ∀ slot ∈ slots, (members.map Prod.fst).count slot.key ≤ 1)
    (hknown : ∀ m ∈ members, ∀ slot ∈ slots, slot.key = m.1 → ∃ writes ∈ slot.value, writes m.2)
    (hunknown : ∀ m ∈ members, (∀ slot ∈ slots, slot.key ≠ m.1) → WellFormed .value m.2) {a : α}
    (hright : ∀ slot ∈ slots, slot.key ∉ members.map Prod.fst → slot.Right a) :
    ∃ a', TakesAll r a members a' ∧ ∀ slot ∈ slots, slot.Right a' := by
  induction members generalizing a with
  | nil => exact ⟨a, .nil a, fun slot hslot => hright slot hslot List.not_mem_nil⟩
  | cons m members ih =>
    have hrest := @ih
      (fun slot hslot => Nat.le_trans (List.count_le_count_cons ..) (honce slot hslot))
      (fun m hm => hknown m (List.mem_cons_of_mem _ hm))
      (fun m hm => hunknown m (List.mem_cons_of_mem _ hm))
    by_cases hslot : ∃ slot ∈ slots, slot.key = m.1
    · obtain ⟨slot, hslot, hkey⟩ := hslot
      obtain ⟨writes, hgiven, htext⟩ := hknown m List.mem_cons_self slot hslot hkey
      obtain ⟨a', htakes, hright'⟩ := (hsettled slot hslot).given writes hgiven m.2 htext a
      rw [hkey] at htakes
      have hfresh : m.1 ∉ members.map Prod.fst := by
        have hcount := honce slot hslot
        rw [List.map_cons, hkey, List.count_cons_self] at hcount
        exact List.count_eq_zero.1 (by omega)
      obtain ⟨a'', hall, hdone⟩ := hrest fun other hother hnone => hright' other hother fun hne =>
        hright other hother (by
          rw [List.map_cons, List.mem_cons, not_or, ← hkey]
          exact ⟨hne, hnone⟩)
      exact ⟨a'', .cons htakes (fun _ => hfresh) hall, hdone⟩
    · have hnone : ∀ slot ∈ slots, slot.key ≠ m.1 :=
        fun slot hmem hkey => hslot ⟨slot, hmem, hkey⟩
      have hfield : r.field? m.1 = none := (field?_eq_none hkeys).2 hnone
      obtain ⟨a', hall, hdone⟩ := hrest fun slot hslot hfree => hright slot hslot (by
        rw [List.map_cons, List.mem_cons, not_or]
        exact ⟨hnone slot hslot, hfree⟩)
      refine ⟨a', .cons (.unknown hfield (hunknown m List.mem_cons_self hnone)) (fun hsome => ?_)
        hall, hdone⟩
      rw [hfield] at hsome
      cases hsome

include hsettled hkeys in
/-- Members that present what is given lead to a record in which each slot is right. -/
theorem takesAll_presents {members : List (String × List Char)}
    (hmembers : Presents (slots.map Slot.toEntry) members) :
    ∃ a, TakesAll r r.blank members a ∧ ∀ slot ∈ slots, slot.Right a := by
  have hentry : ∀ slot ∈ slots, slot.toEntry ∈ slots.map Slot.toEntry :=
    fun slot hslot => List.mem_map_of_mem hslot
  refine takesAll hsettled hkeys
    (fun slot hslot => hmembers.once _ (hentry slot hslot))
    (fun m hm slot hslot => hmembers.known m hm _ (hentry slot hslot))
    (fun m hm hnone => hmembers.unknown m hm fun e he => ?_)
    fun slot hslot hnone => (hsettled slot hslot).missing
      (Option.not_isSome_iff_eq_none.1 fun hsome =>
        hnone (hmembers.given _ (hentry slot hslot) hsome))
  obtain ⟨slot, hslot, rfl⟩ := List.mem_map.1 he
  exact hnone slot hslot

include hsettled hkeys in
theorem reads_shows {target : α} (htarget : ∀ a, (∀ slot ∈ slots, slot.Right a) → a = target)
    {text : List Char} (h : Shows (slots.map Slot.toEntry) text) : Reads r.read text target := by
  obtain ⟨members, htext, hmembers⟩ := h
  obtain ⟨a, hall, hright⟩ := takesAll_presents hsettled hkeys hmembers
  obtain rfl := htarget a hright
  exact reads_isObject htext hall

end Slot

end Json

end StreamTap
