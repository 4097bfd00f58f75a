import StreamTap.Proofs.Json.Members

/-!
# What is written is read back

What is written for a value is a text of the grammar: a character of a string is spelt in one
of the ways there are, and an object, one member a line, is the text of an object with these
members.  How such texts are read is known, so nothing has to be said about reading here.

`Fills` follows the reader all the same: member by member it says which record there is
afterwards, provided that the key is one of the record's and that the value is read, at whatever
depth it is written.  If no key comes twice, an object whose members fill a record is read as
this record (`reads_object`), and since this is a fact of the same kind as those about scalars,
it is all there is to say about objects inside objects.
-/

namespace StreamTap

namespace Json

/-! ## Strings -/

namespace StringLiteral

theorem spelling_encodeChar (c : Char) : Spelling c (encodeChar c) := by
  have hletter : ∀ {l d : Char}, c = d → (l, d) ∈ letterEscapes → Spelling c ['\\', l] := by
    rintro l d rfl hmem
    exact .letter hmem
  unfold encodeChar
  split
  · next h => exact hletter h (by decide)
  split
  · next h => exact hletter h (by decide)
  split
  · next h => exact hletter h (by decide)
  split
  · next h => exact hletter h (by decide)
  split
  · next h => exact hletter h (by decide)
  split
  · next h => exact hletter h (by decide)
  split
  · next h => exact hletter h (by decide)
  split
  · next h =>
    have hzero : HexDigit '0' 0 := ⟨by decide, .inl rfl⟩
    have hhigh : HexDigit (c.toNat / 16).digitChar (c.toNat / 16) := ⟨by omega, .inl rfl⟩
    have hlow : HexDigit (c.toNat % 16).digitChar (c.toNat % 16) := ⟨by omega, .inl rfl⟩
    have hnumber := HexNumber.mk hzero hzero hhigh hlow
    rw [show ((0 * 16 + 0) * 16 + c.toNat / 16) * 16 + c.toNat % 16 = c.toNat by omega] at hnumber
    exact .number hnumber
  · next hquote hslash _ _ _ _ _ hcontrol =>
    exact .plain (by simp [isPlain, hquote, hslash, Nat.le_of_not_lt hcontrol])

theorem spells_encode (text : List Char) : Spells text (text.flatMap encodeChar) := by
  induction text with
  | nil => exact .nil
  | cons c text ih => exact .cons (spelling_encodeChar c) ih

end StringLiteral

theorem reads_string (s : String) (indent : Nat) :
    Reads readString ((Value.string s).write indent) s := by
  rw [Value.write, StringLiteral.encode, List.cons_append]
  exact reads_isString (.mk (StringLiteral.spells_encode s.toList))

/-! ## Objects -/

section Objects

variable (indent : Nat)

def written (members : List (String × Value)) : List (String × List Char) :=
  members.map fun m => (m.1, m.2.write indent)

theorem written_keys (members : List (String × Value)) :
    (written indent members).map Prod.fst = members.map Prod.fst := by
  simp [written, Function.comp_def]

/-- The line of a member begins with blanks. -/
def margin : Blanks := ⟨Value.newLine indent, by simp [Value.newLine, isBlank]⟩

theorem member_writeMember (key : String) (value : Value) (after : Blanks) :
    Spacing.member ⟨margin indent, .none, ⟨[' '], rfl⟩, after⟩
        (key.toList.flatMap StringLiteral.encodeChar) (value.write indent) =
      Value.writeMember indent (key, value) ++ after.chars := by
  simp only [Spacing.member, Value.writeMember, StringLiteral.encode, margin, Blanks.none,
    List.append_assoc, List.cons_append, List.nil_append]

theorem joined_writeMembers (outer : Nat) (m : String × Value) (members : List (String × Value)) :
    Joined (written indent (m :: members))
      (Value.writeMembers indent true (m :: members) ++ Value.newLine outer) := by
  induction members generalizing m with
  | nil =>
    have hlast : Joined (written indent [m]) _ :=
      .last ⟨margin indent, .none, ⟨[' '], rfl⟩, margin outer⟩
        (StringLiteral.spells_encode m.1.toList)
    rw [member_writeMember] at hlast
    simpa [Value.writeMembers, margin] using hlast
  | cons next members ih =>
    have hmore : Joined (written indent (m :: next :: members)) _ :=
      .more ⟨margin indent, .none, ⟨[' '], rfl⟩, .none⟩
        (StringLiteral.spells_encode m.1.toList) (ih next)
    rw [member_writeMember] at hmore
    simpa [Value.writeMembers, Blanks.none] using hmore

theorem isObject_write (members : List (String × Value)) :
    IsObject (written (indent + 1) members) ((Value.object members).write indent) := by
  cases members with
  | nil => simpa [Value.write, written, Blanks.none] using IsObject.empty .none
  | cons m members =>
    have hjoined := IsObject.joined (joined_writeMembers (indent + 1) indent m members)
    rw [List.append_assoc] at hjoined
    simpa [Value.write] using hjoined

end Objects

variable {α β : Type}

/-- Members that are read one after another lead from one record to another. -/
inductive Fills (r : Record α) : α → List (String × Value) → α → Prop
  | nil (a : α) : Fills r a [] a
  | cons {a a' a'' : α} {key : String} {value : Value} {rest : List (String × Value)}
      (f : Field α) : r.field? key = some f →
      (∀ indent, Reads (f.readInto a) (value.write indent) a') →
      Fills r a' rest a'' → Fills r a ((key, value) :: rest) a''

theorem Fills.field {r : Record α} {read : Reader β} {set : α → β → α} {key : String}
    {value : Value} {b : β} {a a' : α} {rest : List (String × Value)}
    (hfield : r.field? key = some (.of key read set))
    (h : ∀ indent, Reads read (value.write indent) b) (hrest : Fills r (set a b) rest a') :
    Fills r a ((key, value) :: rest) a' :=
  .cons _ hfield (fun indent => reads_field (h indent) key set a) hrest

/-- What fills a record is taken in whatever way it is laid out. -/
theorem Fills.takesAll {r : Record α} {a a' : α} {members : List (String × Value)}
    (h : Fills r a members a') (hkeys : (members.map Prod.fst).Nodup) (indent : Nat) :
    TakesAll r a (written indent members) a' := by
  induction h with
  | nil a => exact .nil a
  | cons f hfield hvalue _ ih =>
    obtain ⟨hfresh, hkeys⟩ := List.nodup_cons.1 hkeys
    refine .cons (.known hfield (hvalue indent)) (fun _ => ?_) (ih hkeys)
    exact (written_keys indent _).symm ▸ hfresh

theorem reads_object {r : Record α} {a : α} {members : List (String × Value)}
    (h : Fills r r.blank members a) (hkeys : (members.map Prod.fst).Nodup) (indent : Nat) :
    Reads r.read ((Value.object members).write indent) a :=
  reads_isObject (isObject_write indent members) (h.takesAll hkeys (indent + 1))

end Json

end StreamTap
