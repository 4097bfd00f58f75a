import StreamTap.Proofs.Json.Scalars

/-!
# JSON texts

What a text has to be so that it is JSON, whoever has written it.  Between two tokens there may
be any blanks, a character inside quotes may be written in any of the ways there are, numbers
may be of any size and values may be nested to any depth.

Of strings there are two notions.  `Spells` says which text a string stands for, and so every
escape in it has to stand for a character or, with the next one, for half of a character.
`Quoted` only asks that each escape be well formed by itself.  A text of the second kind is
enough where nobody wants to know what it stands for.

`WellFormed` is the grammar of values.  It tells apart what stands inside the brackets of a list
and inside the braces of an object, so that one induction goes through all three.
-/

namespace StreamTap

namespace Json

/-- Characters that may stand between two tokens. -/
structure Blanks where
  chars : List Char
  blank : chars.all isBlank = true

namespace Blanks

def none : Blanks := ⟨[], rfl⟩

def append (before after : Blanks) : Blanks :=
  ⟨before.chars ++ after.chars, by simp [List.all_append, before.blank, after.blank]⟩

end Blanks

theorem skipBlank_blanks (b : Blanks) (cs : List Char) :
    skipBlank (b.chars ++ cs) = skipBlank cs := skipBlank_append b.blank cs

theorem delimited_blanks (b : Blanks) {cs : List Char} (h : Delimited cs) :
    Delimited (b.chars ++ cs) := by
  obtain ⟨blanks, hblanks⟩ := b
  cases blanks with
  | nil => exact h
  | cons c blanks =>
    rw [List.all_cons, Bool.and_eq_true] at hblanks
    exact delimited_cons (by simp [isDelimiter, hblanks.1]) _

/-! ## Strings -/

/-- The letters that stand for a character behind a backslash, each with this character. -/
def letterEscapes : List (Char × Char) :=
  [('"', '"'), ('\\', '\\'), ('/', '/'), ('b', '\x08'), ('f', '\x0c'), ('n', '\n'), ('r', '\x0d'),
    ('t', '\t')]

def HexDigit (c : Char) (value : Nat) : Prop :=
  value < 16 ∧ (c = value.digitChar ∨ c = value.digitChar.toUpper)

inductive HexNumber : List Char → Nat → Prop
  | mk {a b c d : Char} {i j k l : Nat} : HexDigit a i → HexDigit b j → HexDigit c k →
      HexDigit d l → HexNumber [a, b, c, d] (((i * 16 + j) * 16 + k) * 16 + l)

/-- Whether a character may stand for itself inside quotes. -/
def isPlain (c : Char) : Bool := c != '"' && c != '\\' && 0x20 ≤ c.toNat

/-- The ways to write a character inside quotes.  A character that takes more than 16 bits is
written in two halves. -/
inductive Spelling (c : Char) : List Char → Prop
  | plain : isPlain c = true → Spelling c [c]
  | letter {l : Char} : (l, c) ∈ letterEscapes → Spelling c ['\\', l]
  | number {ds : List Char} : HexNumber ds c.toNat → Spelling c ('\\' :: 'u' :: ds)
  | pair {ds ds' : List Char} : 0x10000 ≤ c.toNat →
      HexNumber ds (0xd800 + (c.toNat - 0x10000) / 0x400) →
      HexNumber ds' (0xdc00 + (c.toNat - 0x10000) % 0x400) →
      Spelling c ('\\' :: 'u' :: (ds ++ '\\' :: 'u' :: ds'))

/-- What stands between quotes writes a text. -/
inductive Spells : List Char → List Char → Prop
  | nil : Spells [] []
  | cons {c : Char} {cs text inside : List Char} : Spelling c cs → Spells text inside →
      Spells (c :: text) (cs ++ inside)

theorem Spells.of_plain {text : List Char} (h : text.all isPlain = true) : Spells text text := by
  induction text with
  | nil => exact .nil
  | cons c text ih =>
    rw [List.all_cons, Bool.and_eq_true] at h
    exact .cons (.plain h.1) (ih h.2)

/-- A character or an escape inside quotes.  Whether a number stands for a character does not
matter. -/
inductive QuotedPiece : List Char → Prop
  | plain {c : Char} : isPlain c = true → QuotedPiece [c]
  | letter {l c : Char} : (l, c) ∈ letterEscapes → QuotedPiece ['\\', l]
  | number {ds : List Char} {n : Nat} : HexNumber ds n → QuotedPiece ('\\' :: 'u' :: ds)

/-- What may stand between quotes. -/
inductive Quoted : List Char → Prop
  | nil : Quoted []
  | cons {cs inside : List Char} : QuotedPiece cs → Quoted inside → Quoted (cs ++ inside)

/-! ## Numbers -/

def Digits (ds : List Char) : Prop := ds ≠ [] ∧ ds.all Char.isDigit = true

/-- What stands before the point of a number.  Several digits do not begin with a zero. -/
inductive IntegerPart : List Char → Prop
  | zero : IntegerPart ['0']
  | other {c : Char} {cs : List Char} : c ≠ '0' → Digits (c :: cs) → IntegerPart (c :: cs)

inductive FractionPart : List Char → Prop
  | none : FractionPart []
  | some {ds : List Char} : Digits ds → FractionPart ('.' :: ds)

inductive ExponentPart : List Char → Prop
  | none : ExponentPart []
  | some {e : Char} {sign ds : List Char} : e ∈ ['e', 'E'] → sign ∈ [[], ['+'], ['-']] →
      Digits ds → ExponentPart (e :: (sign ++ ds))

inductive Unsigned : List Char → Prop
  | mk {integer fraction exponent : List Char} : IntegerPart integer → FractionPart fraction →
      ExponentPart exponent → Unsigned (integer ++ (fraction ++ exponent))

/-! ## Values -/

inductive Scalar : List Char → Prop
  | word {cs : List Char} : cs ∈ [['n', 'u', 'l', 'l'], ['t', 'r', 'u', 'e'],
      ['f', 'a', 'l', 's', 'e']] → Scalar cs
  | number {cs : List Char} : Unsigned cs → Scalar cs
  | negative {cs : List Char} : Unsigned cs → Scalar ('-' :: cs)
  | string {cs : List Char} : Quoted cs → Scalar ('"' :: (cs ++ ['"']))

/-- The blanks around the tokens of a member. -/
structure Spacing where
  before : Blanks
  beforeColon : Blanks
  behindColon : Blanks
  after : Blanks

/-- A member with what stands between the quotes of its key and with its value. -/
def Spacing.member (s : Spacing) (key value : List Char) : List Char :=
  s.before.chars ++ '"' :: (key ++ '"' :: (s.beforeColon.chars ++ ':' ::
    (s.behindColon.chars ++ (value ++ s.after.chars))))

/-- What the grammar of values is about. -/
inductive Part where
  | value
  /-- What stands inside the brackets of a list that is not empty. -/
  | items
  /-- What stands inside the braces of an object that is not empty. -/
  | members

/-- The grammar of values. -/
inductive WellFormed : Part → List Char → Prop
  | scalar {cs : List Char} : Scalar cs → WellFormed .value cs
  | emptyList (inside : Blanks) : WellFormed .value ('[' :: (inside.chars ++ [']']))
  | list {cs : List Char} : WellFormed .items cs → WellFormed .value ('[' :: (cs ++ [']']))
  | emptyObject (inside : Blanks) : WellFormed .value ('\x7b' :: (inside.chars ++ ['\x7d']))
  | object {cs : List Char} : WellFormed .members cs →
      WellFormed .value ('\x7b' :: (cs ++ ['\x7d']))
  | lastItem (before after : Blanks) {cs : List Char} : WellFormed .value cs →
      WellFormed .items (before.chars ++ (cs ++ after.chars))
  | item (before after : Blanks) {cs others : List Char} : WellFormed .value cs →
      WellFormed .items others →
      WellFormed .items (before.chars ++ (cs ++ (after.chars ++ ',' :: others)))
  | lastMember (s : Spacing) {key cs : List Char} : Quoted key → WellFormed .value cs →
      WellFormed .members (s.member key cs)
  | member (s : Spacing) {key cs others : List Char} : Quoted key → WellFormed .value cs →
      WellFormed .members others → WellFormed .members (s.member key cs ++ ',' :: others)

end Json

end StreamTap
