import StreamTap.Json.Number
import StreamTap.Json.Skip

/-!
# Reading values of a known shape

A shape is a reader: for a number in a range, a boolean, a string, or a record.

A record is an object with known keys.  Members may come in any order and may be
missing; unknown ones are skipped; a known one may come only once.  A record may
also be written as a list of its fields in their order, of which the last ones may
be missing.  A field that is missing keeps the value it has in the record's
`blank`.

Where another kind of value stands, the error names it, and a scalar is first read
to its end, so that what is wrong inside it comes before that it is misplaced.
-/

namespace StreamTap

namespace Json

/-- The error for a value that is not of the expected kind.  If the value is a
scalar with an error of its own, that error. -/
def misplaced (expected : String) : List Char → Error
  | [] => .endInValue
  | c :: cs =>
    let after {α : Type} (r : Except Error α) (found : α → Found) : Error :=
      match r with
      | .ok a => .wrongKind (found a) expected
      | .error e => e
    if c = 'n' then after (Skip.readLetters ['u', 'l', 'l'] cs) fun _ => .null
    else if c = 't' then after (Skip.readLetters ['r', 'u', 'e'] cs) fun _ => .bool true
    else if c = 'f' then after (Skip.readLetters ['a', 'l', 's', 'e'] cs) fun _ => .bool false
    else if c = '-' || c.isDigit then after (Number.read (c :: cs)) fun r => r.1.found
    else if c = '"' then after (StringLiteral.read cs) fun r => .string r.1
    else if c = '[' then .wrongKind .sequence expected
    else if c = '\x7b' then .wrongKind .map expected
    else .expectedValue

/-- Reads a natural number below `limit`; `expected` is what such a number is
called. -/
def readNatural (limit : Nat) (expected : String) : Reader Nat := fun cs =>
  match skipBlank cs with
  | [] => .error .endInValue
  | c :: cs =>
    if c = '-' || c.isDigit then
      match Number.read (c :: cs) with
      | .error e => .error e
      | .ok (.float bits, _) => .error (.wrongKind (.float bits) expected)
      | .ok (.integer value, rest) =>
        if 0 ≤ value ∧ value < limit then .ok (value.toNat, rest)
        else .error (.outOfRange value expected)
    else .error (misplaced expected (c :: cs))

def readBool : Reader Bool := fun cs =>
  match skipBlank cs with
  | [] => .error .endInValue
  | c :: cs =>
    if c = 't' then (Skip.readLetters ['r', 'u', 'e'] cs).map fun rest => (true, rest)
    else if c = 'f' then
      (Skip.readLetters ['a', 'l', 's', 'e'] cs).map fun rest => (false, rest)
    else .error (misplaced "a boolean" (c :: cs))

def readString : Reader String := fun cs =>
  match skipBlank cs with
  | [] => .error .endInValue
  | c :: cs =>
    if c = '"' then StringLiteral.read cs else .error (misplaced "a string" (c :: cs))

/-- One field of a record. -/
structure Field (α : Type) where
  key : String
  /-- Reads the field's value into a record. -/
  readInto : α → Reader α

/-- A field whose value is read by one function and put in place by another. -/
def Field.of {α β : Type} (key : String) (read : Reader β) (set : α → β → α) : Field α where
  key
  readInto a cs := (read cs).map fun r => (set a r.1, r.2)

/-- The shape of a record. -/
structure Record (α : Type) where
  /-- What such a record is called. -/
  name : String
  /-- The record with no field given. -/
  blank : α
  /-- The fields in their order. -/
  fields : List (Field α)

namespace Record

variable {α : Type}

/-- The field with a key, if it is known. -/
def field? (r : Record α) (key : String) : Option (Field α) :=
  r.fields.find? (fun f => f.key == key)

/-- Reads the end of a record that is written as a list. -/
def endList (a : α) : Reader α := fun cs =>
  match skipBlank cs with
  | [] => .error .endInList
  | c :: rest =>
    if c = ']' then .ok (a, rest)
    else if c = ',' then
      match skipBlank rest with
      | ']' :: _ => .error .trailingComma
      | _ => .error .trailingCharacters
    else .error .trailingCharacters

/-- Reads the fields of a record that is written as a list; `first` says that
nothing was read behind the bracket. -/
def readItems (first : Bool) (a : α) : List (Field α) → Reader α
  | [], cs => endList a cs
  | f :: fs, cs =>
    match skipBlank cs with
    | [] => .error .endInList
    | c :: rest =>
      if c = ']' then readItems first a fs (c :: rest)
      else if first then
        match f.readInto a (c :: rest) with
        | .ok (a, cs) => readItems false a fs cs
        | .error e => .error e
      else if c = ',' then
        match skipBlank rest with
        | [] => .error .endInValue
        | ']' :: _ => .error .trailingComma
        | item =>
          match f.readInto a item with
          | .ok (a, cs) => readItems false a fs cs
          | .error e => .error e
      else .error .expectedCommaOrBracket

/-- Reads what stands between a bracket or a member and the next member, the
opening quote of its key included; nothing if the object ends there. -/
def nextKey (first : Bool) (cs : List Char) : Except Error (Bool × List Char) :=
  match skipBlank cs with
  | [] => .error .endInObject
  | c :: rest =>
    if c = '\x7d' then .ok (false, rest)
    else if first then
      if c = '"' then .ok (true, rest) else .error .keyNotString
    else if c = ',' then
      match skipBlank rest with
      | [] => .error .endInValue
      | c :: rest =>
        if c = '"' then .ok (true, rest)
        else if c = '\x7d' then .error .trailingComma
        else .error .keyNotString
    else .error .expectedCommaOrBrace

def readColon (cs : List Char) : Except Error (List Char) :=
  match skipBlank cs with
  | [] => .error .endInObject
  | c :: rest => if c = ':' then .ok rest else .error .expectedColon

/-- Reads the value of a member with the given key, if the key is known and was
not `seen` before, and skips it if the key is unknown. -/
def readMember (r : Record α) (seen : List String) (a : α) (key : String) : Reader α := fun cs =>
  match r.field? key with
  | some f =>
    if key ∈ seen then .error (.duplicateField key)
    else do f.readInto a (← readColon cs)
  | none => do return (a, ← Skip.value (← readColon cs))

/-- Reads at most `n` members and the end of the object. -/
def readMembers (r : Record α) : Nat → Bool → List String → α → Reader α
  | 0, _, _, _, _ => .error .endInObject
  | n + 1, first, seen, a, cs =>
    match nextKey first cs with
    | .error e => .error e
    | .ok (false, rest) => .ok (a, rest)
    | .ok (true, rest) =>
      match StringLiteral.read rest with
      | .error e => .error e
      | .ok (key, rest) =>
        match r.readMember seen a key rest with
        | .error e => .error e
        | .ok (a, rest) => readMembers r n false (key :: seen) a rest

def read (r : Record α) : Reader α := fun cs =>
  match skipBlank cs with
  | [] => .error .endInValue
  | c :: rest =>
    if c = '[' then readItems true r.blank r.fields rest
    else if c = '\x7b' then r.readMembers (rest.length + 1) true [] r.blank rest
    else .error (misplaced r.name (c :: rest))

end Record

/-- Reads a document that holds one value and nothing else. -/
def readDocument {α : Type} (read : Reader α) (text : String) : Except Error α := do
  let (a, rest) ← read text.toList
  if (skipBlank rest).isEmpty then return a else .error .trailingCharacters

end Json

end StreamTap
