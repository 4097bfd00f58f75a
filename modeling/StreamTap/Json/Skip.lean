import StreamTap.Json.StringLiteral

/-!
# Values that nobody asks for

A value under an unknown key is skipped.  It has to be well formed, but its
numbers may be of any size, its strings may hold halves of surrogate pairs, and it
may be nested to any depth.

`run` goes through the text once and keeps the brackets that are open in a list of
frames, the innermost first.  What it expects next is a `State`.  Every step but
those from `opened` to a member or value takes a character away, so twice as many
steps as there are characters, and a few more, always suffice.
-/

namespace StreamTap

namespace Json

namespace Skip

/-- An open bracket. -/
inductive Frame where
  | list
  | object
  deriving DecidableEq, Repr

/-- What comes next in the text. -/
inductive State where
  /-- A value. -/
  | value
  /-- The first thing behind a bracket that was just opened. -/
  | opened
  /-- The key of a member and its value. -/
  | member
  /-- What may stand behind a value. -/
  | closed
  deriving DecidableEq, Repr

/-- Reads the rest of a literal whose first letter is known. -/
def readLetters : List Char → List Char → Except Error (List Char)
  | [], cs => .ok cs
  | _ :: _, [] => .error .endInValue
  | e :: es, c :: cs => if c = e then readLetters es cs else .error .misspelt

/-- Skips one digit or more. -/
def skipDigits (cs : List Char) : Except Error (List Char) :=
  match cs with
  | [] => .error .invalidNumber
  | c :: cs => if c.isDigit then .ok (cs.dropWhile Char.isDigit) else .error .invalidNumber

/-- Skips the digits before the point; several may not begin with a zero. -/
def skipInteger : List Char → Except Error (List Char)
  | '0' :: cs => if cs.head?.any Char.isDigit then .error .invalidNumber else .ok cs
  | cs => skipDigits cs

def skipFraction : List Char → Except Error (List Char)
  | '.' :: cs => skipDigits cs
  | cs => .ok cs

def skipSign : List Char → List Char
  | '+' :: cs => cs
  | '-' :: cs => cs
  | cs => cs

def skipExponent : List Char → Except Error (List Char)
  | 'e' :: cs => skipDigits (skipSign cs)
  | 'E' :: cs => skipDigits (skipSign cs)
  | cs => .ok cs

def skipNumber (cs : List Char) : Except Error (List Char) := do
  skipExponent (← skipFraction (← skipInteger cs))

/-- Skips a value that is no list and no object, and begins with the given
character. -/
def skipScalar (c : Char) (cs : List Char) : Except Error (List Char) :=
  if c = 'n' then readLetters ['u', 'l', 'l'] cs
  else if c = 't' then readLetters ['r', 'u', 'e'] cs
  else if c = 'f' then readLetters ['a', 'l', 's', 'e'] cs
  else if c = '"' then StringLiteral.skip cs
  else if c = '-' then skipNumber cs
  else if c.isDigit then skipNumber (c :: cs)
  else .error .expectedValue

/-- Skips a key, its opening quote included, and the colon behind it. -/
def skipKey (cs : List Char) : Except Error (List Char) :=
  match skipBlank cs with
  | [] => .error .endInObject
  | c :: cs =>
    if c ≠ '"' then .error .keyNotString
    else
      match StringLiteral.skip cs with
      | .error e => .error e
      | .ok cs =>
        match skipBlank cs with
        | [] => .error .endInObject
        | c :: cs => if c = ':' then .ok cs else .error .expectedColon

/-- Skips what is expected in a state inside the open brackets, and everything
behind it up to the end of the outermost value; takes at most `n` steps. -/
def run : Nat → State → List Frame → List Char → Except Error (List Char)
  | 0, _, _, _ => .error .endInValue
  | n + 1, .value, frames, cs =>
    match skipBlank cs with
    | [] => .error .endInValue
    | c :: cs =>
      if c = '[' then run n .opened (.list :: frames) cs
      else if c = '\x7b' then run n .opened (.object :: frames) cs
      else
        match skipScalar c cs with
        | .ok rest => run n .closed frames rest
        | .error e => .error e
  | n + 1, .member, frames, cs =>
    match skipKey cs with
    | .ok rest => run n .value frames rest
    | .error e => .error e
  | _ + 1, .opened, [], cs => .ok cs
  | n + 1, .opened, .list :: frames, cs =>
    match skipBlank cs with
    | [] => .error .endInList
    | c :: rest =>
      if c = ']' then run n .closed frames rest
      else run n .value (.list :: frames) (c :: rest)
  | n + 1, .opened, .object :: frames, cs =>
    match skipBlank cs with
    | [] => .error .endInObject
    | c :: rest =>
      if c = '\x7d' then run n .closed frames rest
      else run n .member (.object :: frames) (c :: rest)
  | _ + 1, .closed, [], cs => .ok cs
  | n + 1, .closed, .list :: frames, cs =>
    match skipBlank cs with
    | [] => .error .endInList
    | c :: rest =>
      if c = ',' then run n .value (.list :: frames) rest
      else if c = ']' then run n .closed frames rest
      else .error .expectedCommaOrBracket
  | n + 1, .closed, .object :: frames, cs =>
    match skipBlank cs with
    | [] => .error .endInObject
    | c :: rest =>
      if c = ',' then run n .member (.object :: frames) rest
      else if c = '\x7d' then run n .closed frames rest
      else .error .expectedCommaOrBrace

def value (cs : List Char) : Except Error (List Char) :=
  run (2 * cs.length + 3) .value [] cs

end Skip

end Json

end StreamTap
