import StreamTap.Json.Error
import StreamTap.Total

/-!
# Strings in JSON documents

What stands between quotes is read one character at a time, and `State` is what the
reader has to remember: whether it is inside an escape, how much of a hexadecimal
number it has, and whether that number completes a surrogate pair.

There are two readers.  `read` gives the text and is strict: an escape `\ud83d` for
the first half of a pair has to be followed by one for the second half.  `skip` only
finds the closing quote; it asks that escapes be well formed, but not that they make
up characters.  Both fail at the first thing that is wrong.

`encode` writes a text so that it can be read back: quotes, backslashes and control
characters are escaped, everything else stands for itself.
-/

namespace StreamTap

namespace Json

namespace StringLiteral

/-- The value of a hexadecimal digit in either case. -/
def hexDigit? (c : Char) : Option Nat :=
  if '0' ≤ c ∧ c ≤ '9' then some (c.toNat - '0'.toNat)
  else if 'a' ≤ c ∧ c ≤ 'f' then some (c.toNat - 'a'.toNat + 10)
  else if 'A' ≤ c ∧ c ≤ 'F' then some (c.toNat - 'A'.toNat + 10)
  else none

/-- Whether a text has room for four hexadecimal digits: whether it takes four
bytes or more. -/
def hasFourBytes (cs : List Char) : Bool := 4 ≤ total Char.utf8Size (cs.take 4)

/-- The character that a backslash and a letter stand for. -/
def simpleEscape? : Char → Option Char
  | '"' => some '"'
  | '\\' => some '\\'
  | '/' => some '/'
  | 'b' => some '\x08'
  | 'f' => some '\x0c'
  | 'n' => some '\n'
  | 'r' => some '\x0d'
  | 't' => some '\t'
  | _ => none

/-- Whether a 16-bit number is the first half of a surrogate pair. -/
def isFirstHalf (n : Nat) : Bool := 0xd800 ≤ n && n ≤ 0xdbff

def isSecondHalf (n : Nat) : Bool := 0xdc00 ≤ n && n ≤ 0xdfff

/-- The character of a surrogate pair. -/
def joinHalves (first second : Nat) : Char :=
  Char.ofNat (0x10000 + (first - 0xd800) * 0x400 + (second - 0xdc00))

/-- Where in a string the reader is. -/
inductive State where
  /-- Not inside an escape. -/
  | plain
  /-- Behind a backslash. -/
  | escape
  /-- In a number of which `left + 1` digits are missing; `first` is the first half
  that it has to complete. -/
  | hex (left value : Nat) (first : Option Nat)
  /-- Behind a first half, before the next backslash. -/
  | halfway (first : Nat)
  /-- Behind a first half and a backslash. -/
  | halfwayEscape (first : Nat)
  deriving DecidableEq, Repr

/-- What becomes of a complete number: a character, or a first half that waits for
its second. -/
def complete (n : Nat) : Option Nat → Except Error (State × Option Char)
  | none =>
    if isSecondHalf n then .error .loneSurrogate
    else if isFirstHalf n then .ok (.halfway n, none)
    else .ok (.plain, some (Char.ofNat n))
  | some first =>
    if isSecondHalf n then .ok (.plain, some (joinHalves first n))
    else .error .loneSurrogate

/-- What becomes of a character that does not close the string; `rest` is what
follows it. -/
def advance (state : State) (c : Char) (rest : List Char) :
    Except Error (State × Option Char) :=
  match state with
  | .plain =>
    if c = '\\' then .ok (.escape, none)
    else if c.toNat < 0x20 then .error .controlCharacter
    else .ok (.plain, some c)
  | .escape =>
    if c = 'u' then
      if hasFourBytes rest then .ok (.hex 3 0 none, none) else .error .endInString
    else
      match simpleEscape? c with
      | some d => .ok (.plain, some d)
      | none => .error .invalidEscape
  | .hex left value first =>
    match hexDigit? c with
    | none => .error .invalidEscape
    | some d =>
      match left with
      | 0 => complete (value * 16 + d) first
      | left + 1 => .ok (.hex left (value * 16 + d) first, none)
  | .halfway first => if c = '\\' then .ok (.halfwayEscape first, none) else .error .halfPair
  | .halfwayEscape first =>
    if c = 'u' then
      if hasFourBytes rest then .ok (.hex 3 0 (some first), none) else .error .endInString
    else .error .halfPair

/-- Reads up to the closing quote; `done` holds what was read before, the last
character first. -/
def readFrom (state : State) (done : List Char) : Reader (List Char)
  | [] => .error .endInString
  | c :: cs =>
    if state = .plain ∧ c = '"' then .ok (done.reverse, cs)
    else
      match advance state c cs with
      | .error e => .error e
      | .ok (state, none) => readFrom state done cs
      | .ok (state, some d) => readFrom state (d :: done) cs

/-- Reads on behind the opening quote of a string. -/
def read : Reader String := fun cs => do
  let (text, rest) ← readFrom .plain [] cs
  return (String.ofList text, rest)

/-- What becomes of a character of a string that is skipped.  A number is forgotten
as soon as it is complete. -/
def pass (state : State) (c : Char) (rest : List Char) : Except Error State :=
  match state with
  | .hex 0 _ _ => if (hexDigit? c).isSome then .ok .plain else .error .invalidEscape
  | state => (advance state c rest).map (·.1)

def skipFrom (state : State) : List Char → Except Error (List Char)
  | [] => .error .endInString
  | c :: cs =>
    if state = .plain ∧ c = '"' then .ok cs
    else
      match pass state c cs with
      | .error e => .error e
      | .ok state => skipFrom state cs

/-- Skips what stands behind the opening quote of a string. -/
def skip (cs : List Char) : Except Error (List Char) := skipFrom .plain cs

def encodeChar (c : Char) : List Char :=
  if c = '"' then ['\\', '"']
  else if c = '\\' then ['\\', '\\']
  else if c = '\x08' then ['\\', 'b']
  else if c = '\x0c' then ['\\', 'f']
  else if c = '\n' then ['\\', 'n']
  else if c = '\x0d' then ['\\', 'r']
  else if c = '\t' then ['\\', 't']
  else if c.toNat < 0x20 then
    ['\\', 'u', '0', '0', Nat.digitChar (c.toNat / 16), Nat.digitChar (c.toNat % 16)]
  else [c]

def encode (s : String) : List Char := '"' :: s.toList.flatMap encodeChar ++ ['"']

end StringLiteral

end Json

end StreamTap
