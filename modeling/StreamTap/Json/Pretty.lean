import StreamTap.Json.StringLiteral

/-!
# Writing JSON documents

A document is written with one member of an object on each line, two blanks
deeper than the object itself, and without a line end behind it.
-/

namespace StreamTap

namespace Json

/-- A value to be written. -/
inductive Value where
  | number (n : Nat)
  | bool (value : Bool)
  | string (s : String)
  | object (members : List (String × Value))

namespace Value

/-- A line end and the blanks that stand before a line. -/
def newLine (indent : Nat) : List Char := '\n' :: List.replicate (2 * indent) ' '

mutual

/-- A value whose first line stands `indent` steps deep. -/
def write (indent : Nat) : Value → List Char
  | .number n => Nat.toDigits 10 n
  | .bool value => if value then ['t', 'r', 'u', 'e'] else ['f', 'a', 'l', 's', 'e']
  | .string s => StringLiteral.encode s
  | .object members =>
    if members.isEmpty then ['\x7b', '\x7d']
    else '\x7b' :: writeMembers (indent + 1) true members ++ newLine indent ++ ['\x7d']

/-- The members of an object, each on a line of its own; all but the `first` have a
comma before them. -/
def writeMembers (indent : Nat) (first : Bool) : List (String × Value) → List Char
  | [] => []
  | member :: rest =>
    (if first then [] else [',']) ++ writeMember indent member ++ writeMembers indent false rest

def writeMember (indent : Nat) : String × Value → List Char
  | (key, value) => newLine indent ++ StringLiteral.encode key ++ [':', ' '] ++ write indent value

end

def document (v : Value) : String := String.ofList (v.write 0)

end Value

end Json

end StreamTap
