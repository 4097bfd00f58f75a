import StreamTap.Text.Printable

/-!
# Quoted text

A text that a message refers to stands between double quotes, written so that it
can be told apart from every other one: quotes, backslashes, the common control
characters and NUL have an escape of their own, and every other character that
does not show by itself is written as its code point, `\\u{7}`.
-/

namespace StreamTap

namespace Text

/-- A character inside quotes. -/
def quoteChar (c : Char) : List Char :=
  if c = '\x00' then ['\\', '0']
  else if c = '\t' then ['\\', 't']
  else if c = '\n' then ['\\', 'n']
  else if c = '\x0d' then ['\\', 'r']
  else if c = '"' then ['\\', '"']
  else if c = '\\' then ['\\', '\\']
  else if isPrintable c then [c]
  else ['\\', 'u', '\x7b'] ++ Nat.toDigits 16 c.toNat ++ ['\x7d']

def quote (s : String) : String :=
  "\"" ++ String.ofList (s.toList.flatMap quoteChar) ++ "\""

end Text

end StreamTap
