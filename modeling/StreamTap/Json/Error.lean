import StreamTap.Decimal.Text
import StreamTap.Text.Quoted

/-!
# What can be wrong with a JSON document

A document is read from left to right into a value of a known shape, and the
first thing that does not fit ends the reading.  Either the text is no JSON, or
a value is of another kind than the shape asks for, or it is out of range, or an
object has a known key twice.
-/

namespace StreamTap

namespace Json

/-- A value that was met where another kind of value should be. -/
inductive Found where
  | null
  | bool (value : Bool)
  | integer (value : Int)
  /-- The float with these bits. -/
  | float (bits : UInt64)
  | string (value : String)
  | sequence
  | map
  deriving DecidableEq, Repr

/-- Why a document is refused. -/
inductive Error where
  /-- The text ends where a value should begin, or inside a literal. -/
  | endInValue
  | endInObject
  | endInList
  | endInString
  | expectedValue
  | expectedColon
  | expectedCommaOrBracket
  | expectedCommaOrBrace
  | trailingComma
  | trailingCharacters
  | keyNotString
  | invalidNumber
  | numberOutOfRange
  /-- A literal that begins like `null`, `true` or `false` and goes on otherwise. -/
  | misspelt
  | invalidEscape
  | controlCharacter
  /-- The first half of a surrogate pair without a second escape. -/
  | halfPair
  /-- A second half without a first, or a first one before another escape. -/
  | loneSurrogate
  | wrongKind (found : Found) (expected : String)
  | outOfRange (value : Int) (expected : String)
  | duplicateField (key : String)
  deriving DecidableEq, Repr

/-- Floats are written out with up to five zeros behind the point and up to
sixteen digits before it. -/
def floatLayout : Decimal.Layout := ⟨-5, 15⟩

def Found.message : Found → String
  | .null => "null"
  | .bool value => "boolean `" ++ toString value ++ "`"
  | .integer value => "integer `" ++ toString value ++ "`"
  | .float bits => "floating point `" ++ floatLayout.float bits ++ "`"
  | .string value => "string " ++ Text.quote value
  | .sequence => "sequence"
  | .map => "map"

def Error.message : Error → String
  | .endInValue => "EOF while parsing a value"
  | .endInObject => "EOF while parsing an object"
  | .endInList => "EOF while parsing a list"
  | .endInString => "EOF while parsing a string"
  | .expectedValue => "expected value"
  | .expectedColon => "expected `:`"
  | .expectedCommaOrBracket => "expected `,` or `]`"
  | .expectedCommaOrBrace => "expected `,` or `\x7d`"
  | .trailingComma => "trailing comma"
  | .trailingCharacters => "trailing characters"
  | .keyNotString => "key must be a string"
  | .invalidNumber => "invalid number"
  | .numberOutOfRange => "number out of range"
  | .misspelt => "expected ident"
  | .invalidEscape => "invalid escape"
  | .controlCharacter => "control character (\\u0000-\\u001F) found while parsing a string"
  | .halfPair => "unexpected end of hex escape"
  | .loneSurrogate => "lone leading surrogate in hex escape"
  | .wrongKind found expected =>
    "invalid type: " ++ found.message ++ ", expected " ++ expected
  | .outOfRange value expected =>
    "invalid value: integer `" ++ toString value ++ "`, expected " ++ expected
  | .duplicateField key => "duplicate field `" ++ key ++ "`"

/-- A reader takes its value from the front of a text and leaves the rest. -/
abbrev Reader (α : Type) := List Char → Except Error (α × List Char)

/-- Whether a character may stand between two tokens. -/
def isBlank (c : Char) : Bool := c == ' ' || c == '\n' || c == '\t' || c == '\x0d'

/-- The text from its first token on. -/
def skipBlank (cs : List Char) : List Char := cs.dropWhile isBlank

end Json

end StreamTap
