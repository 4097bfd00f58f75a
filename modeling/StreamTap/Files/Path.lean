import StreamTap.Total

/-!
# Paths

A path is a text of pieces between slashes.  The pieces are kept as they are
written, the empty ones included, because the text itself counts: a slash at the end
asks for a directory, and there is a limit to the length.

What a path leads through are its `names`, the pieces that are not empty.  Two of
them are not names of something inside a directory: `.` is the directory that was
reached, and `..` is the one around it.

`beginnings` cuts a path off behind each of its names.  These are the directories
that have to be there before something can be put under the path.
-/

namespace StreamTap

/-- A path by its pieces. -/
structure Path where
  pieces : List String
  deriving DecidableEq, Repr

namespace Path

def ofString (s : String) : Path := ⟨s.splitOn "/"⟩

/-- How many bytes the path takes as text. -/
def size (p : Path) : Nat := total String.utf8ByteSize p.pieces + (p.pieces.length - 1)

def isEmpty (p : Path) : Bool := p.size == 0

/-- The names the path leads through. -/
def names (p : Path) : List String := p.pieces.filter (· != "")

/-- Whether the path asks for a directory by a slash at its end. -/
def endsInSlash (p : Path) : Bool := p.pieces.getLast? == some ""

/-- Whether a piece leads nowhere: it is empty, or it stands for the directory that
was reached. -/
def isIdle (piece : String) : Bool := piece == "" || piece == "."

/-- The cuts behind each name of a path, with the pieces in reverse.  Idle pieces are
cut off with what follows them, but for a dot at the very front. -/
def cuts : List String → List (List String)
  | [] => []
  | [front] => if front = "" then [] else [[front]]
  | piece :: before => if isIdle piece then cuts before else (piece :: before) :: cuts before

/-- The beginnings of a path, the longest first.  The first one leads where the path
itself leads, and the second one to the directory in which that is. -/
def beginnings (p : Path) : List Path := (cuts p.pieces.reverse).map (⟨·.reverse⟩)

/-- The directories on the way to what the path leads to, the last one first. -/
def parents (p : Path) : List Path := p.beginnings.tail

end Path

end StreamTap
