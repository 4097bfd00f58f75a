import StreamTap.Files.Path
import StreamTap.Registry

/-!
# Trees of files

A tree holds files and directories.  Each of them has a `Location`, the names on the
way to it from the root, and `follow` finds the location that a path leads to: it
goes from directory to directory, and fails at the first name that leads to none.

The root is in a directory too, and so is that.  These directories outside the tree
can be gone through, but nothing is known of what else is in them.

An operation on one entry either fails or is done.  `makeDirectories` makes one
directory after another, and those that are made stay if a later one fails.
-/

namespace StreamTap

/-- Why a file cannot be read or written. -/
inductive FileError where
  | notFound
  /-- A directory is to be made where something is. -/
  | exists
  /-- A path leads through a file. -/
  | notDirectory
  /-- A file was meant and there is a directory. -/
  | isDirectory
  /-- A name or the whole path is too long. -/
  | nameTooLong
  /-- The path has a NUL in it. -/
  | nulInPath
  | notText
  deriving DecidableEq, Repr

def FileError.message : FileError → String
  | .notFound => "No such file or directory (os error 2)"
  | .exists => "File exists (os error 17)"
  | .notDirectory => "Not a directory (os error 20)"
  | .isDirectory => "Is a directory (os error 21)"
  | .nameTooLong => "File name too long (os error 36)"
  | .nulInPath => "file name contained an unexpected NUL byte"
  | .notText => "stream did not contain valid UTF-8"

/-- The names on the way from the root.  At the front, `..` leads out of the tree. -/
abbrev Location := List String

def Location.up (l : Location) : Location :=
  if l.all (· == "..") then l ++ [".."] else l.dropLast

/-- The most bytes a name has. -/
def nameLimit : Nat := 255

/-- Every path has fewer bytes than this. -/
def pathLimit : Nat := 4096

/-- What a name means in a directory; the entry need not be there. -/
def Location.look (l : Location) (name : String) : Except FileError Location :=
  if name = "." then .ok l
  else if name = ".." then .ok l.up
  else if nameLimit < name.utf8ByteSize then .error .nameTooLong
  else .ok (l ++ [name])

/-- Whether a text can be a path. -/
def Path.check (p : Path) : Except FileError Unit :=
  if p.pieces.any (fun piece => piece.toList.contains '\x00') then .error .nulInPath
  else if p.isEmpty then .error .notFound
  else if pathLimit ≤ p.size then .error .nameTooLong
  else .ok ()

/-- Something at a location. -/
inductive Node where
  | file (content : ByteArray)
  | directory

/-- Files and directories. -/
structure FileTree where
  nodes : Registry Location Node

namespace FileTree

def empty : FileTree := ⟨.empty⟩

def node? (t : FileTree) (l : Location) : Option Node :=
  if l.all (· == "..") then some .directory else t.nodes.find? l

def put (t : FileTree) (l : Location) (node : Node) : FileTree := ⟨t.nodes.insert l node⟩

def enter (t : FileTree) (l : Location) (name : String) : Except FileError Location := do
  let inner ← l.look name
  match t.node? inner with
  | some .directory => return inner
  | some (.file _) => throw .notDirectory
  | none => throw .notFound

def walk (t : FileTree) (l : Location) : List String → Except FileError Location
  | [] => return l
  | name :: rest => do walk t (← t.enter l name) rest

/-- Follows a path up to its last name; gives that name and the directory in which it
is to be looked up. -/
def follow (t : FileTree) (p : Path) : Except FileError (Location × String) := do
  p.check
  let directory ← t.walk [] p.names.dropLast
  return (directory, p.names.getLast?.getD ".")

/-- What a path leads to.  Only to a directory can a path with a slash at its end
lead. -/
def find (t : FileTree) (p : Path) : Except FileError Node := do
  let (directory, name) ← t.follow p
  match t.node? (← directory.look name) with
  | none => throw .notFound
  | some .directory => return .directory
  | some (.file content) => if p.endsInSlash then throw .notDirectory else return .file content

def isDirectory (t : FileTree) (p : Path) : Bool :=
  match t.find p with
  | .ok .directory => true
  | _ => false

def content (t : FileTree) (p : Path) : Except FileError ByteArray := do
  match ← t.find p with
  | .file content => return content
  | .directory => throw .isDirectory

def text (t : FileTree) (p : Path) : Except FileError String := do
  match String.fromUTF8? (← t.content p) with
  | some text => return text
  | none => throw .notText

/-- Whether a name stands for a directory by itself. -/
def isDots (name : String) : Bool := name == "." || name == ".."

/-- Makes one directory in a directory that is there. -/
def makeDirectory (t : FileTree) (p : Path) : Except FileError FileTree := do
  let (directory, name) ← t.follow p
  if isDots name then throw .exists
  else
    let l ← directory.look name
    match t.node? l with
    | some _ => throw .exists
    | none => return t.put l .directory

/-- What comes of an attempt to make a directory.  One that was there before is as good
as one that was made. -/
def ensured (t : FileTree) (p : Path) : Except FileError FileTree → FileTree × Except FileError Unit
  | .ok t => (t, .ok ())
  | .error e => (t, if t.isDirectory p then .ok () else .error e)

/-- Makes the first of some directories, each of which is in the next one, and before
it those of the others that are missing. -/
def makeDirectories (t : FileTree) : List Path → FileTree × Except FileError Unit
  | [] => (t, .ok ())
  | p :: around =>
    match t.makeDirectory p with
    | .error .notFound =>
      match t.makeDirectories around with
      | (t, .ok ()) => t.ensured p (t.makeDirectory p)
      | (t, .error e) => (t, .error e)
    | made => t.ensured p made

/-- Writes a file, in place of the one that is there, in a directory that is there. -/
def write (t : FileTree) (p : Path) (content : ByteArray) : Except FileError FileTree := do
  let (directory, name) ← t.follow p
  if isDots name || p.endsInSlash then throw .isDirectory
  else
    let l ← directory.look name
    match t.node? l with
    | some .directory => throw .isDirectory
    | some (.file _) => return t.put l (.file content)
    | none => return t.put l (.file content)

end FileTree

end StreamTap
