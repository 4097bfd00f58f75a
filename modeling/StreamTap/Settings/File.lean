import StreamTap.Files.Tree
import StreamTap.Settings.Document

/-!
# Settings in files

Settings are saved as the document that `Settings.document` writes and loaded from
any document that `Settings.ofDocument` reads.  Saving makes the directories that are
missing on the way, and these stay even if the file itself cannot be written.
-/

namespace StreamTap

/-- Why settings cannot be loaded. -/
inductive LoadError where
  | file (error : FileError)
  | document (error : Json.Error)
  deriving DecidableEq, Repr

namespace Settings

def load (files : FileTree) (path : Path) : Except LoadError Settings :=
  match files.text path with
  | .error e => .error (.file e)
  | .ok text =>
    match ofDocument text with
    | .error e => .error (.document e)
    | .ok s => .ok s

def save (s : Settings) (files : FileTree) (path : Path) : FileTree × Except FileError Unit :=
  match files.makeDirectories path.parents with
  | (files, .error e) => (files, .error e)
  | (files, .ok ()) =>
    match files.write path s.document.toUTF8 with
    | .ok files => (files, .ok ())
    | .error e => (files, .error e)

end Settings

end StreamTap
