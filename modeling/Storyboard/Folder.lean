import Storyboard.Fault
import Storyboard.Folder.Path
import Storyboard.Picture

/-!
# Folders

A folder holds files and folders, by their places below it. Reading and
writing follow a path part by part: every part but the last must lead to a
folder. A path that leads out of the folder meets nothing there; what is
written there is of no further concern. Names and paths have a greatest length,
counted in bytes.

## Main definitions

* `Content`, `Content.isPicture` — what files hold.
* `Entry`, `Folder` — entries and the folder.
* `Folder.read`, `Folder.write` — one file.
-/

namespace Storyboard

/-- What a file holds. -/
inductive Content where
  | text (s : String)
  | bytes (bs : List UInt8)
  | picture (p : Picture)

/-- The bytes that the file of a picture starts with. -/
def pictureSignature : List UInt8 := [0x89, 0x50, 0x4E, 0x47, 0x0D, 0x0A, 0x1A, 0x0A]

/-- The bytes of a file, as far as they are known: a picture's are left to
whatever stores it. -/
def Content.toBytes : Content → List UInt8
  | .text s => s.toUTF8.toList
  | .bytes bs => bs
  | .picture _ => pictureSignature

/-- Whether a file holds a picture, by the bytes it starts with. -/
def Content.isPicture (c : Content) : Bool :=
  pictureSignature.isPrefixOf c.toBytes

/-- What stands at a place. -/
inductive Entry where
  | folder
  | file (content : Content)

/-- The entries below a folder, by the names that lead to them. -/
structure Folder where
  entries : List (List String × Entry) := []

namespace Folder

/-- Where a path leads: to a place below the folder, to a folder around it, or
to a name in such a folder. -/
inductive Place where
  | inside (names : List String)
  | around
  | beside

/-- What stands at a place, if anything does. -/
def entryAt? (d : Folder) : Place → Option Entry
  | .inside [] => some .folder
  | .inside names => d.entries.lookup names
  | .around => some .folder
  | .beside => none

/-- One part of a path further. -/
def Place.enter (p : Place) (part : String) : Place :=
  if part = "." then p
  else if part = ".." then
    match p with
    | .inside [] => .around
    | .inside names => .inside names.dropLast
    | _ => .around
  else
    match p with
    | .inside names => .inside (names ++ [part])
    | _ => .beside

/-- The greatest number of bytes in a name. -/
def longestName : Nat := 255

/-- The greatest number of bytes in a path. -/
def longestPath : Nat := 4095

/-- Follows the parts of a path; `path` is the path shown in a fault. -/
def follow (d : Folder) (path : String) : Place → List String → Except Fault Place
  | p, [] => .ok p
  | p, part :: rest =>
    match d.entryAt? p with
    | none => .error (.missingFile path)
    | some (.file _) => .error (.notFolder path)
    | some .folder =>
      if longestName < part.utf8ByteSize then .error (.nameTooLong path)
      else d.follow path (p.enter part) rest

/-- The parts of a path as they are followed. -/
def partsOf (path : String) : List String :=
  ((Path.splitSlashes path.toList).map String.ofList).filter (· ≠ "")

/-- Where the parts of a path are followed from: the folder around if the path
starts with a slash, else the folder itself. -/
def startOf (path : String) : Place :=
  match path.toList with
  | '/' :: _ => .around
  | _ => .inside []

/-- Whether a path can be followed at all: it has no null character, it is not
empty and it is not too long. -/
def checkPath (path : String) : Except Fault Unit :=
  if '\x00' ∈ path.toList then .error .nullInPath
  else if path = "" then .error (.missingFile path)
  else if longestPath < path.utf8ByteSize then .error (.nameTooLong path)
  else .ok ()

/-- The place that a path leads to. -/
def locate (d : Folder) (path : String) : Except Fault Place := do
  checkPath path
  d.follow path (startOf path) (partsOf path)

/-- Makes sure that a path leads into a folder, whatever its last part is. -/
def locateFolder (d : Folder) (path : String) : Except Fault Place := do
  checkPath path
  d.follow path (startOf path) ((partsOf path).dropLast ++ ["."])

/-- Whether a path ends in a slash, and so must lead to a folder. -/
def endsInSlash (path : String) : Bool :=
  path.toList.getLast? = some '/'

/-- The content of the file at a path. -/
def read (d : Folder) (path : String) : Except Fault Content := do
  let place ← d.locate path
  match d.entryAt? place with
  | none => .error (.missingFile path)
  | some .folder => .error (.isFolder path)
  | some (.file content) =>
    if endsInSlash path then .error (.notFolder path) else pure content

/-- Puts an entry at a place below the folder. -/
def put (d : Folder) (names : List String) (entry : Entry) : Folder where
  entries := d.entries.filter (fun e => e.1 ≠ names) ++ [(names, entry)]

/-- Puts a file at a place, if the place is below the folder. -/
def store (d : Folder) (place : Place) (content : Content) : Folder :=
  match place with
  | .inside names => d.put names (.file content)
  | _ => d

/-- Writes the file at a path, which is made if it is not there. No file is
made under a name with a slash behind it. -/
def write (d : Folder) (path : String) (content : Content) : Except Fault Folder := do
  if endsInSlash path then
    let _ ← d.locateFolder path
    .error (.isFolder path)
  else
    let place ← d.locate path
    match d.entryAt? place with
    | some .folder => .error (.isFolder path)
    | _ => pure (d.store place content)

/-- The files below the folder, by their paths. -/
def files (d : Folder) : List (String × Content) :=
  d.entries.filterMap fun (names, entry) =>
    match entry with
    | .folder => none
    | .file content => some (String.intercalate "/" names, content)

end Folder

end Storyboard
