import SwiftScribe.Files.Access

/-!
# A file system as data

A disk maps places, which are names from the root down, to directories and files. A path is walked
segment by segment, and every place it passes through has to be a directory. Names and paths may have
only so many bytes (`nameLimit`, `pathLimit`). `Disk.view` and `Session.sink` give access to a disk.
-/

namespace SwiftScribe.Files

/-- A place on a disk: the names from the root down. -/
abbrev Place := List String

/-- **What is at a place.** A file has a text, unless its bytes are none. -/
inductive Entry where
  | dir
  | file (text? : Option String)
deriving DecidableEq

/-- What kind of thing an entry is. -/
def Entry.kind : Entry → Kind
  | .dir => .dir
  | .file _ => .file

/-- **A disk**, and the place that relative paths start from. -/
structure Disk where
  entries : List (Place × Entry)
  workDir : Place

namespace Disk

/-- What is at a place. The root is a directory. -/
def entry? (disk : Disk) (place : Place) : Option Entry :=
  if place = [] then some .dir else disk.entries.lookup place

/-- Puts an entry at a place, instead of the one that was there. -/
def put (disk : Disk) (place : Place) (entry : Entry) : Disk :=
  { disk with entries := (place, entry) :: disk.entries.filter (·.1 != place) }

/-- Where one segment leads. -/
def follow (place : Place) (segment : String) : Place :=
  if isIdle segment then place
  else if segment == ".." then place.dropLast
  else place ++ [segment]

/-- How many bytes a name may have. -/
def nameLimit : Nat := 255

/-- How many bytes a path may have. -/
def pathLimit : Nat := 4095

/-- Walks along segments. Only directories can be walked through; there need not be anything at the
end. -/
def walk (disk : Disk) : Place → List String → Except Fault Place
  | place, [] => .ok place
  | place, segment :: rest =>
    match disk.entry? place with
    | none => .error .notFound
    | some (.file _) => .error .notADirectory
    | some .dir =>
      if nameLimit < segment.utf8ByteSize then .error .nameTooLong
      else disk.walk (follow place segment) rest

/-- The place that segments of a path lead to, from where the path starts. -/
def locateSegments (disk : Disk) (path : String) (segments : List String) : Except Fault Place :=
  if path == "" then .error .notFound
  else if path.toList.contains '\x00' then .error .nulInPath
  else if pathLimit < path.utf8ByteSize then .error .nameTooLong
  else disk.walk (if isAbsolute path then [] else disk.workDir) segments

/-- **The place that a path leads to.** -/
def locate (disk : Disk) (path : String) : Except Fault Place :=
  disk.locateSegments path (segments path)

/-- The place that a path leads to, its closing slashes left aside. -/
def locateNew (disk : Disk) (path : String) : Except Fault Place :=
  disk.locateSegments path ((segments path).reverse.dropWhile (· == "")).reverse

/-- What a path leads to. -/
def find (disk : Disk) (path : String) : Except Fault (Place × Entry) := do
  let place ← disk.locate path
  match disk.entry? place with
  | some entry => return (place, entry)
  | none => throw .notFound

def read (disk : Disk) (path : String) : Except Fault String := do
  match ← disk.find path with
  | (_, .dir) => throw .isADirectory
  | (_, .file none) => throw .notText
  | (_, .file (some text)) => return text

def kind? (disk : Disk) (path : String) : Option Kind :=
  match disk.find path with
  | .ok (_, entry) => some entry.kind
  | .error _ => none

/-- The name of a place, if it is right below a directory. -/
def nameIn? (dir place : Place) : Option String :=
  match place.getLast? with
  | some name => if place.dropLast = dir then some name else none
  | none => none

def names (disk : Disk) (path : String) : Except Fault (List String) := do
  match ← disk.find path with
  | (dir, .dir) => return disk.entries.filterMap fun (place, _) => nameIn? dir place
  | (_, .file _) => throw .notADirectory

/-- The disk with one more directory. -/
def makeDir (disk : Disk) (path : String) : Except Fault Disk := do
  let place ← disk.locateNew path
  match disk.entry? place with
  | some .dir => return disk
  | some (.file _) => throw .alreadyExists
  | none => return disk.put place .dir

/-- The disk with a file made or replaced. A path with a slash at its end is never one of a file. -/
def write (disk : Disk) (path text : String) : Except Fault Disk := do
  let place ← disk.locateNew path
  if disk.entry? place = some .dir ∨ path.toList.getLast? = some '/' then throw .isADirectory
  else return disk.put place (.file (some text))

/-- **Looking at a disk.** -/
def view (disk : Disk) : View Id where
  read := disk.read
  kind? := disk.kind?
  names := disk.names

end Disk

/-- **A disk and what has been printed.** -/
structure Session where
  disk : Disk
  printed : String

namespace Session

/-- Applies a change of the disk; one that fails leaves it as it was. -/
def change (f : Disk → Except Fault Disk) : StateM Session (Except Fault Unit) := fun session =>
  match f session.disk with
  | .ok disk => (.ok (), { session with disk })
  | .error fault => (.error fault, session)

/-- **Changing a disk, and printing.** -/
def sink : Sink (StateM Session) where
  print text := modify fun session => { session with printed := session.printed ++ text }
  makeDir path := change (·.makeDir path)
  write path text := change (·.write path text)

end Session

end SwiftScribe.Files
