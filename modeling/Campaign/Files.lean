import Campaign.Files.Path
import Campaign.Table

/-!
# Files

A tree of directories and files, and what the system does with a path into it. A path is followed
step by step, and every step but the last must have led to a directory.
-/

namespace Campaign

/-- What is at a place. -/
inductive Entry where
  | directory
  | file (content : Content)
  /-- A file that the system does not let be read. -/
  | unreadable (cause : FileFault)
  /-- A directory whose entries the system does not list. -/
  | unlisted (cause : FileFault)
deriving DecidableEq, Repr

/-- Whether a path may go on behind an entry. -/
def Entry.isDirectory : Entry → Bool
  | directory | unlisted _ => true
  | file _ | unreadable _ => false

/-- The entries below the root, which is always a directory. Each place has one entry at most. -/
structure Files where
  entries : List (Location × Entry)
deriving Repr

/-- The text of a file, if it is text. -/
def Content.text? : Content → Option (List Char)
  | bytes b => Text.ofUtf8? b
  | table _ _ => none

namespace Files

def empty : Files := ⟨[]⟩

def entry? (fs : Files) (place : Location) : Option Entry :=
  if place.isEmpty then some .directory else fs.entries.lookup place

/-- The files with nothing at a place. -/
def erase (fs : Files) (place : Location) : Files :=
  ⟨fs.entries.filter fun (p, _) => p ≠ place⟩

/-- The files with an entry at a place. -/
def put (fs : Files) (place : Location) (e : Entry) : Files :=
  ⟨(fs.erase place).entries ++ [(place, e)]⟩

/-- The entries of a directory, by their names. -/
def children (fs : Files) (place : Location) : List (FileName × Entry) :=
  fs.entries.filterMap fun (p, e) =>
    if p.dropLast = place then p.getLast?.map fun name => (name, e) else none

/-- Follows steps from a place. The last one may lead to where nothing is. -/
def follow (fs : Files) : Location → List FileName → Except FileFault Location
  | place, [] => .ok place
  | place, step :: steps =>
    match fs.entry? place with
    | none => .error .notFound
    | some e =>
      if !e.isDirectory then .error .notADirectory
      else if step.length > Path.greatestName then .error .nameTooLong
      else fs.follow (Path.go place step) steps

/-- The place that a path leads to from a working directory. -/
def locate (fs : Files) (workingDirectory : Location) (p : Path) : Except FileFault Location :=
  match p.fault? with
  | some fault => .error fault
  | none => fs.follow (p.start workingDirectory) p.steps

/-- The entry that a path leads to. -/
def find (fs : Files) (workingDirectory : Location) (p : Path) : Except FileFault Entry := do
  match fs.entry? (← fs.locate workingDirectory p) with
  | some e => return e
  | none => throw .notFound

/-- Whether a path leads to an entry. -/
def pathExists (fs : Files) (workingDirectory : Location) (p : Path) : Bool :=
  (fs.find workingDirectory p).isOk

/-- The entries of the directory that a path leads to. -/
def list (fs : Files) (workingDirectory : Location) (p : Path) :
    Except FileFault (List (FileName × Entry)) := do
  let place ← fs.locate workingDirectory p
  match fs.entry? place with
  | some .directory => return fs.children place
  | some (.unlisted cause) => throw cause
  | some (.file _) | some (.unreadable _) => throw .notADirectory
  | none => throw .notFound

/-- What the file that a path leads to holds. -/
def read (fs : Files) (workingDirectory : Location) (p : Path) : Except FileFault Content := do
  match ← fs.find workingDirectory p with
  | .file content => return content
  | .unreadable cause => throw cause
  | .directory | .unlisted _ => throw .isADirectory

/-- The files without the one that a path leads to. -/
def remove (fs : Files) (workingDirectory : Location) (p : Path) : Except FileFault Files := do
  let place ← fs.locate workingDirectory p
  match fs.entry? place with
  | some e => if e.isDirectory then throw .isADirectory else return fs.erase place
  | none => throw .notFound

/-- Makes the directory that a path leads to. All before its last name must be there already. -/
def makeDirectory (fs : Files) (workingDirectory : Location) (p : Path) :
    Except FileFault Files := do
  if let some fault := p.fault? then throw fault
  let place ← fs.follow (p.start workingDirectory) (p.names.dropLast ++ [Path.here])
  let some name := p.names.getLast? | throw .alreadyThere
  if name = Path.here ∨ name = Path.above then throw .alreadyThere
  if name.length > Path.greatestName then throw .nameTooLong
  if (fs.entry? (place ++ [name])).isSome then throw .alreadyThere
  return fs.put (place ++ [name]) .directory

/-- Makes the directory that a path leads to unless it is there already. -/
def ensureDirectory (fs : Files) (workingDirectory : Location) (p : Path) :
    Except FileFault Files :=
  match fs.makeDirectory workingDirectory p with
  | .ok fs => .ok fs
  | .error fault =>
    if fault = .alreadyThere && (fs.find workingDirectory p).toOption.any Entry.isDirectory then .ok fs
    else .error fault

/-- Makes the first directory of a list, and the ones behind it before, as far as they are not
there. What was made before a fault stays. -/
def makeEach (fs : Files) (workingDirectory : Location) :
    List Path → Except FileFault Unit × Files
  | [] => (.ok (), fs)
  | p :: above =>
    match fs.ensureDirectory workingDirectory p with
    | .ok fs => (.ok (), fs)
    | .error .notFound =>
      match fs.makeEach workingDirectory above with
      | (.error fault, fs) => (.error fault, fs)
      | (.ok _, fs) =>
        match fs.ensureDirectory workingDirectory p with
        | .ok fs => (.ok (), fs)
        | .error fault => (.error fault, fs)
    | .error fault => (.error fault, fs)

/-- Makes the directory that a path leads to and those on the way to it. -/
def makeDirectories (fs : Files) (workingDirectory : Location) (p : Path) :
    Except FileFault Unit × Files :=
  fs.makeEach workingDirectory p.ancestors

/-- The files with an entry at a place and directories on the way to it. -/
def placeAt (fs : Files) (place : Location) (e : Entry) : Files :=
  (fs.makeDirectories [] (.ofLocation place.dropLast)).2.put place e

end Files
end Campaign
