import Campaign.Blob
import Campaign.Files.Address
import Campaign.Files.Companion
import Campaign.Store

/-!
# Database files

The store behind a path. A database that is not there yet is made, with the directory that holds it.
Its companions go when it is closed and when it is removed. What else lies at their places is in the
way.
-/

namespace Campaign

/-- An open database: a store, and the place of its file if there is one. -/
structure Database where
  place : Option Location
  system : System
  store : Store

/-- How a system writes databases: companions need means to share them. -/
def System.form : System → Form
  | unshared => .direct
  | _ => .staged

namespace Files

/-- The codec of every database. -/
def databaseCodec : Codec := .blob

/-- The longest path from the root that a database can have. -/
def greatestDatabasePath : Nat := 504

/-- Whether the system can look at every place that some steps lead through; it need not find
anything there. -/
def canLook (fs : Files) (place : Location) (steps : List FileName) : Bool :=
  (Path.trail place steps).all fun place =>
    match fs.follow [] place with
    | .ok _ | .error .notFound => true
    | .error _ => false

/-- The place of the file that an address names, in a directory that is there. -/
def databasePlace? (fs : Files) (workingDirectory : Location) (a : Address) : Option Location :=
  let p : Path := ⟨a.name⟩
  let place := p.place workingDirectory
  if place.isEmpty || (Path.ofLocation place).bytes.length > greatestDatabasePath
      || !fs.canLook (p.start workingDirectory) p.names || !(fs.follow [] place).isOk then none
  else some place

/-- Makes the directory that holds the end of a path. -/
def makeParent (fs : Files) (workingDirectory : Location) (p : Path) :
    Except FileFault Unit × Files :=
  match p.parent? with
  | none => (.ok (), fs)
  | some parent => fs.makeDirectories workingDirectory parent

/-- Why a database cannot be begun in an empty file. -/
def beginningFault? (fs : Files) (a : Address) (place : Location) : Option DatabaseFault :=
  if a.isReadOnly then some .readOnly
  else if fs.isBlocked place .changes then some .device
  else if fs.isBlocked place .journal then some .companion
  else if (Companion.journal.place place).any (·.length > Path.greatestName) then some .companion
  else none

/-- Whether the index of a database cannot be written, so that nothing else can. -/
def isHeld (fs : Files) (a : Address) (place : Location) : Bool :=
  a.system = .usual && !a.isFixed && fs.isBlocked place .index

/-- The files with the companions that a database leaves where it may only be read. -/
def leaveCompanions (fs : Files) (a : Address) (place : Location) : Files :=
  let fs := fs.leave place .changes
  if a.system = .usual then fs.leave place .index else fs

/-- The files without the companions that a system has in use. -/
def clearCompanions (fs : Files) (system : System) (place : Location) : Files :=
  match system with
  | .unshared => fs
  | .usual => (fs.clear place .changes).clear place .index
  | _ => fs.clear place .changes

/-- Begins a database in an empty file. Companions of another one are of no use to it. -/
def beginDatabase (fs : Files) (a : Address) (place : Location) :
    Except DatabaseFault Database × Files :=
  match fs.beginningFault? a place with
  | some fault =>
    (.error fault,
      if a.isReadOnly then fs else (fs.clearFilled place .journal).clearFilled place .changes)
  | none =>
    let fs := (fs.clear place .journal).clearFilled place .changes
    if fs.isHeld a place then (.error .readOnly, fs.leaveCompanions a place)
    else
      (.ok ⟨some place, a.system, .inMemory databaseCodec⟩,
        fs.put place (.file (.table .empty a.system.form)))

/-- Why a database with some content cannot be read as it lies there. -/
def readingFault? (fs : Files) (a : Address) (place : Location) (content : Content) :
    Option DatabaseFault :=
  let form? := content.form?
  if a.isFixed then none
  else if fs.isBlocked place .journal then some .device
  else if a.isReadOnly && fs.isBrokenOff place then some .readOnly
  else if fs.isBlocked place .changes then some .companion
  else if a.system = .unshared then
    if form? = some .staged || (fs.firstByte? place .changes).isSome then some .companion else none
  else if a.isReadOnly && form? = some .direct then some .readOnly
  else none

/-- Opens a database that is there. Where it may only be read, the companions are left behind. -/
def resumeDatabase (fs : Files) (a : Address) (place : Location) (content : Content) :
    Except DatabaseFault Database × Files :=
  match fs.readingFault? a place content with
  | some fault => (.error fault, fs)
  | none =>
    let isConverted := !a.isReadOnly && content.form? = some .direct && a.system.form = .staged
    let fs :=
      if !a.isFixed && fs.isBrokenOff place || isConverted then fs.clear place .journal else fs
    let isWritable := !a.isReadOnly && !fs.isHeld a place
    match Table.open? (some content) with
    | .error fault =>
      let isInUse := fault ≠ .notADatabase || (fs.firstByte? place .changes).isSome
      (.error fault, if isWritable && isInUse then fs.clearCompanions a.system place else fs)
    | .ok table =>
      let fs := if a.isReadOnly then fs else fs.put place (.file (.table table a.system.form))
      let fs := if isWritable || a.isFixed || a.system = .unshared then fs
        else fs.leaveCompanions a place
      (.ok ⟨some place, a.system, { codec := databaseCodec, table, isWritable }⟩, fs)

/-- Opens the database at a place, for which `path` was given. -/
def openAt (fs : Files) (a : Address) (path : String) (place : Location) :
    Except DatabaseFault Database × Files :=
  match fs.entry? place with
  | none =>
    if a.mode = .create then (fs.put place (.file (.bytes []))).beginDatabase a place
    else (.error (.cannotOpen path), fs)
  | some (.file content) =>
    if content.isBlank then fs.beginDatabase a place else fs.resumeDatabase a place content
  | some e =>
    (.error (if e = .directory && a.mode = .read then .unreadable else .cannotOpen path), fs)

/-- Opens the database that a path names. -/
def openNamed (fs : Files) (workingDirectory : Location) (path : String) :
    Except DatabaseFault Database × Files :=
  let bytes := (Path.ofText path).bytes
  match bytes.idxOf? 0, Address.ofBytes bytes with
  | some place, _ => (.error (.endMark place), fs)
  | none, .error fault => (.error (.address fault), fs)
  | none, .ok a =>
    if a.isPassing then
      (if a.isReadOnly then .error .readOnly else .ok ⟨none, a.system, .inMemory databaseCodec⟩, fs)
    else
      match fs.databasePlace? workingDirectory a with
      | none => (.error (.cannotOpen path), fs)
      | some place => fs.openAt a path place

/-- Opens the database that a path names, and first makes the directory that holds it. -/
def openDatabase (fs : Files) (workingDirectory : Location) (path : String) :
    Except DatabaseFault Database × Files :=
  match fs.makeParent workingDirectory (.ofText path) with
  | (.error fault, fs) => (.error (.directory fault), fs)
  | (.ok _, fs) => fs.openNamed workingDirectory path

/-- Closes a database. -/
def closeDatabase (fs : Files) (d : Database) : Files :=
  match d.place with
  | none => fs
  | some place =>
    if d.store.isWritable then
      (fs.put place (.file (.table d.store.table d.system.form))).clearCompanions d.system place
    else fs

/-- Removes files one after another, those that are there, and says whether there were any. -/
def removeEach (fs : Files) (workingDirectory : Location) :
    List Path → Except FileFault Bool × Files
  | [] => (.ok false, fs)
  | p :: paths =>
    match fs.remove workingDirectory p with
    | .ok fs =>
      let (rest, fs) := fs.removeEach workingDirectory paths
      (rest.map fun _ => true, fs)
    | .error .notFound => fs.removeEach workingDirectory paths
    | .error fault => (.error fault, fs)

/-- Removes the file at a path and its companions, and says whether there was anything to remove. An
address is taken for a path here. -/
def removeDatabase (fs : Files) (workingDirectory : Location) (path : String) :
    Except FileFault Bool × Files :=
  let p := Path.ofText path
  fs.removeEach workingDirectory (p :: Companion.removed.map (p.append ·.ending))

/-- The paths whose files count when the database at a path is opened or removed. -/
def databasePaths (workingDirectory : Location) (path : String) : List Path :=
  let p := Path.ofText path
  let places := match Address.ofBytes p.bytes with
    | .ok a =>
      let place := (Path.mk a.name).place workingDirectory
      place :: Companion.all.map (Companion.place · place)
    | .error _ => []
  p :: Companion.removed.map (p.append ·.ending) ++ places.map .ofLocation

end Files
end Campaign
