import Campaign.Files

/-!
# Companions of databases

The files that lie beside a database while it is in use, and what is at their places.
-/

namespace Campaign

/-- A file that lies beside a database while it is in use. -/
inductive Companion where
  /-- What takes back a change that was broken off. -/
  | journal
  /-- The changes that are not in the database yet. -/
  | changes
  /-- Where the changes are. -/
  | index
deriving DecidableEq, Repr

namespace Companion

/-- What the name of a companion has behind the name of the database. -/
def ending : Companion → String
  | journal => "-journal"
  | changes => "-wal"
  | index => "-shm"

def all : List Companion := [journal, changes, index]

/-- The companions that are removed with a database. -/
def removed : List Companion := [changes, index]

/-- The place of a companion. -/
def place (c : Companion) (database : Location) : Location :=
  database.dropLast ++ [database.getLastD [] ++ Text.toUtf8 c.ending]

end Companion

namespace Files

/-- Whether something that is no file to be read is at the place of a companion. -/
def isBlocked (fs : Files) (database : Location) (c : Companion) : Bool :=
  match fs.entry? (c.place database) with
  | some (.file _) | none => false
  | some _ => true

/-- The first byte of a companion, if there is one. -/
def firstByte? (fs : Files) (database : Location) (c : Companion) : Option UInt8 :=
  match fs.entry? (c.place database) with
  | some (.file (.bytes bytes)) => bytes.head?
  | some (.file (.table _ _)) => some 1
  | _ => none

/-- The files without a companion, if it is a file. -/
def clear (fs : Files) (database : Location) (c : Companion) : Files :=
  if fs.isBlocked database c then fs else fs.erase (c.place database)

/-- The files without a companion, if it is a file with something in it. -/
def clearFilled (fs : Files) (database : Location) (c : Companion) : Files :=
  if (fs.firstByte? database c).isSome then fs.clear database c else fs

/-- The files with a companion, empty if nothing is at its place yet. -/
def leave (fs : Files) (database : Location) (c : Companion) : Files :=
  if (fs.entry? (c.place database)).isSome then fs
  else fs.put (c.place database) (.file (.bytes []))

/-- Whether a change of a database was broken off, so that it has to be taken back. -/
def isBrokenOff (fs : Files) (database : Location) : Bool :=
  (fs.firstByte? database .journal).any (· ≠ 0)

end Files
end Campaign
