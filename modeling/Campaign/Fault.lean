/-!
# Faults

Why an operation on trials fails, and how each cause is worded.
-/

namespace Campaign

/-- What is wrong in a log. -/
inductive LogReason where
  /-- The outcome of an attempt is neither success nor failure. -/
  | unknownOutcome (word : String)
  /-- A statistics line has too few values. -/
  | tooFewValues (wanted found : Nat)
  /-- The third statistics line has less than two values. -/
  | tooFewTimes
  | notANumber (word : String)
  /-- The log ends before the three statistics lines of a successful attempt. -/
  | cutShort
  /-- The log ends before the statistics of a successful attempt begin. -/
  | noStatistics
deriving DecidableEq, Repr

/-- Why a log cannot be read. -/
inductive LogFault where
  /-- The log breaks its format at a line, counted from 1. -/
  | malformed (line : Nat) (reason : LogReason)
  /-- The volume line has more numbers than a sample has columns left for. -/
  | overrun
deriving DecidableEq, Repr

/-- Why bytes are not a blob. -/
inductive BlobFault where
  | tooShort (length : Nat)
  | badMagic
  | elementType (code : Nat)
  | reservedBytes
  | columns (found : Nat)
  | bodyLength (found promised : Nat)
  | noRows
  /-- The tag that a tagging codec puts before a blob is missing. -/
  | missingTag
deriving DecidableEq, Repr

/-- An operation on files that the system refuses. -/
inductive FileFault where
  | notFound
  | alreadyThere
  | notADirectory
  | isADirectory
  | nameTooLong
  /-- The path has the character that ends all paths. -/
  | endMark
  | permissionDenied
  /-- Anything else, in the words of the system. -/
  | other (text : String)
deriving DecidableEq, Repr

/-- What a table can hold where something else is wanted. -/
inductive CellKind where
  | absent
  | integer
  | real
  | text
  | blob
deriving DecidableEq, Repr

/-- What is wrong with the address of a database. -/
inductive AddressFault where
  /-- It names a machine that is not this one. -/
  | authority (name : String)
  | unknownSystem (name : String)
  | unknownCache (name : String)
  | unknownMode (name : String)
  /-- It asks for more than the mode before it allows. -/
  | forbiddenMode (name : String)
deriving DecidableEq, Repr

/-- Why a database cannot be used. -/
inductive DatabaseFault where
  /-- The directory of the database cannot be made. -/
  | directory (cause : FileFault)
  /-- The path has the character that ends all paths at a place, counted from 0. -/
  | endMark (place : Nat)
  | address (cause : AddressFault)
  /-- The path of the database does not lead to a file. -/
  | cannotOpen (path : String)
  /-- What the path leads to cannot be read. -/
  | unreadable
  | notADatabase
  /-- A companion of the database cannot be opened. -/
  | companion
  /-- A companion of the database cannot be read or removed. -/
  | device
  | readOnly
  /-- The table of trials has other columns than it should. -/
  | layout (found expected : List String)
  /-- An integer in a result column does not fit. -/
  | outOfRange (value : Int) (column : Nat)
  /-- A result column holds a cell of the wrong kind. -/
  | cellKind (found : CellKind) (column : Nat) (name : String)
  /-- A row has no cell where it has to have one. -/
  | required (column : String)
  | check (name : String)
  /-- There is a row already that is the same in the columns of a key. -/
  | notUnique (columns : List String)
  /-- A cell that numbers its row is no integer. -/
  | numbering
  /-- A column refers to a table that is not there. -/
  | noTable (name : String)
deriving DecidableEq, Repr

/-- Why an operation on trials fails. -/
inductive Fault where
  | logName (name : String)
  | log (fault : LogFault)
  | blob (fault : BlobFault)
  | database (fault : DatabaseFault)
  /-- A number that no field of a key can have was asked for. -/
  | filter (value : Int)
  | file (fault : FileFault)
deriving DecidableEq, Repr

namespace LogReason

def message : LogReason → String
  | unknownOutcome word => s!"unknown attempt outcome '{word}'"
  | tooFewValues wanted found => s!"expected {wanted} values, found {found}"
  | tooFewTimes => "expected two timing values"
  | notANumber word => s!"'{word}' is not a number"
  | cutShort => "statistics block cut short"
  | noStatistics => "attempt reported OK but no statistics block followed"

end LogReason

namespace BlobFault

def message : BlobFault → String
  | tooShort length => s!"blob too short: {length} bytes"
  | badMagic => "bad magic"
  | elementType code => s!"unsupported element type {code}"
  | reservedBytes => "reserved header bytes are not zero"
  | columns found => s!"expected 8 columns, found {found}"
  | bodyLength found promised => s!"body is {found} bytes, header promises {promised}"
  | noRows => "zero-row matrix"
  | missingTag => "missing tag"

end BlobFault

namespace FileFault

def message : FileFault → String
  | notFound => "No such file or directory (os error 2)"
  | alreadyThere => "File exists (os error 17)"
  | notADirectory => "Not a directory (os error 20)"
  | isADirectory => "Is a directory (os error 21)"
  | nameTooLong => "File name too long (os error 36)"
  | endMark => "file name contained an unexpected NUL byte"
  | permissionDenied => "Permission denied (os error 13)"
  | other text => text

end FileFault

namespace CellKind

def name : CellKind → String
  | absent => "Null"
  | integer => "Integer"
  | real => "Real"
  | text => "Text"
  | blob => "Blob"

end CellKind

namespace AddressFault

def message : AddressFault → String
  | authority name => "invalid uri authority: " ++ name
  | unknownSystem name => "no such vfs: " ++ name
  | unknownCache name => "no such cache mode: " ++ name
  | unknownMode name => "no such access mode: " ++ name
  | forbiddenMode name => "access mode not allowed: " ++ name

end AddressFault

namespace DatabaseFault

/-- The wording of a fault in opening a database. -/
def opening (cause : String) : String :=
  "cannot open database: " ++ cause

def message : DatabaseFault → String
  | directory cause => "cannot create db directory: " ++ cause.message
  | endMark place => opening s!"nul byte found in provided data at position: {place}"
  | address cause => opening cause.message
  | cannotOpen path => opening ("unable to open database file: " ++ path)
  | unreadable => opening "disk I/O error"
  | notADatabase => "file is not a database"
  | companion => "unable to open database file"
  | device => "disk I/O error"
  | readOnly => "attempt to write a readonly database"
  | layout found expected =>
    "schema mismatch: trials has columns [" ++ ", ".intercalate found ++ "], expected ["
      ++ ", ".intercalate expected ++ "]"
  | outOfRange value column => s!"Integer {value} out of range at index {column}"
  | cellKind found column name =>
    "Invalid column type " ++ found.name ++ s!" at index: {column}, name: {name}"
  | required column => "NOT NULL constraint failed: trials." ++ column
  | check name => "CHECK constraint failed: " ++ name
  | notUnique columns =>
    "UNIQUE constraint failed: " ++ ", ".intercalate (columns.map ("trials." ++ ·))
  | numbering => "datatype mismatch"
  | noTable name => "no such table: main." ++ name

end DatabaseFault

namespace LogFault

def message : LogFault → String
  | malformed line reason => s!"malformed log at line {line}: " ++ reason.message
  | overrun => "index out of bounds: the len is 8 but the index is 8"

end LogFault

namespace Fault

/-- The wording of a fault. -/
def message : Fault → String
  | logName name => "malformed log filename: " ++ name
  | log fault => fault.message
  | blob fault => "codec error: " ++ fault.message
  | database fault => "database error: " ++ fault.message
  | filter value => s!"invalid filter: key value out of range: {value}"
  | file fault => "io error: " ++ fault.message

end Fault
end Campaign
