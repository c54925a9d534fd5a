import Campaign.Blob
import Campaign.Files
import Campaign.Schema.Definition

/-!
# Images of tables

The bytes of a file that holds a table: a mark, the form, the definitions of the schema, the rows. A
text or a blob stands behind its length, a list behind the number of its items, and all numbers are
little-endian. A file whose bytes are no image holds no table, and whoever reads a table as a file gets
its image.
-/

namespace Campaign.Image

/-- The bytes that every image starts with. -/
def mark : List UInt8 := Text.toUtf8 "TRIALS1\n"

def ofCount (n : Nat) : List UInt8 :=
  littleEndian 4 n

def ofBytes (bytes : List UInt8) : List UInt8 :=
  ofCount bytes.length ++ bytes

def ofText (s : String) : List UInt8 :=
  ofBytes (Text.toUtf8 s)

/-- How many integers eight bytes tell apart. -/
def integerRange : Nat := 0x10000000000000000

/-- A signed integer in eight bytes. -/
def ofInteger (n : Int) : List UInt8 :=
  littleEndian 8 (n % integerRange).toNat

def ofList {α : Type} (image : α → List UInt8) (items : List α) : List UInt8 :=
  ofCount items.length ++ items.flatMap image

/-- A cell behind the number of its kind. -/
def ofCell : Cell → List UInt8
  | .absent => [0]
  | .blob bytes => 1 :: ofBytes bytes
  | .text s => 2 :: ofText s
  | .integer n => 3 :: ofInteger n
  | .real v => 4 :: littleEndian 8 v.bits.toNat

def ofRow (row : Row) : List UInt8 :=
  row.key.toList.flatMap ofCell ++ ofCell row.samples

def ofForm : Form → List UInt8
  | .direct => [0]
  | .staged => [1]

def ofTable (t : Table) (form : Form) : List UInt8 :=
  mark ++ ofForm form ++ ofList ofText t.schema.source ++ ofList ofRow t.rows

/-- The first `length` bytes. Like all that reads from the front of an image, it gives what it reads
and what follows. -/
def takeBytes? (length : Nat) (s : List UInt8) : Option (List UInt8 × List UInt8) :=
  if length ≤ s.length then some (s.take length, s.drop length) else none

def takeCount? (s : List UInt8) : Option (Nat × List UInt8) := do
  let (bytes, rest) ← takeBytes? 4 s
  return (ofLittleEndian bytes, rest)

def takeBlob? (s : List UInt8) : Option (List UInt8 × List UInt8) := do
  let (length, rest) ← takeCount? s
  takeBytes? length rest

def takeText? (s : List UInt8) : Option (String × List UInt8) := do
  let (bytes, rest) ← takeBlob? s
  return (String.ofList (← Text.ofUtf8? bytes), rest)

def takeInteger? (s : List UInt8) : Option (Int × List UInt8) := do
  let (bytes, rest) ← takeBytes? 8 s
  return (Int.bmod (ofLittleEndian bytes) integerRange, rest)

def takeReal? (s : List UInt8) : Option (Value × List UInt8) := do
  let (bytes, rest) ← takeBytes? 8 s
  return (⟨UInt64.ofNat (ofLittleEndian bytes)⟩, rest)

/-- Reads items of one kind, as many as are asked for. -/
def takeItems? {α : Type} (take? : List UInt8 → Option (α × List UInt8)) :
    Nat → List UInt8 → Option (List α × List UInt8)
  | 0, s => some ([], s)
  | count + 1, s => do
    let (item, rest) ← take? s
    let (items, rest) ← takeItems? take? count rest
    return (item :: items, rest)

def takeList? {α : Type} (take? : List UInt8 → Option (α × List UInt8)) (s : List UInt8) :
    Option (List α × List UInt8) := do
  let (count, rest) ← takeCount? s
  takeItems? take? count rest

def takeCell? : List UInt8 → Option (Cell × List UInt8)
  | 0 :: rest => some (.absent, rest)
  | 1 :: rest => (takeBlob? rest).map fun (bytes, rest) => (.blob bytes, rest)
  | 2 :: rest => (takeText? rest).map fun (s, rest) => (.text s, rest)
  | 3 :: rest => (takeInteger? rest).map fun (n, rest) => (.integer n, rest)
  | 4 :: rest => (takeReal? rest).map fun (v, rest) => (.real v, rest)
  | _ => none

def takeRow? (s : List UInt8) : Option (Row × List UInt8) := do
  let (key, rest) ← takeItems? takeCell? 4 s
  let (samples, rest) ← takeCell? rest
  return (⟨← Setting.ofList? key, samples⟩, rest)

def takeForm? : List UInt8 → Option (Form × List UInt8)
  | 0 :: rest => some (.direct, rest)
  | 1 :: rest => some (.staged, rest)
  | _ => none

/-- The table that some bytes are the image of, and its form. -/
def table? (bytes : List UInt8) : Option (Table × Form) := do
  if !mark.isPrefixOf bytes then none
  let (form, rest) ← takeForm? (bytes.drop mark.length)
  let (definitions, rest) ← takeList? takeText? rest
  let (rows, rest) ← takeList? takeRow? rest
  if rest.isEmpty then some (⟨← Schema.ofDefinitions? definitions, rows⟩, form) else none

end Campaign.Image

namespace Campaign

/-- The bytes of a file. -/
def Content.image : Content → List UInt8
  | bytes b => b
  | table t form => Image.ofTable t form

/-- What a reader gets of an entry, if it is a file. -/
def Entry.contents? : Entry → Option (Except FileFault (List UInt8))
  | file content => some (.ok content.image)
  | unreadable cause => some (.error cause)
  | directory | unlisted _ => none

/-- What a file with the given bytes holds. -/
def Content.ofImage (b : List UInt8) : Content :=
  match Image.table? b with
  | some (t, form) => .table t form
  | none => .bytes b

end Campaign
