import Campaign.Codec

/-!
# Blobs

The bytes of a matrix. A header of 16 bytes comes first: `TMX1`, the code 1 for 64-bit
floating-point numbers, three zero bytes, the row count and the column count. The values follow row
by row. All numbers are little-endian, the counts with 4 bytes and the values with 8.
-/

namespace Campaign

/-- The lowest `width` bytes of a number, lowest first. -/
def littleEndian : (width : Nat) → Nat → List UInt8
  | 0, _ => []
  | width + 1, n => UInt8.ofNat n :: littleEndian width (n / 256)

/-- The number of some bytes, lowest first. -/
def ofLittleEndian : List UInt8 → Nat
  | [] => 0
  | b :: bytes => b.toNat + 256 * ofLittleEndian bytes

namespace Blob

def magic : List UInt8 := "TMX1".toList.map fun c => UInt8.ofNat c.toNat

/-- The code of 64-bit floating-point numbers. -/
def elementType : UInt8 := 1

def headerLength : Nat := 16

def columnCount : Nat := 8

/-- The length of a row in bytes. -/
def rowLength : Nat := 64

def valueBytes (v : Value) : List UInt8 :=
  littleEndian 8 v.bits.toNat

def sampleBytes (s : Sample) : List UInt8 :=
  s.values.flatMap valueBytes

/-- The header of a matrix with `rows` rows. Only the lowest four bytes of the count are kept. -/
def header (rows : Nat) : List UInt8 :=
  magic ++ [elementType, 0, 0, 0] ++ littleEndian 4 rows ++ littleEndian 4 columnCount

def encode (m : Matrix) : List UInt8 :=
  header m.rowCount ++ m.rows.flatMap sampleBytes

/-- `length` bytes from `start` on. -/
def slice (bytes : List UInt8) (start length : Nat) : List UInt8 :=
  (bytes.drop start).take length

/-- The value at column `column` of a row's bytes. -/
def valueAt (row : List UInt8) (column : Nat) : Value :=
  ⟨UInt64.ofNat (ofLittleEndian (slice row (8 * column) 8))⟩

def sampleOfBytes (row : List UInt8) : Sample where
  packets := valueAt row 0
  retransmissions := valueAt row 1
  lossPercent := valueAt row 2
  fragments := valueAt row 3
  frames := valueAt row 4
  bytes := valueAt row 5
  time := valueAt row 6
  secondaryTime := valueAt row 7

/-- The first `count` rows of a body. -/
def rowsOfBody : (count : Nat) → List UInt8 → List Sample
  | 0, _ => []
  | count + 1, body => sampleOfBytes (body.take rowLength) :: rowsOfBody count (body.drop rowLength)

/-- Reads the bytes of a matrix. The header is checked from its start, then the length of the body,
then that there are rows. -/
def decode (bytes : List UInt8) : Except BlobFault Matrix :=
  let element := ofLittleEndian (slice bytes 4 1)
  let rows := ofLittleEndian (slice bytes 8 4)
  let columns := ofLittleEndian (slice bytes 12 4)
  let body := bytes.drop headerLength
  if bytes.length < headerLength then .error (.tooShort bytes.length)
  else if bytes.take 4 ≠ magic then .error .badMagic
  else if element ≠ elementType.toNat then .error (.elementType element)
  else if slice bytes 5 3 ≠ [0, 0, 0] then .error .reservedBytes
  else if columns ≠ columnCount then .error (.columns columns)
  else if body.length ≠ rows * rowLength then .error (.bodyLength body.length (rows * rowLength))
  else match Matrix.ofRows? (rowsOfBody rows body) with
    | some m => .ok m
    | none => .error .noRows

end Blob

/-- The codec that keeps matrices as blobs. -/
def Codec.blob : Codec where
  encode := Blob.encode
  decode := Blob.decode

end Campaign
