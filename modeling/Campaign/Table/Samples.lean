import Campaign.Codec
import Campaign.Row

/-!
# Stored samples

The cell that keeps the samples of a trial: bytes of a codec, or nothing for a trial without
samples.
-/

namespace Campaign

/-- The bytes of a cell, read as the result column `column`. -/
def Cell.stored (column : Nat) : Cell → Except DatabaseFault (Option (List UInt8))
  | .absent => .ok none
  | .blob bytes => .ok (some bytes)
  | c => .error (.cellKind c.kind column Schema.samplesName)

namespace Codec

/-- The cell that keeps the samples of a trial. -/
def cell (c : Codec) : Option Matrix → Cell
  | none => .absent
  | some m => .blob (c.encode m)

/-- The samples that some stored bytes stand for. -/
def samples (c : Codec) : Option (List UInt8) → Except BlobFault (Option Matrix)
  | none => .ok none
  | some bytes => (c.decode bytes).map some

end Codec
end Campaign
