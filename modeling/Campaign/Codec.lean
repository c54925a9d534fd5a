import Campaign.Fault
import Campaign.Sample

/-!
# Codecs

How a matrix is kept as bytes. A trial without a matrix keeps no bytes at all, whatever the codec.
-/

namespace Campaign

/-- A way to keep a matrix as bytes. -/
structure Codec where
  encode : Matrix → List UInt8
  decode : List UInt8 → Except BlobFault Matrix

namespace Codec

/-- The byte that a tagging codec puts first. -/
def tag : UInt8 := 0xAB

/-- Puts a tag before the bytes of `c`, and asks for it in front of what it decodes. -/
def tagged (c : Codec) : Codec where
  encode m := tag :: c.encode m
  decode
    | b :: bytes => if b = tag then c.decode bytes else .error .missingTag
    | [] => .error .missingTag

end Codec
end Campaign
