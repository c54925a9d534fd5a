import Campaign.Key
import Campaign.Sample

/-!
# Records

A trial as it is stored: its key and the samples of its attempts. A trial without samples failed and
has to be run again.
-/

namespace Campaign

structure Record where
  key : Key
  samples : Option Matrix
deriving DecidableEq, Repr

namespace Record

def isFailed (r : Record) : Bool :=
  r.samples.isNone

/-- Records in ascending order of their keys. -/
def sorted (rs : List Record) : List Record :=
  rs.mergeSort fun r s => r.key.le s.key

end Record

/-- For each parameter, the values that stored trials have for it, ascending. -/
abbrev Catalogue := Setting (List UInt32)

end Campaign
