import Campaign.Fault
import Campaign.Key

/-!
# Filters

A filter asks for a value of some parameters and leaves the others open. In raw form it is four
integers, -1 for an open parameter.
-/

namespace Campaign

/-- The value wanted for each parameter; `none` takes any value. -/
abbrev Filter := Setting (Option UInt32)

namespace Filter

/-- Takes every key. -/
def any : Filter :=
  ⟨none, none, none, none⟩

/-- Takes one key only. -/
def exact (k : Key) : Filter :=
  k.map some

/-- The raw form of an open parameter. -/
def wildcard : Int := -1

/-- One parameter of a filter in raw form. -/
def fieldOfRaw (v : Int) : Except Fault (Option UInt32) :=
  if v = wildcard then .ok none
  else if 0 ≤ v ∧ v ≤ Key.greatestField then .ok (some (UInt32.ofNat v.toNat))
  else .error (.filter v)

/-- The filter of a raw form; the first integer that is no value of a parameter is the fault. -/
def ofRaw (raw : Setting Int) : Except Fault Filter :=
  raw.mapM? fun _ v => fieldOfRaw v

/-- The filter with a value wanted for one parameter. -/
def want (f : Filter) (p : Parameter) (v : UInt32) : Filter :=
  f.set p (some v)

/-- The parameters with a value wanted, with that value, in key order. -/
def conditions (f : Filter) : List (Parameter × UInt32) :=
  Parameter.all.filterMap fun p => (f.get p).map fun v => (p, v)

/-- Whether `k` has every value wanted. -/
def takes (f : Filter) (k : Key) : Bool :=
  Parameter.all.all fun p => (f.get p).all (· == k.get p)

end Filter
end Campaign
