import Campaign.Value.Nearest

/-!
# Fixed places

A value written with a fixed number of decimal places: the exact number rounded, a half to the even
neighbour.
-/

namespace Campaign.Value

/-- The magnitude of `v` with `places` decimal places; at least one of them. -/
def magnitudeWithPlaces (places : Nat) (v : Value) : String :=
  let one := Nat.pow 10 places
  let scaled := roundHalfEven (v.units * one) unitsOfOne
  let fraction := toString (scaled % one)
  toString (scaled / one) ++ "."
    ++ String.ofList (List.replicate (places - fraction.length) '0') ++ fraction

/-- `v` with `places` decimal places. A negative value keeps its sign even where all digits are
zero. -/
def withPlaces (places : Nat) (v : Value) : String :=
  if v.isNaN then "NaN"
  else
    (if v.negative then "-" else "")
      ++ if v.isFinite then magnitudeWithPlaces places v else "inf"

end Campaign.Value
