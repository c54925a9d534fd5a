/-!
# Names without case

Names that are looked up without regard to case. The names known are in ASCII letters, and of all
characters beyond ASCII only the Kelvin sign has an ASCII letter, `k`, as its lower case.
-/

namespace Campaign.Text

/-- The lower case of `c` if that is in ASCII, else `c`. -/
def foldCase (c : Char) : Char :=
  if c = '\u212A' then 'k' else c.toLower

/-- `s` with every character folded. -/
def folded (s : String) : String :=
  String.ofList (s.toList.map foldCase)

end Campaign.Text
