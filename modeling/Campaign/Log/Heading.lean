import Campaign.Text.Blank

/-!
# Outcome lines

A log says how an attempt ended on a line that starts, after blanks, with the log's marker. The last
word after the marker is the outcome. Any other line, and one with the bare marker, is noise.
-/

namespace Campaign.Log

/-- The marker of outcome lines where none is given. -/
def standardMarker : String := "APP: pmpd"

/-- What a line says about an attempt. -/
inductive Heading where
  | noise
  | failed
  | succeeded
  /-- An outcome that is neither. -/
  | unknown (word : List Char)
deriving DecidableEq, Repr

namespace Heading

/-- The last word after the marker, on a line that starts with the marker. -/
def word? (marker line : List Char) : Option (List Char) :=
  let s := Text.trim line
  if marker.isPrefixOf s then (Text.words (s.drop marker.length)).getLast? else none

/-- The outcome that a word names. -/
def ofWord (word : List Char) : Heading :=
  if word = "Failed".toList then failed
  else if word = "OK".toList then succeeded
  else unknown word

/-- What `line` says in a log with the given marker. -/
def ofLine (marker line : List Char) : Heading :=
  match word? marker line with
  | none => noise
  | some word => ofWord word

end Heading

/-- Whether the three statistics lines of a successful attempt follow `line`. -/
def opensStatistics (line : List Char) : Bool :=
  Text.occursIn "Statistics".toList line

end Campaign.Log
