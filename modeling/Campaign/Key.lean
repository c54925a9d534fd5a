import Campaign.Setting

/-!
# Trial keys

The key of a trial is its setting. A log's file name carries the key of its trial:
`<interval>_<ratio>_<unit>_<size>_<anything>.log`, each field in decimal digits.
-/

namespace Campaign

/-- Identifies one experiment configuration. -/
abbrev Key := Setting UInt32

namespace Key

/-- The greatest number that a field of a key holds. -/
def greatestField : Nat := 4294967295

/-- How many numbers a field of a key can hold. -/
def fieldRange : Nat := 4294967296

/-- The numbers of a key. -/
def integers (k : Key) : Setting Int :=
  k.map fun v => (v.toNat : Int)

/-- A number that is less for the lesser of two keys: keys compare field by field, in key order. -/
def rank (k : Key) : Nat :=
  ((k.interval.toNat * fieldRange + k.ratio.toNat) * fieldRange + k.unit.toNat) * fieldRange
    + k.size.toNat

/-- The order of keys. -/
def le (k l : Key) : Bool :=
  k.rank ≤ l.rank

/-- The fields of a key, joined by `_`. -/
def text (k : Key) : String :=
  "_".intercalate (k.toList.map fun v => toString v.toNat)

/-- The number of some digits, if a field of a key can hold it. -/
def fieldOfDigits? (digits : List Char) : Option UInt32 :=
  let n := Nat.ofDigitChars 10 digits 0
  if digits ≠ [] ∧ n ≤ greatestField then some (UInt32.ofNat n) else none

/-- Reads a field at the start of `s`, up to the `_` that closes it, and gives what follows. -/
def takeField? (s : List Char) : Option (UInt32 × List Char) :=
  match s.dropWhile Char.isDigit with
  | '_' :: rest => (fieldOfDigits? (s.takeWhile Char.isDigit)).map fun field => (field, rest)
  | _ => none

/-- The key that starts `s`: four fields, each closed by `_`. -/
def ofStem? (s : List Char) : Option Key := do
  let (interval, s) ← takeField? s
  let (ratio, s) ← takeField? s
  let (unit, s) ← takeField? s
  let (size, _) ← takeField? s
  return ⟨interval, ratio, unit, size⟩

/-- The ending of every log's file name. -/
def logEnding : List Char := ".log".toList

/-- The key in the file name of a log; `none` for any other name. -/
def ofLogName? (name : String) : Option Key :=
  let s := name.toList
  if logEnding.isSuffixOf s then ofStem? (s.take (s.length - logEnding.length)) else none

end Key
end Campaign
