import Campaign.Value

/-!
# Cells

What one column of a row holds. Cells are ordered by kind first: absent ones, numbers, texts, bytes.
Integers and real numbers compare by what they are worth, texts by a collation.
-/

namespace Campaign

inductive Cell where
  | absent
  | integer (n : Int)
  | real (v : Value)
  | text (s : String)
  | blob (bytes : List UInt8)
deriving DecidableEq, Repr

/-- How texts compare. -/
inductive Collation where
  /-- Character by character. -/
  | binary
  /-- Without regard to the case of Latin letters. -/
  | caseless
  /-- Without regard to blanks at the end. -/
  | trimmed
deriving DecidableEq, Repr

namespace Collation

/-- What of a text counts in a comparison. -/
def counted (c : Collation) (s : String) : List Char :=
  match c with
  | binary => s.toList
  | caseless => s.toList.map Char.toLower
  | trimmed => (s.toList.reverse.dropWhile (· == ' ')).reverse

end Collation

namespace Cell

/-- What a real number is worth, in units of 2^-1074. -/
def unitsOfReal (v : Value) : Int :=
  if v.negative then -(v.units : Int) else v.units

/-- What an integer is worth, in units of 2^-1074. -/
def unitsOfInteger (n : Int) : Int :=
  n * (Value.unitsOfOne : Int)

/-- The order of integers. -/
def compareIntegers (m n : Int) : Ordering :=
  if m < n then .lt else if m = n then .eq else .gt

/-- The order of lists in which the first difference decides. -/
def compareLists {α : Type} (order : α → α → Ordering) : List α → List α → Ordering
  | [], [] => .eq
  | [], _ :: _ => .lt
  | _ :: _, [] => .gt
  | a :: as, b :: bs => (order a b).then (compareLists order as bs)

/-- The place of the kind of a cell in the order of kinds. -/
def rank : Cell → Nat
  | absent => 0
  | integer _ | real _ => 1
  | text _ => 2
  | blob _ => 3

/-- The order of cells. -/
def order (c : Collation) (a b : Cell) : Ordering :=
  match a, b with
  | integer m, integer n => compareIntegers m n
  | integer m, real v => compareIntegers (unitsOfInteger m) (unitsOfReal v)
  | real v, integer n => compareIntegers (unitsOfReal v) (unitsOfInteger n)
  | real v, real w => compareIntegers (unitsOfReal v) (unitsOfReal w)
  | text s, text t => compareLists (fun x y => compareIntegers x.toNat y.toNat) (c.counted s)
      (c.counted t)
  | blob x, blob y => compareLists (fun x y => compareIntegers x.toNat y.toNat) x y
  | a, b => compareIntegers a.rank b.rank

/-- Whether two cells with something in them are the same. Absent cells are the same as nothing. -/
def same (c : Collation) (a b : Cell) : Bool :=
  a.rank ≠ 0 && order c a b == .eq

/-- Whether a cell is worth `n`, or writes it. -/
def isWorth (n : Int) : Cell → Bool
  | integer m => m == n
  | real v => unitsOfReal v == unitsOfInteger n
  | text s => s == toString n
  | _ => false

end Cell
end Campaign
