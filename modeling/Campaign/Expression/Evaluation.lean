import Campaign.Expression
import Campaign.Expression.Function

/-!
# Evaluating expressions

What an expression comes to in a row. An operand that is absent makes most results absent; truth
values have three sides in this way.
-/

namespace Campaign

/-- What the names in an expression stand for. -/
structure Scope where
  /-- The cell of a column; nothing if there is no such column. -/
  cell? : String → Option Cell
  affinity : String → Affinity
  collation : String → Collation

namespace Expression

/-- The affinity of an expression that has one. -/
def affinity? (scope : Scope) : Expression → Option Affinity
  | column name | columnOrText name => (scope.cell? name).map fun _ => scope.affinity name
  | cast _ type => some (.ofType type)
  | collated e _ => e.affinity? scope
  | _ => none

mutual

/-- The first collation that an expression names. -/
def namedCollation? : Expression → Option Collation
  | collated _ c => some c
  | unary _ e | cast e _ => e.namedCollation?
  | binary _ a b => a.namedCollation?.or b.namedCollation?
  | isMember e items => e.namedCollation?.or (namedCollationAmong? items)
  | conditional condition yes no =>
    (condition.namedCollation?.or yes.namedCollation?).or no.namedCollation?
  | call _ arguments => namedCollationAmong? arguments
  | _ => none

/-- The first collation that one of some expressions names. -/
def namedCollationAmong? : Expressions → Option Collation
  | .nil => none
  | .cons e es => e.namedCollation?.or (namedCollationAmong? es)

end

/-- The collation of the column that an expression gives a cell of. -/
def columnCollation? (scope : Scope) : Expression → Option Collation
  | column name | columnOrText name => (scope.cell? name).map fun _ => scope.collation name
  | unary .plus e | cast e _ => e.columnCollation? scope
  | _ => none

/-- The collation under which two expressions are compared: one that is named goes before that of a
column, and the left one before the right one. -/
def collation (scope : Scope) (a b : Expression) : Collation :=
  (((a.namedCollation?.or b.namedCollation?).or (a.columnCollation? scope)).or
    (b.columnCollation? scope)).getD .binary

end Expression

namespace Cell

/-- A text as the number it writes, where it is compared with numbers. -/
def asNumber : Cell → Cell
  | text s => Affinity.numberOr s
  | c => c

/-- Two cells as they are compared. A numeric side makes the other one a number if it writes one, a
side of texts makes a number on the other one a text, and two columns must be numeric on one side
for any of this. -/
def prepared (left right : Option Affinity) (a b : Cell) : Cell × Cell :=
  let isNumeric (f : Affinity) : Bool := f == .numeric || f == .real
  let kind : Affinity := match left, right with
    | some f, some g => if isNumeric f || isNumeric g then .numeric else .none
    | some f, none | none, some f => f
    | none, none => .none
  if isNumeric kind then (a.asNumber, b.asNumber)
  else if kind == .text && (a.rank == 2 || b.rank == 2) then
    (Affinity.text.apply a, Affinity.text.apply b)
  else (a, b)

/-- A comparison of two cells; absent if one of them is. -/
def compared (test : Ordering → Bool) (c : Collation) (a b : Cell) : Cell :=
  if a = absent ∨ b = absent then absent else ofTruth (some (test (order c a b)))

/-- Arithmetic on two numbers: on integers if both are, else on real numbers. -/
def arithmetic (onIntegers : Int → Int → Cell) (onReals : Float → Float → Float) (a b : Cell) :
    Cell :=
  match a.number, b.number with
  | integer m, integer n => onIntegers m n
  | a, b => match a.real?, b.real? with
    | some v, some w => ofReal (.ofFloat (onReals v.toFloat w.toFloat))
    | _, _ => absent

/-- An operation on two integers. -/
def onIntegers (f : Int → Int → Cell) (a b : Cell) : Cell :=
  match a.integer?, b.integer? with
  | some m, some n => f m n
  | _, _ => absent

def quotient (m n : Int) : Cell :=
  if n = 0 then absent else ofInteger (Int.tdiv m n)

/-- A quotient of real numbers; by zero it is absent. -/
def realQuotient (a b : Cell) : Cell :=
  match a.number, b.number with
  | integer m, integer n => quotient m n
  | a, b => match b.real? with
    | some w => if unitsOfReal w = 0 then absent else arithmetic quotient (· / ·) a b
    | none => absent

/-- The remainder of whole parts; a real number if one of the operands is. -/
def remainder (a b : Cell) : Cell :=
  let whole := onIntegers (fun m n => if n = 0 then absent else integer (Int.tmod m n)) a b
  match a.number, b.number, whole with
  | integer _, integer _, _ => whole
  | _, _, integer n => real (realOfInteger n)
  | _, _, c => c

/-- The bits of an integer as a natural number. -/
def bitsOf (n : Int) : Nat :=
  (n % (Text.greatestInteger - Text.leastInteger + 1)).toNat

/-- An operation on the bits of two integers. -/
def onBits (f : Nat → Nat → Nat) (a b : Cell) : Cell :=
  onIntegers (fun m n => integer (wrapped (f (bitsOf m) (bitsOf n)))) a b

/-- An integer with its bits moved to the left, or to the right if `count` is negative. -/
def shifted (n count : Int) : Cell :=
  if 64 ≤ count then integer 0
  else if 0 ≤ count then integer (wrapped (n * (1 <<< count.toNat : Nat)))
  else if count ≤ -64 then integer (if n < 0 then -1 else 0)
  else integer (Int.fdiv n (1 <<< (-count).toNat : Nat))

/-- Two texts, one behind the other. -/
def joined (a b : Cell) : Cell :=
  match a.text?, b.text? with
  | some s, some t => ofText (s ++ t)
  | _, _ => absent

end Cell

/-- A conjunction of truth values: one false side decides. -/
def conjunction : Option Bool → Option Bool → Option Bool
  | some false, _ | _, some false => some false
  | some true, some true => some true
  | _, _ => none

/-- A disjunction of truth values: one true side decides. -/
def disjunction : Option Bool → Option Bool → Option Bool
  | some true, _ | _, some true => some true
  | some false, some false => some false
  | _, _ => none

namespace Unary

def apply (op : Unary) (c : Cell) : Cell :=
  match op with
  | negation => .ofTruth (c.truth?.map not)
  | plus => c
  | minus => match c.number with
    | .integer n => .ofInteger (-n)
    | .real v => .real v.negate
    | _ => .absent
  | complement => match c.integer? with
    | some n => .integer (-n - 1)
    | none => .absent
  | isAbsent => .ofTruth (some (c = .absent))
  | isPresent => .ofTruth (some (c ≠ .absent))
  | isTrue => .ofTruth (some (c.truth? = some true))
  | isFalse => .ofTruth (some (c.truth? = some false))

end Unary

namespace Binary

/-- The test on the order of two cells that a comparison makes. -/
def test? : Binary → Option (Ordering → Bool)
  | equal => some (· == .eq)
  | unequal => some (· != .eq)
  | less => some (· == .lt)
  | lessOrEqual => some (· != .gt)
  | greater => some (· == .gt)
  | greaterOrEqual => some (· != .lt)
  | _ => none

/-- The result of an operation on two cells. Comparisons find the cells prepared. -/
def apply (op : Binary) (c : Collation) (a b : Cell) : Cell :=
  match op with
  | disjunction => .ofTruth (Campaign.disjunction a.truth? b.truth?)
  | conjunction => .ofTruth (Campaign.conjunction a.truth? b.truth?)
  | identical => .ofTruth (some (a.order c b == .eq))
  | distinct => .ofTruth (some (a.order c b != .eq))
  | plus => Cell.arithmetic (fun m n => .ofInteger (m + n)) (· + ·) a b
  | minus => Cell.arithmetic (fun m n => .ofInteger (m - n)) (· - ·) a b
  | times => Cell.arithmetic (fun m n => .ofInteger (m * n)) (· * ·) a b
  | dividedBy => Cell.realQuotient a b
  | modulo => Cell.remainder a b
  | bitAnd => Cell.onBits (· &&& ·) a b
  | bitOr => Cell.onBits (· ||| ·) a b
  | shiftLeft => Cell.onIntegers Cell.shifted a b
  | shiftRight => Cell.onIntegers (fun n count => Cell.shifted n (-count)) a b
  | joined => Cell.joined a b
  | op => match op.test? with
    | some test => Cell.compared test c a b
    | none => .absent

/-- Whether an operation compares its operands. -/
def isComparison (op : Binary) : Bool :=
  op == identical || op == distinct || op.test?.isSome

end Binary

/-- Whether a cell is among others; absent if it is not but one of them is absent. -/
def membership (equal : Cell → Cell) : List Cell → Option Bool
  | [] => some false
  | c :: cs => disjunction (equal c).truth? (membership equal cs)

mutual

/-- What an expression comes to. -/
def Expression.evaluate (scope : Scope) : Expression → Cell
  | .literal c => c
  | .column name => (scope.cell? name).getD .absent
  | .columnOrText name => (scope.cell? name).getD (.text name)
  | .unary op e => op.apply (e.evaluate scope)
  | .binary op a b =>
    let (x, y) := (a.evaluate scope, b.evaluate scope)
    let (x, y) := if op.isComparison then
        Cell.prepared (a.affinity? scope) (b.affinity? scope) x y
      else (x, y)
    op.apply (a.collation scope b) x y
  | .isMember e items =>
    let x := e.evaluate scope
    .ofTruth (membership
      (fun y =>
        let (x, y) := Cell.prepared (e.affinity? scope) none x y
        Cell.compared (· == .eq) (e.collation scope e) x y)
      (items.evaluate scope))
  | .conditional condition yes no =>
    if (condition.evaluate scope).truth? = some true then yes.evaluate scope else no.evaluate scope
  | .cast e type => cast type (e.evaluate scope)
  | .collated e _ => e.evaluate scope
  | .call function arguments => Function.apply function (arguments.evaluate scope)
where
  /-- A cell made into one of a declared type. -/
  cast (type : List Char) (c : Cell) : Cell :=
    if c = .absent then .absent
    else match Affinity.ofType type with
      | .none => .blob (c.bytes?.getD [])
      | .text => (c.text?.map Cell.ofText).getD .absent
      | .real => (c.real?.map Cell.real).getD .absent
      | .numeric =>
        if Text.occursIn "int".toList type then (c.integer?.map Cell.integer).getD .absent
        else match c with
          | .real v => .real v
          | c => match c.number with
            | .real v => Cell.integerIfWhole v
            | c => c

/-- What the expressions of a list come to. -/
def Expressions.evaluate (scope : Scope) : Expressions → List Cell
  | .nil => []
  | .cons e es => e.evaluate scope :: es.evaluate scope

end

end Campaign
