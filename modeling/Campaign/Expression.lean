import Campaign.Cell.Affinity

/-!
# Expressions

The formulas that a table may have for its checks, its computed columns and its defaults.
-/

namespace Campaign

/-- What is asked of one cell. -/
inductive Unary where
  | negation
  | minus
  /-- The cell itself, but no longer that of a column. -/
  | plus
  /-- All bits turned. -/
  | complement
  | isAbsent
  | isPresent
  /-- True, and not absent either. -/
  | isTrue
  | isFalse
deriving DecidableEq, Repr

/-- What is asked of two cells. -/
inductive Binary where
  | disjunction
  | conjunction
  | equal
  | unequal
  /-- Equal, and absent cells equal each other. -/
  | identical
  | distinct
  | less
  | lessOrEqual
  | greater
  | greaterOrEqual
  | plus
  | minus
  | times
  | dividedBy
  | modulo
  | bitAnd
  | bitOr
  | shiftLeft
  | shiftRight
  /-- Two texts, one behind the other. -/
  | joined
deriving DecidableEq, Repr

mutual

inductive Expression where
  | literal (c : Cell)
  | column (name : String)
  /-- A column, or the text itself where no column has this name. -/
  | columnOrText (name : String)
  | unary (op : Unary) (e : Expression)
  | binary (op : Binary) (a b : Expression)
  | isMember (e : Expression) (items : Expressions)
  /-- One of two expressions: the first if the condition is true, else the second. -/
  | conditional (condition yes no : Expression)
  | cast (e : Expression) (type : List Char)
  | collated (e : Expression) (collation : Collation)
  | call (function : String) (arguments : Expressions)
deriving DecidableEq, Repr

inductive Expressions where
  | nil
  | cons (e : Expression) (es : Expressions)
deriving DecidableEq, Repr

end

/-- The expressions of a list. -/
def Expressions.ofList : List Expression → Expressions
  | [] => nil
  | e :: es => cons e (ofList es)

end Campaign
