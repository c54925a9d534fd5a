import Campaign.Expression
import Campaign.Schema.Token

/-!
# Reading expressions

Expressions as definitions write them. Operators bind in nine steps, from `OR` up to the joining of
texts; between operators of one step the left one goes first. Readers give what they read and what
follows it; `fuel` bounds the number of steps.
-/

namespace Campaign.Schema.Formula

/-- The steps in which operators bind, from the loosest on. -/
def binaryOf : Token → Option (Nat × Binary)
  | ⟨.word "or" _, _, _⟩ => some (1, .disjunction)
  | ⟨.word "and" _, _, _⟩ => some (2, .conjunction)
  | ⟨.mark m, _, _⟩ => match m with
    | "=" | "==" => some (4, .equal)
    | "!=" | "<>" => some (4, .unequal)
    | "<" => some (5, .less)
    | "<=" => some (5, .lessOrEqual)
    | ">" => some (5, .greater)
    | ">=" => some (5, .greaterOrEqual)
    | "&" => some (6, .bitAnd)
    | "|" => some (6, .bitOr)
    | "<<" => some (6, .shiftLeft)
    | ">>" => some (6, .shiftRight)
    | "+" => some (7, .plus)
    | "-" => some (7, .minus)
    | "*" => some (8, .times)
    | "/" => some (8, .dividedBy)
    | "%" => some (8, .modulo)
    | "||" => some (9, .joined)
    | _ => none
  | _ => none

/-- The step of negation, whose operand follows. -/
def negationStep : Nat := 3

/-- The step of tests for equality and of the tests that are written as words. -/
def testStep : Nat := 4

/-- The step behind that of all operators. -/
def lastStep : Nat := 10

def collation? (name : String) : Option Collation :=
  match name.toList.map Char.toLower with
  | ['b', 'i', 'n', 'a', 'r', 'y'] => some .binary
  | ['n', 'o', 'c', 'a', 's', 'e'] => some .caseless
  | ['r', 't', 'r', 'i', 'm'] => some .trimmed
  | _ => none

def both (a b : Expression) : Expression :=
  .binary .conjunction a b

/-- An expression, or its negation. -/
def negatedIf (negated : Bool) (e : Expression) : Expression :=
  if negated then .unary .negation e else e

/-- A choice between cases, each with its condition; with a base each condition is compared with it.
-/
def choice (base : Option Expression) (otherwise : Expression) :
    List (Expression × Expression) → Expression
  | [] => otherwise
  | (condition, e) :: cases =>
    let condition := match base with
      | some base => .binary .equal base condition
      | none => condition
    .conditional condition e (choice base otherwise cases)

/-- What follows a number with a sign or without. -/
def skipSigned? (s : List Token) : Option (List Token) :=
  match s with
  | ⟨.number _, _, _⟩ :: rest => some rest
  | ⟨.mark sign, _, _⟩ :: ⟨.number _, _, _⟩ :: rest =>
    if sign = "+" ∨ sign = "-" then some rest else none
  | _ => none

/-- Reads the one or two numbers between brackets that may close a type, and gives the last bracket.
-/
def takeTypeEnd? (s : List Token) : Option (Token × List Token) := do
  let rest ← skipSigned? (← Token.skipMark? "(" s)
  let rest := ((Token.skipMark? "," rest).bind skipSigned?).getD rest
  match rest with
  | ⟨.mark ")", fromStart, behind⟩ :: rest => some (⟨.mark ")", fromStart, behind⟩, rest)
  | _ => none

/-- Reads a type between other tokens; `read` are its words so far. The numbers that may close it
say nothing about it. -/
def takeType (read : List Char) : List Token → List Char × List Token
  | ⟨.word lower _, _, _⟩ :: rest => takeType (read ++ ' ' :: lower.toList) rest
  | ⟨.quotedName name _, _, _⟩ :: rest =>
    takeType (read ++ ' ' :: name.toList.map Char.toLower) rest
  | s => (read, ((takeTypeEnd? s).map Prod.snd).getD s)

/-- The test that a lone truth value stands for behind `IS`. -/
def truthWord? : List Token → Option Unary
  | ⟨.word word _, _, _⟩ :: rest =>
    if rest.isEmpty || rest.length = 2 && (Token.skipWord? "collate" rest).isSome then
      match word with
      | "true" => some .isTrue
      | "false" => some .isFalse
      | _ => none
    else none
  | _ => none

/-- Reads a word that negates a test, if one comes first. -/
def takeNot (s : List Token) : Bool × List Token :=
  match Token.skipWord? "not" s with
  | some rest => (true, rest)
  | none => (false, s)

mutual

/-- Reads an expression of operators that bind in `step` or tighter. -/
def take? (fuel step : Nat) (s : List Token) : Option (Expression × List Token) :=
  match fuel with
  | 0 => none
  | fuel + 1 => do
    let (e, rest) ← takeOperand? fuel s
    takeBehind? fuel step e rest

/-- Reads on behind an expression, as long as operators follow that bind in `step` or tighter. -/
def takeBehind? (fuel step : Nat) (left : Expression) (s : List Token) :
    Option (Expression × List Token) :=
  match fuel, s with
  | 0, _ => none
  | _ + 1, [] => some (left, [])
  | fuel + 1, token :: rest =>
    match binaryOf token with
    | some (own, op) =>
      if own < step then some (left, s)
      else do
        let (right, rest) ← take? fuel (own + 1) rest
        takeBehind? fuel step (.binary op left right) rest
    | none =>
      match Token.skipWord? "collate" s with
      | some rest => do
        let (name, rest) ← Token.takeName? rest
        takeBehind? fuel step (.collated left (← collation? name)) rest
      | none =>
        if testStep < step then some (left, s)
        else match takeTest? fuel left s with
          | some (e, rest) => takeBehind? fuel step e rest
          | none => some (left, s)

/-- Reads a test that is written in words behind its left side. -/
def takeTest? (fuel : Nat) (left : Expression) (s : List Token) :
    Option (Expression × List Token) :=
  match fuel, s with
  | fuel + 1, ⟨.word "is" _, _, _⟩ :: rest =>
    let (negated, rest) := takeNot rest
    match Token.skipWords? ["distinct", "from"] rest with
    | some rest => do
      let (right, rest) ← take? fuel (testStep + 1) rest
      return (.binary (if negated then .identical else .distinct) left right, rest)
    | none => do
      let (right, behind) ← take? fuel (testStep + 1) rest
      match truthWord? (rest.take (rest.length - behind.length)) with
      | some test => return (negatedIf negated (.unary test left), behind)
      | none =>
        return (.binary (if negated then .distinct else .identical) left right, behind)
  | _ + 1, ⟨.word "isnull" _, _, _⟩ :: rest => some (.unary .isAbsent left, rest)
  | _ + 1, ⟨.word "notnull" _, _, _⟩ :: rest => some (.unary .isPresent left, rest)
  | fuel + 1, s =>
    let (negated, s) := takeNot s
    match s with
    | ⟨.word "null" _, _, _⟩ :: rest =>
      if negated then some (.unary .isPresent left, rest) else none
    | ⟨.word "between" _, _, _⟩ :: rest => do
      let (low, rest) ← take? fuel (testStep + 1) rest
      let rest ← Token.skipWord? "and" rest
      let (high, rest) ← take? fuel (testStep + 1) rest
      return (negatedIf negated
        (both (.binary .greaterOrEqual left low) (.binary .lessOrEqual left high)), rest)
    | ⟨.word "in" _, _, _⟩ :: rest => do
      let (items, rest) ← takeList? fuel (← Token.skipMark? "(" rest)
      return (negatedIf negated (.isMember left (.ofList items)), rest)
    | ⟨.word "like" _, _, _⟩ :: rest => takePattern? fuel "like" negated left rest
    | ⟨.word "glob" _, _, _⟩ :: rest => takePattern? fuel "glob" negated left rest
    | _ => none
  | _, _ => none

/-- Reads a pattern, perhaps with the character that escapes others in it. -/
def takePattern? (fuel : Nat) (function : String) (negated : Bool) (left : Expression)
    (s : List Token) : Option (Expression × List Token) :=
  match fuel with
  | 0 => none
  | fuel + 1 => do
    let (pattern, rest) ← take? fuel (testStep + 1) s
    match Token.skipWord? "escape" rest with
    | some rest => do
      let (escape, rest) ← take? fuel (testStep + 2) rest
      return (negatedIf negated (.call function (.ofList [pattern, left, escape])), rest)
    | none => return (negatedIf negated (.call function (.ofList [pattern, left])), rest)

/-- Reads expressions between commas, up to a closing bracket. -/
def takeList? (fuel : Nat) (s : List Token) : Option (List Expression × List Token) :=
  match fuel, Token.skipMark? ")" s with
  | 0, _ => none
  | _ + 1, some rest => some ([], rest)
  | fuel + 1, none => do
    let (e, rest) ← take? fuel 1 s
    match Token.skipMark? "," rest with
    | some rest => do
      let (es, rest) ← takeList? fuel rest
      return (e :: es, rest)
    | none => return ([e], ← Token.skipMark? ")" rest)

/-- Reads the cases of a choice, with what holds where none of them does. -/
def takeCases? (fuel : Nat) (s : List Token) :
    Option ((List (Expression × Expression) × Expression) × List Token) :=
  match fuel, s with
  | fuel + 1, ⟨.word "when" _, _, _⟩ :: rest => do
    let (condition, rest) ← take? fuel 1 rest
    let (e, rest) ← take? fuel 1 (← Token.skipWord? "then" rest)
    let ((cases, otherwise), rest) ← takeCases? fuel rest
    return (((condition, e) :: cases, otherwise), rest)
  | fuel + 1, ⟨.word "else" _, _, _⟩ :: rest => do
    let (e, rest) ← take? fuel 1 rest
    return (([], e), ← Token.skipWord? "end" rest)
  | _ + 1, ⟨.word "end" _, _, _⟩ :: rest => some (([], .literal .absent), rest)
  | _, _ => none

/-- Reads an operand: a literal, a column, a call, a bracket, or an operator before its operand. -/
def takeOperand? (fuel : Nat) (s : List Token) : Option (Expression × List Token) :=
  match fuel, s with
  | _ + 1, ⟨.number c, _, _⟩ :: rest => some (.literal c, rest)
  | _ + 1, ⟨.text t, _, _⟩ :: rest => some (.literal (.text t), rest)
  | _ + 1, ⟨.bytes bytes, _, _⟩ :: rest => some (.literal (.blob bytes), rest)
  | fuel + 1, ⟨.mark "(", _, _⟩ :: rest => do
    let (e, rest) ← take? fuel 1 rest
    return (e, ← Token.skipMark? ")" rest)
  | fuel + 1, ⟨.mark "-", _, _⟩ :: rest => do
    let (e, rest) ← take? fuel lastStep rest
    return (.unary .minus e, rest)
  | fuel + 1, ⟨.mark "+", _, _⟩ :: rest => do
    let (e, rest) ← take? fuel lastStep rest
    return (.unary .plus e, rest)
  | fuel + 1, ⟨.mark "~", _, _⟩ :: rest => do
    let (e, rest) ← take? fuel lastStep rest
    return (.unary .complement e, rest)
  | _ + 1, ⟨.word "null" _, _, _⟩ :: rest => some (.literal .absent, rest)
  | _ + 1, ⟨.word "true" _, _, _⟩ :: rest => some (.literal (.integer 1), rest)
  | _ + 1, ⟨.word "false" _, _, _⟩ :: rest => some (.literal (.integer 0), rest)
  | fuel + 1, ⟨.word "not" _, _, _⟩ :: rest => do
    let (e, rest) ← take? fuel negationStep rest
    return (.unary .negation e, rest)
  | fuel + 1, ⟨.word "cast" _, _, _⟩ :: ⟨.mark "(", _, _⟩ :: rest => do
    let (e, rest) ← take? fuel 1 rest
    let (type, rest) := takeType [] (← Token.skipWord? "as" rest)
    return (.cast e type, ← Token.skipMark? ")" rest)
  | fuel + 1, ⟨.word "case" _, _, _⟩ :: rest =>
    match Token.skipWord? "when" rest with
    | some _ => do
      let ((cases, otherwise), rest) ← takeCases? fuel rest
      return (choice none otherwise cases, rest)
    | none => do
      let (base, rest) ← take? fuel 1 rest
      let ((cases, otherwise), rest) ← takeCases? fuel rest
      return (choice (some base) otherwise cases, rest)
  | fuel + 1, ⟨.word lower _, _, _⟩ :: ⟨.mark "(", _, _⟩ :: rest => do
    let (arguments, rest) ← takeList? fuel rest
    return (.call lower (.ofList arguments), rest)
  | _ + 1, token :: ⟨.mark ".", _, _⟩ :: rest => do
    let _ ← Token.takeName? [token]
    let (name, rest) ← Token.takeName? rest
    return (.column name, rest)
  | _ + 1, ⟨.word _ name, _, _⟩ :: rest => some (.column name, rest)
  | _ + 1, ⟨.quotedName name isText, _, _⟩ :: rest =>
    some (if isText then .columnOrText name else .column name, rest)
  | _, _ => none

end

/-- Reads an expression between brackets. -/
def takeBracketed? (s : List Token) : Option (Expression × List Token) := do
  let (e, rest) ← take? (4 * s.length + 4) 1 (← Token.skipMark? "(" s)
  return (e, ← Token.skipMark? ")" rest)

end Campaign.Schema.Formula
