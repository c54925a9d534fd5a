import Campaign.Expression.Evaluation
import Campaign.Schema
import Campaign.Schema.Formula

/-!
# Definitions of tables

The schema that definitions write: columns, each with a type and constraints behind its name, and
constraints of the whole table. Readers give what they read and what follows it.
-/

namespace Campaign.Schema.Definition

/-- What has been read of a definition. The column that is being read is not among the others yet.
-/
structure Draft where
  columns : List Column := []
  keys : List UniqueKey := []
  checks : List Check := []
  /-- The column that numbers the rows, and the reaction to a number that is taken. -/
  numbering : Option (String × Option Reaction) := none
  references : List String := []
  /-- The name for the constraints that follow. -/
  label : Option String := none
deriving Repr

namespace Draft

/-- Keys with the first one that evicts moved behind those that do not, up to the next that does. -/
def withEvictingLater : List UniqueKey → List UniqueKey
  | [] => []
  | key :: keys =>
    if key.reaction = some .evict then
      keys.takeWhile (·.reaction ≠ some .evict) ++ key :: keys.dropWhile (·.reaction ≠ some .evict)
    else key :: withEvictingLater keys

/-- Adds a key. One that compares the same columns as a key before it is that key. The key read last
is looked at first, but those that evict are looked at behind all others. -/
def addKey (d : Draft) (key : UniqueKey) : Draft :=
  let keys :=
    if d.keys.any (·.columns == key.columns) then
      d.keys.map fun k =>
        if k.columns == key.columns then { k with reaction := k.reaction.or key.reaction } else k
    else key :: d.keys
  { d with keys := withEvictingLater keys }

/-- Makes the keys that compare a column first compare it under a collation. -/
def recollate (d : Draft) (name : String) (c : Collation) : Draft :=
  { d with keys := d.keys.map fun key => match key.columns with
    | (first, other) :: rest =>
      { key with columns := (first, if first = name then c else other) :: rest }
    | [] => key }

/-- The schema that a whole draft is. The numbers of rows are looked at before all keys, or behind
them if they evict. -/
def toSchema (d : Draft) (source : List String) : Schema where
  columns := d.columns
  keys := match d.numbering with
    | none => d.keys
    | some (name, reaction) =>
      let key : UniqueKey := ⟨[(name, .binary)], reaction⟩
      if reaction = some .evict then d.keys ++ [key] else key :: d.keys
  checks := d.checks
  numbering := d.numbering.map Prod.fst
  references := d.references.filter fun table => !sameName table "trials"
  source := source

end Draft

/-- The characters of the source from the start of the first of two tokens to the end of the second.
-/
def cut (source : List Char) (first last : Token) : List Char :=
  (source.drop (source.length - first.fromStart)).take (first.fromStart - last.behind)

/-- The words that end the type of a column. -/
def constraintWords : List String :=
  ["constraint", "default", "null", "not", "primary", "unique", "check", "references", "collate",
    "as", "on", "deferrable"]

/-- Whether a token can stand in a type. -/
def isTypeToken (token : Token) : Bool :=
  match token.lexeme with
  | .word lower _ => !constraintWords.contains lower
  | .quotedName _ _ | .text _ => true
  | _ => false

/-- A type without some closing word and the blanks before it. -/
def withoutEnd (word : String) (type : List Char) : List Char :=
  if word.toList.isSuffixOf type then
    Text.dropEndWhile Token.isSpace (type.take (type.length - word.length))
  else type

/-- Reads the type of a column, in lower case. -/
def takeType (source : List Char) (s : List Token) : List Char × List Token :=
  let words := s.takeWhile isTypeToken
  let rest := s.drop words.length
  match words.head?, words.getLast? with
  | some first, some last =>
    let (last, rest) := match Formula.takeTypeEnd? rest with
      | some (bracket, rest) => (bracket, rest)
      | none => (last, rest)
    let type := (cut source first last).map Char.toLower
    let short := withoutEnd "always" type
    (if short = type then type else withoutEnd "generated" short, rest)
  | _, _ => ([], rest)

/-- Reads the reaction to a broken constraint, if one is given. -/
def takeReaction? (s : List Token) : Option (Option Reaction × List Token) :=
  match Token.skipWords? ["on", "conflict"] s with
  | none => some (none, s)
  | some (⟨.word lower _, _, _⟩ :: rest) => match lower with
    | "rollback" | "abort" | "fail" => some (some .refuse, rest)
    | "ignore" => some (some .skip, rest)
    | "replace" => some (some .evict, rest)
    | _ => none
  | some _ => none

/-- A text without the quotes around its first word, if it starts with one. -/
def unquoted (s : List Char) : List Char :=
  let quote (mark : Char) (rest : List Char) : List Char :=
    match Token.takeQuoted? mark [] rest with
    | some (t, _) => t.toList
    | none => s
  match s with
  | '\'' :: rest => quote '\'' rest
  | '"' :: rest => quote '"' rest
  | '\x60' :: rest => quote '\x60' rest
  | '[' :: rest => quote ']' rest
  | s => s

/-- Reads a check from its bracket on. Its name is the label before it, or else its text. -/
def takeCheck? (source : List Char) (d : Draft) (s : List Token) : Option (Draft × List Token) := do
  let (condition, rest) ← Formula.takeBracketed? s
  let first ← s.head?
  let inside := s.length - rest.length
  let last ← s[inside - 1]?
  let text := ((cut source first last).drop 1).dropLast
  let name := d.label.getD (String.ofList (unquoted (Text.dropAround Token.isSpace text)))
  return ({ d with checks := d.checks ++ [⟨name, condition⟩] }, rest)

/-- Where an expression has no columns to speak of. -/
def noColumns : Scope := ⟨fun _ => none, fun _ => .none, fun _ => .binary⟩

/-- Reads a literal, or a word that stands for one. -/
def takeLiteral? : List Token → Option (Cell × List Token)
  | ⟨.number c, _, _⟩ :: rest => some (c, rest)
  | ⟨.text t, _, _⟩ :: rest => some (.text t, rest)
  | ⟨.bytes bytes, _, _⟩ :: rest => some (.blob bytes, rest)
  | ⟨.quotedName name _, _, _⟩ :: rest => some (.text name, rest)
  | ⟨.word lower written, _, _⟩ :: rest => match lower with
    | "null" => some (.absent, rest)
    | "true" => some (.integer 1, rest)
    | "false" => some (.integer 0, rest)
    | _ => some (.text written, rest)
  | _ => none

/-- Reads the cell that a column has where it is given none. -/
def takeDefault? (s : List Token) : Option (Cell × List Token) :=
  match s with
  | ⟨.mark "(", _, _⟩ :: _ =>
    (Formula.takeBracketed? s).map fun (e, rest) => (e.evaluate noColumns, rest)
  | ⟨.mark "+", _, _⟩ :: rest => takeLiteral? rest
  | ⟨.mark "-", _, _⟩ :: rest =>
    (takeLiteral? rest).map fun (c, rest) => (Unary.minus.apply c, rest)
  | s => takeLiteral? s

/-- What follows brackets with names in them, if they come first. -/
def skipNames (s : List Token) : List Token :=
  match Token.skipMark? "(" s with
  | some rest => (rest.dropWhile fun token => token.lexeme ≠ .mark ")").drop 1
  | none => s

/-- The phrases behind a reference: when something is to happen to it, and what. -/
def referencePhrases : List (List String) :=
  [["on", "delete"], ["on", "update"], ["on", "insert"], ["set", "null"], ["set", "default"],
    ["cascade"], ["restrict"], ["no", "action"], ["not", "deferrable"], ["deferrable"],
    ["initially", "deferred"], ["initially", "immediate"]]

/-- What follows one phrase behind a reference, if one comes first. -/
def skipReferencePhrase? (s : List Token) : Option (List Token) :=
  match Token.skipWord? "match" s with
  | some rest => (Token.takeName? rest).map Prod.snd
  | none => referencePhrases.findSome? fun phrase => Token.skipWords? phrase s

/-- What follows the phrases behind a reference. -/
def skipReferencePhrases (fuel : Nat) (s : List Token) : List Token :=
  match fuel, skipReferencePhrase? s with
  | fuel + 1, some rest => skipReferencePhrases fuel rest
  | _, _ => s

/-- Reads the table that a column refers to. -/
def takeReference? (d : Draft) (s : List Token) : Option (Draft × List Token) := do
  let (name, rest) ← Token.takeName? s
  return ({ d with references := d.references ++ [name] },
    skipReferencePhrases rest.length (skipNames rest))

/-- Reads what a column is computed by. -/
def takeComputation? (column : Column) (s : List Token) : Option (Column × List Token) := do
  let (e, rest) ← Formula.takeBracketed? s
  let rest := ((Token.skipWord? "stored" rest).or (Token.skipWord? "virtual" rest)).getD rest
  return ({ column with computed := some e }, rest)

/-- Reads a constraint of a column whose type is `type`, behind its first word. -/
def takeColumnConstraint? (source : List Char) (type : List Char) (d : Draft) (column : Column)
    (word : String) (s : List Token) : Option (Draft × Column × List Token) :=
  match word with
  | "constraint" => do
    let (name, rest) ← Token.takeName? s
    return ({ d with label := some name }, column, rest)
  | "null" => do
    let (_, rest) ← takeReaction? s
    return (d, column, rest)
  | "not" =>
    match Token.skipWord? "null" s with
    | some rest => do
      let (reaction, rest) ← takeReaction? rest
      return (d, { column with required := some (reaction.getD .refuse) }, rest)
    | none => do
      let rest ← Token.skipWord? "deferrable" s
      return (d, column, skipReferencePhrases rest.length rest)
  | "deferrable" => some (d, column, skipReferencePhrases s.length s)
  | "primary" => do
    let rest ← Token.skipWord? "key" s
    let descending := (Token.skipWord? "desc" rest).isSome
    let rest := ((Token.skipWord? "asc" rest).or (Token.skipWord? "desc" rest)).getD rest
    let (reaction, rest) ← takeReaction? rest
    let rest := (Token.skipWord? "autoincrement" rest).getD rest
    if type = "integer".toList ∧ ¬descending then
      return ({ d with numbering := some (column.name, reaction) }, column, rest)
    else return (d.addKey ⟨[(column.name, column.collation)], reaction⟩, column, rest)
  | "unique" => do
    let (reaction, rest) ← takeReaction? s
    return (d.addKey ⟨[(column.name, column.collation)], reaction⟩, column, rest)
  | "check" => do
    let (d, rest) ← takeCheck? source d s
    return (d, column, rest)
  | "default" => do
    let (c, rest) ← takeDefault? s
    return (d, { column with standard := column.affinity.apply c }, rest)
  | "collate" => do
    let (name, rest) ← Token.takeName? s
    let c ← Formula.collation? name
    return (d.recollate column.name c, { column with collation := c }, rest)
  | "references" => do
    let (d, rest) ← takeReference? d s
    return (d, column, rest)
  | "generated" => do
    let (column, rest) ← takeComputation? column (← Token.skipWords? ["always", "as"] s)
    return (d, column, rest)
  | "as" => do
    let (column, rest) ← takeComputation? column s
    return (d, column, rest)
  | _ => none

/-- Reads the constraints of a column. -/
def takeColumnConstraints? (source : List Char) (type : List Char) (fuel : Nat) (d : Draft)
    (column : Column) (s : List Token) : Option (Draft × Column × List Token) :=
  match fuel, s with
  | fuel + 1, ⟨.word lower _, _, _⟩ :: rest => do
    let (d, column, rest) ← takeColumnConstraint? source type d column lower rest
    takeColumnConstraints? source type fuel d column rest
  | _, s => some (d, column, s)

/-- Reads a column. -/
def takeColumn? (source : List Char) (d : Draft) (s : List Token) :
    Option (Draft × List Token) := do
  let (name, rest) ← Token.takeName? s
  let (type, rest) := takeType source rest
  let column : Column := { name, affinity := .ofType type }
  let (d, column, rest) ← takeColumnConstraints? source type rest.length { d with label := none }
    column rest
  return ({ d with columns := d.columns ++ [column] }, rest)

/-- Reads the columns of a key between brackets, from behind the first one. -/
def takeKeyColumns? (columns : List Column) (fuel : Nat) (s : List Token) :
    Option (List (String × Collation) × List Token) :=
  match fuel with
  | 0 => none
  | fuel + 1 => do
    let (name, rest) ← Token.takeName? s
    let column ← columns.find? fun column => sameName column.name name
    let (collation, rest) ← match Token.skipWord? "collate" rest with
      | some rest => (Token.takeName? rest).bind fun (name, rest) =>
        (Formula.collation? name).map fun c => (c, rest)
      | none => some (column.collation, rest)
    let rest := ((Token.skipWord? "asc" rest).or (Token.skipWord? "desc" rest)).getD rest
    match Token.skipMark? "," rest with
    | some rest => do
      let (more, rest) ← takeKeyColumns? columns fuel rest
      return ((column.name, collation) :: more, rest)
    | none =>
      let rest := (Token.skipWord? "autoincrement" rest).getD rest
      return ([(column.name, collation)], ← Token.skipMark? ")" rest)

/-- Reads a key of the table and the reaction to a row that breaks it. -/
def takeKey? (d : Draft) (s : List Token) : Option (UniqueKey × List Token) := do
  let rest ← Token.skipMark? "(" s
  let (columns, rest) ← takeKeyColumns? d.columns rest.length rest
  let (reaction, rest) ← takeReaction? rest
  return (⟨columns, reaction⟩, rest)

/-- Reads a constraint of the table, behind its first word. `numbers` are the columns that can
number the rows. -/
def takeTableConstraint? (source : List Char) (numbers : List String) (d : Draft) (word : String)
    (s : List Token) : Option (Draft × List Token) :=
  match word with
  | "constraint" => do
    let (name, rest) ← Token.takeName? s
    return ({ d with label := some name }, rest)
  | "primary" => do
    let (key, rest) ← takeKey? d (← Token.skipWord? "key" s)
    match key.columns with
    | [(name, _)] =>
      if numbers.contains name then
        return ({ d with numbering := some (name, key.reaction) }, rest)
      else return (d.addKey key, rest)
    | _ => return (d.addKey key, rest)
  | "unique" => do
    let (key, rest) ← takeKey? d s
    return (d.addKey key, rest)
  | "check" => do
    let (d, rest) ← takeCheck? source d s
    let (_, rest) ← takeReaction? rest
    return (d, rest)
  | "foreign" => do
    let rest := skipNames (← Token.skipWord? "key" s)
    takeReference? d (← Token.skipWord? "references" rest)
  | _ => none

/-- The words that begin a constraint of the table. -/
def tableWords : List String :=
  ["constraint", "primary", "unique", "check", "foreign"]

/-- The word that begins a constraint of the table, and what follows it. -/
def tableWord? : List Token → Option (String × List Token)
  | ⟨.word lower _, _, _⟩ :: rest => if tableWords.contains lower then some (lower, rest) else none
  | _ => none

/-- Whether the column that comes first has the type whose columns can number rows. -/
def numbers? (source : List Char) (s : List Token) : Option String := do
  let (name, rest) ← Token.takeName? s
  if (takeType source rest).1 = "integer".toList then some name else none

/-- Reads columns and constraints up to the closing bracket, with commas between them. A name for
constraints counts up to the next column, and up to a comma behind a constraint of the table. -/
def takeAll? (source : List Char) (fuel : Nat) (numbers : List String) (d : Draft)
    (s : List Token) : Option Draft :=
  match fuel with
  | 0 => none
  | fuel + 1 => do
    let (d, next, numbers, rest) ← match tableWord? s with
      | some (word, rest) =>
        (takeTableConstraint? source numbers d word rest).map fun (d, rest) =>
          (d, { d with label := none }, numbers, rest)
      | none =>
        (takeColumn? source d s).map fun (d, rest) =>
          (d, d, (numbers? source s).toList ++ numbers, rest)
    match rest with
    | [⟨.mark ")", _, _⟩] => some d
    | ⟨.mark ",", _, _⟩ :: rest => takeAll? source fuel numbers next rest
    | rest => if (tableWord? rest).isSome then takeAll? source fuel numbers d rest else none

end Definition

/-- The schema that some definitions write. -/
def ofDefinitions? (definitions : List String) : Option Schema := do
  let source := (", ".intercalate definitions ++ ")").toList
  let tokens ← Token.ofText? source
  let draft ← Definition.takeAll? source tokens.length [] {} tokens
  return draft.toSchema definitions

end Campaign.Schema
