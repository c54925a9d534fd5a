/-!
# TOML documents

What a document of settings holds: tables of named items, one item for each name.
-/

namespace Campaign.Toml

/-- How a table came about, which decides what may still be added to it. -/
inductive Origin where
  /-- By a header of its own. -/
  | header
  /-- By the header of a table below it. -/
  | implied
  /-- By a dotted name. -/
  | dotted
  /-- Between braces. -/
  | inline
deriving DecidableEq, Repr

inductive Item where
  | string (s : String)
  /-- A date, a time, or both. -/
  | moment
  /-- A number or a truth value. -/
  | plain
  | array (items : List Item)
  | table (origin : Origin) (members : List (String × Item))
  /-- The tables of a repeated header, the latest first. -/
  | tables (elements : List Item)
deriving Repr, Inhabited

/-- The members of a table. -/
abbrev Members := List (String × Item)

namespace Members

/-- The members with `item` under `name`, in place of any item there. -/
def set (members : Members) (name : String) (item : Item) : Members :=
  match members with
  | [] => [(name, item)]
  | (n, i) :: rest => if n = name then (n, item) :: rest else (n, i) :: set rest name item

end Members

namespace Item

/-- The items of an array or of a repeated header, in order. -/
def elements? : Item → Option (List Item)
  | array items => some items
  | tables latestFirst => some latestFirst.reverse
  | _ => none

end Item
end Campaign.Toml
