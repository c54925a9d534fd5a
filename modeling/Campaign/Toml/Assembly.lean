import Campaign.Toml

/-!
# Assembling tables

A document names its items by paths, and headers and dotted names make tables on the way. A table
may be made in one way only, a header may be given once, and a name may be given once.
-/

namespace Campaign.Toml

/-- Applies `change` to the members of a table, or of the latest table of a repeated header, that
may be entered on the way to an item. With `dotted` the way is a dotted name, which does not enter
tables that have a header. -/
def Item.enter (dotted : Bool) (change : Origin → Members → Option Members) : Item → Option Item
  | .table origin members =>
    if origin = .inline || (dotted && origin = .header) then none
    else (change origin members).map (.table origin)
  | .tables (.table origin members :: rest) =>
    (change origin members).map fun members => .tables (.table origin members :: rest)
  | _ => none

/-- Applies `change` to the members at the end of a way through the tables of `members`, which is
entered at a table of the given origin. Tables that are not there are made. -/
def descend (dotted : Bool) (change : Origin → Members → Option Members) :
    List String → Origin → Members → Option Members
  | [], origin, members => change origin members
  | name :: path, _, members =>
    let next := match members.lookup name with
      | some item => item
      | none => .table (if dotted then .dotted else .implied) []
    (next.enter dotted (descend dotted change path)).map fun item => Members.set members name item

/-- Adds an item under a new name. At the end of a dotted name (`dotted`) only a table that dotted
names made takes it. -/
def addMember (dotted : Bool) (name : String) (item : Item) (origin : Origin) (members : Members) :
    Option Members :=
  if (members.lookup name).isSome || (dotted && origin ≠ .dotted) then none
  else some (Members.set members name item)

/-- Adds an item under a name of one or more parts to the members of a table. -/
def addItem (path : List String) (item : Item) (members : Members) : Option Members :=
  match path.getLast? with
  | none => none
  | some name =>
    let way := path.dropLast
    descend true (addMember (!way.isEmpty) name item) way .header members

/-- Opens the table of a header: a new one, or one that headers below it have made. -/
def openTable (name : String) (_ : Origin) (members : Members) : Option Members :=
  match members.lookup name with
  | none => some (Members.set members name (.table .header []))
  | some (.table .implied below) => some (Members.set members name (.table .header below))
  | some _ => none

/-- Opens one more table of a repeated header. -/
def openElement (name : String) (_ : Origin) (members : Members) : Option Members :=
  match members.lookup name with
  | none => some (Members.set members name (.tables [.table .header []]))
  | some (.tables elements) =>
    some (Members.set members name (.tables (.table .header [] :: elements)))
  | some _ => none

/-- Opens the table of a header with a path of one or more parts. -/
def openHeader (repeated : Bool) (path : List String) (root : Members) : Option Members :=
  match path.getLast? with
  | none => none
  | some name =>
    descend false (if repeated then openElement name else openTable name) path.dropLast .header root

/-- Adds an item to the table that the last header opened. -/
def addUnder (header path : List String) (item : Item) (root : Members) : Option Members :=
  descend false (fun _ members => addItem path item members) header .header root

/-- The table between braces that holds named items. -/
def inlineTable? (items : List (List String × Item)) : Option Item :=
  (items.foldlM (fun members (path, item) => addItem path item members) []).map (.table .inline)

end Campaign.Toml
