import Campaign.Files.Path

/-!
# Addresses of databases

How a path names a database. Most paths are the database's own. One that starts with `file:` is an
address: behind the name, from a question mark on, it has options that say how the database is used.
A byte of an address can be written as `%` and two digits, which keeps it from being taken for a
mark.
-/

namespace Campaign

/-- What a database is opened for. -/
inductive Mode where
  | read
  | write
  /-- Read and write, and make it if it is not there. -/
  | create
  /-- Keep it in memory, without a file. -/
  | memory
deriving DecidableEq, Repr

namespace Mode

def ofName? : String → Option Mode
  | "ro" => some read
  | "rw" => some write
  | "rwc" => some create
  | "memory" => some memory
  | _ => none

/-- How much a mode asks for. -/
def demand : Mode → Nat
  | memory => 0
  | read => 1
  | write => 2
  | create => 3

/-- How much a mode lets the modes after it ask for. -/
def allowance : Mode → Nat
  | read => 1
  | write => 2
  | create | memory => 3

end Mode

/-- The ways to reach the files of a database. -/
inductive System where
  | usual
  /-- For this program alone, as long as it has the database open. -/
  | exclusive
  /-- Without the means that let several programs share a database. -/
  | unshared
  /-- In memory, without a file. -/
  | memory
deriving DecidableEq, Repr

namespace System

def ofName? : String → Option System
  | "unix" => some usual
  | "unix-excl" => some exclusive
  | "unix-none" | "unix-dotfile" => some unshared
  | "memdb" => some memory
  | _ => none

end System

/-- Where a database is, and how it is used. -/
structure Address where
  name : List UInt8
  mode : Mode := .create
  system : System := .usual
  /-- Whether the file is taken for one that never changes. -/
  isFixed : Bool := false
deriving DecidableEq, Repr

namespace Address

/-- What an address starts with. -/
def scheme : List UInt8 := Text.toUtf8 "file:"

def question : UInt8 := 63
def ampersand : UInt8 := 38
def equals : UInt8 := 61
def percent : UInt8 := 37
def hash : UInt8 := 35

def hexDigit? (b : UInt8) : Option UInt8 :=
  if 48 ≤ b ∧ b ≤ 57 then some (b - 48)
  else if 65 ≤ b ∧ b ≤ 70 then some (b - 55)
  else if 97 ≤ b ∧ b ≤ 102 then some (b - 87)
  else none

/-- The byte that `%` and two digits at the front write, and what follows. -/
def escape? : List UInt8 → Option (UInt8 × List UInt8)
  | p :: a :: b :: rest =>
    match hexDigit? a, hexDigit? b with
    | some high, some low => if p = percent then some (16 * high + low, rest) else none
    | _, _ => none
  | _ => none

/-- Reads up to one of the marks that end a part, with `read` before it, last byte first, and gives
the mark and what is behind it. Behind an escaped zero the rest of the part does not count. -/
def takePart (marks : List UInt8) (fuel : Nat) (read : List UInt8) (s : List UInt8) :
    List UInt8 × Option UInt8 × List UInt8 :=
  match fuel, s, escape? s with
  | fuel + 1, _, some (b, rest) =>
    if b = 0 then
      match rest.dropWhile (!marks.contains ·) with
      | [] => (read.reverse, none, [])
      | mark :: rest => (read.reverse, some mark, rest)
    else takePart marks fuel (b :: read) rest
  | fuel + 1, b :: rest, none =>
    if marks.contains b then (read.reverse, some b, rest)
    else takePart marks fuel (b :: read) rest
  | _, _, _ => (read.reverse, none, [])

/-- The options in a text between ampersands, each a name and the value behind an equals sign. One
without a name does not count. -/
def options (fuel : Nat) (s : List UInt8) : List (List UInt8 × List UInt8) :=
  match fuel, takePart [equals, ampersand] s.length [] s with
  | 0, _ => []
  | fuel + 1, ([], some mark, rest) =>
    if mark = ampersand then options fuel rest
    else options fuel ((rest.dropWhile (· ≠ ampersand)).drop 1)
  | fuel + 1, (name, some mark, rest) =>
    if mark = ampersand then (name, []) :: options fuel rest
    else
      let (value, _, rest) := takePart [ampersand] rest.length [] rest
      (name, value) :: options fuel rest
  | _ + 1, ([], none, _) => []
  | _ + 1, (name, none, _) => [(name, [])]

def text (bytes : List UInt8) : String :=
  String.ofList (Text.ofUtf8Lenient bytes)

/-- Whether a value says yes. -/
def isYes (value : List UInt8) : Bool :=
  let digits := value.takeWhile fun b => 48 ≤ b && b ≤ 57
  if digits.isEmpty then
    ["on", "yes", "true"].contains (String.ofList ((text value).toList.map Char.toLower))
  else digits.foldl (fun n b => (10 * n + (b.toNat - 48)) % 256) 0 ≠ 0

/-- Whether the first option with a name says yes. -/
def isSet (options : List (List UInt8 × List UInt8)) (name : String) : Bool :=
  ((options.lookup (Text.toUtf8 name)).map isYes).getD false

/-- The mode that options ask for, one after another, starting with `mode`. -/
def modeOf (mode : Mode) : List (List UInt8 × List UInt8) → Except AddressFault Mode
  | [] => .ok mode
  | (name, value) :: options =>
    if name = Text.toUtf8 "cache" then
      if text value = "shared" ∨ text value = "private" then modeOf mode options
      else .error (.unknownCache (text value))
    else if name = Text.toUtf8 "mode" then
      match Mode.ofName? (text value) with
      | none => .error (.unknownMode (text value))
      | some next =>
        if next.demand ≤ mode.allowance then modeOf next options
        else .error (.forbiddenMode (text value))
    else modeOf mode options

/-- The system that the last option for one names. -/
def systemOf (options : List (List UInt8 × List UInt8)) : Except AddressFault System :=
  match options.reverse.lookup (Text.toUtf8 "vfs") with
  | none => .ok .usual
  | some value =>
    match System.ofName? (text value) with
    | some system => .ok system
    | none => .error (.unknownSystem (text value))

/-- What follows the machine in an address, which can only be this one. -/
def skipAuthority (s : List UInt8) : Except AddressFault (List UInt8) :=
  match s with
  | 47 :: 47 :: rest =>
    let authority := rest.takeWhile (· ≠ Path.slash)
    if authority = [] ∨ authority = Text.toUtf8 "localhost" then .ok (rest.drop authority.length)
    else .error (.authority (text authority))
  | s => .ok s

/-- Reads an address. -/
def ofBytes (bytes : List UInt8) : Except AddressFault Address := do
  if !scheme.isPrefixOf bytes then return { name := bytes }
  let rest := (← skipAuthority (bytes.drop scheme.length)).takeWhile (· ≠ hash)
  let (name, _, rest) := takePart [question] rest.length [] rest
  let options := options rest.length rest
  let mode ← modeOf .create options
  let system ← systemOf options
  let system := if system ≠ .memory && isSet options "nolock" then .unshared else system
  return { name, mode, system, isFixed := isSet options "immutable" }

/-- Whether an address names no file. -/
def isUnnamed (a : Address) : Bool :=
  a.name = [] || a.name = Text.toUtf8 ":memory:" || a.mode = .memory

/-- Whether a database has no file: it starts empty, and closing it loses it. -/
def isPassing (a : Address) : Bool :=
  a.isUnnamed || a.system = .memory

/-- Whether a database may only be read. -/
def isReadOnly (a : Address) : Bool :=
  a.mode = .read || (a.isFixed && !a.isUnnamed)

end Address
end Campaign
