import Campaign.Expression.Reading

/-!
# Functions

What the functions of expressions make of their arguments. Most are absent where the argument they
work on is.
-/

namespace Campaign.Function

open Cell

/-- Whether a text matches a pattern in which `%` stands for any text and `_` for any character;
letters match without regard to case. -/
def isLike (escape : Option Char) (fuel : Nat) (pattern s : List Char) : Bool :=
  match fuel, pattern, s with
  | 0, _, _ => false
  | _ + 1, [], s => s.isEmpty
  | fuel + 1, p :: ps, s =>
    if some p = escape then
      match ps, s with
      | q :: ps, c :: s => q.toLower == c.toLower && isLike escape fuel ps s
      | _, _ => false
    else if p = '%' then
      isLike escape fuel ps s ||
        match s with
        | [] => false
        | _ :: rest => isLike escape fuel (p :: ps) rest
    else
      match s with
      | [] => false
      | c :: s => (p == '_' || p.toLower == c.toLower) && isLike escape fuel ps s

/-- The characters of a set, up to its closing bracket, and what follows it. -/
def takeSet? (set : List Char) : List Char → Option (List Char × List Char)
  | [] => none
  | ']' :: rest => if set.isEmpty then takeSet? [']'] rest else some (set.reverse, rest)
  | c :: rest => takeSet? (c :: set) rest

/-- Whether a character is in a set of characters and ranges. -/
def inSet (c : Char) : List Char → Bool
  | a :: '-' :: b :: rest => (a ≤ c && c ≤ b) || inSet c rest
  | a :: rest => a == c || inSet c rest
  | [] => false

/-- Whether a text matches a pattern in which `*` stands for any text, `?` for any character and a
set in brackets for one of its characters. -/
def isGlob (fuel : Nat) (pattern s : List Char) : Bool :=
  match fuel, pattern, s with
  | 0, _, _ => false
  | _ + 1, [], s => s.isEmpty
  | fuel + 1, '*' :: ps, s =>
    isGlob fuel ps s ||
      match s with
      | [] => false
      | _ :: rest => isGlob fuel ('*' :: ps) rest
  | fuel + 1, '[' :: '^' :: ps, c :: s =>
    match takeSet? [] ps with
    | some (set, ps) => !inSet c set && isGlob fuel ps s
    | none => false
  | fuel + 1, '[' :: ps, c :: s =>
    match takeSet? [] ps with
    | some (set, ps) => inSet c set && isGlob fuel ps s
    | none => false
  | fuel + 1, p :: ps, c :: s => (p == '?' || p == c) && isGlob fuel ps s
  | _ + 1, _ :: _, [] => false

/-- A match of two texts; absent if one of them is. -/
def matching (test : Nat → List Char → List Char → Bool) (pattern s : Cell) : Cell :=
  match pattern.text?, s.text? with
  | some p, some s => ofTruth (some (test (p.length + s.length + 2) p s))
  | _, _ => absent

/-- The first of some cells that is not absent. -/
def firstPresent : List Cell → Cell
  | [] => absent
  | absent :: rest => firstPresent rest
  | c :: _ => c

/-- The part of a list from a place on, counted from 1, or from the end if it is negative. A
negative length takes what stands before the place. -/
def part {α : Type} (xs : List α) (start : Int) (length : Option Int) : List α :=
  let first := if start < 0 then (xs.length : Int) + start else max 0 (start - 1)
  let lost := if start < 0 then max 0 (-first) else if start = 0 then 1 else 0
  let first := max 0 first
  match length with
  | none => xs.drop first.toNat
  | some n =>
    if n < 0 then (xs.take first.toNat).drop (first + n).toNat
    else (xs.drop first.toNat).take (n - lost).toNat

/-- A part of a text or of bytes. -/
def partOf (c : Cell) (start : Option Int) (length : Option (Option Int)) : Cell :=
  match start, length with
  | some start, none => go start none
  | some start, some (some n) => go start (some n)
  | _, _ => absent
where
  go (start : Int) (length : Option Int) : Cell :=
    match c with
    | .blob bytes => .blob (part bytes start length)
    | c => match c.text? with
      | some s => ofText (part s start length)
      | none => absent

/-- The place of a list in another, counted from 1; 0 if it is not there. -/
def placeIn {α : Type} [BEq α] (needle : List α) (fuel : Nat) (s : List α) : Nat :=
  match fuel, s with
  | 0, _ => 0
  | fuel + 1, s =>
    if needle.isPrefixOf s then 1
    else match s with
      | [] => 0
      | _ :: rest => match placeIn needle fuel rest with
        | 0 => 0
        | n + 1 => n + 2

def upperHex (bytes : List UInt8) : List Char :=
  bytes.flatMap fun b =>
    let digits := (Nat.toDigits 16 b.toNat).map Char.toUpper
    List.replicate (2 - digits.length) '0' ++ digits

/-- Removes characters at the ends of a text. -/
def trimmed (trim : (Char → Bool) → List Char → List Char) (s set : Cell) : Cell :=
  match s.text?, set.text? with
  | some s, some set => ofText (trim (fun c => set.contains c) s)
  | _, _ => absent

/-- Applies a function to a text. -/
def onText (f : List Char → Cell) (c : Cell) : Cell :=
  match c.text? with
  | some s => f s
  | none => absent

def size : Cell → Cell
  | .blob bytes => integer bytes.length
  | c => onText (fun s => integer (s.takeWhile (· ≠ '\x00')).length) c

def magnitude (c : Cell) : Cell :=
  match c with
  | absent => absent
  | integer n => ofInteger n.natAbs
  | c => match c.real? with
    | some v => ofReal (.ofPlace false v.place)
    | none => absent

/-- The sign of a number; of what writes none, absent. -/
def signOf (c : Cell) : Cell :=
  let sign (n : Int) : Cell := integer (if n < 0 then -1 else if n = 0 then 0 else 1)
  match Affinity.numeric.apply c with
  | integer n => sign n
  | real v => sign (unitsOfReal v)
  | _ => absent

/-- A number rounded to some places, a half away from zero. -/
def rounded (c : Cell) (places : Nat) : Cell :=
  match c.real? with
  | none => absent
  | some v =>
    if v.isFinite then
      let one := Nat.pow 10 places
      let scaled := (2 * v.units * one + Value.unitsOfOne) / (2 * Value.unitsOfOne)
      real (.ofPlace v.negative (Value.nearestPlace (scaled * Value.unitsOfOne) one))
    else real v

/-- The last of two cells in an order, or the first; absent if one of them is. -/
def extreme (wanted : Ordering) (a b : Cell) : Cell :=
  if a = absent ∨ b = absent then absent
  else if Cell.order .binary b a = wanted then b else a

/-- A cell as an expression writes it. -/
def written (c : Cell) : Cell :=
  match c with
  | absent => .text "NULL"
  | blob bytes => ofText (['X', '\''] ++ upperHex bytes ++ ['\''])
  | text s =>
    ofText ('\'' :: s.toList.flatMap (fun x => if x = '\'' then [x, x] else [x]) ++ ['\''])
  | c => onText ofText c

/-- A text with another one in place of each that is like `old`. -/
def replaced (old new : List Char) (fuel : Nat) (s : List Char) : List Char :=
  match fuel, s with
  | fuel + 1, c :: rest =>
    if old.isPrefixOf s then new ++ replaced old new fuel (s.drop old.length)
    else c :: replaced old new fuel rest
  | _, s => s

/-- What a function makes of its arguments. -/
def apply (name : String) (arguments : List Cell) : Cell :=
  match name, arguments with
  | "like", [p, s] => matching (isLike none) p s
  | "like", [p, s, e] => match e.text? with
    | some [e] => matching (isLike (some e)) p s
    | _ => absent
  | "glob", [p, s] => matching isGlob p s
  | "length", [c] => size c
  | "octet_length", [c] => match c.bytes? with
    | some bytes => integer bytes.length
    | none => absent
  | "typeof", [c] => .text c.kindName
  | "abs", [c] => magnitude c
  | "sign", [c] => signOf c
  | "coalesce", cs | "ifnull", cs => firstPresent cs
  | "nullif", [a, b] => if Cell.same .binary a b then absent else a
  | "iif", [c, yes, no] | "if", [c, yes, no] => if c.truth? = some true then yes else no
  | "iif", [c, yes] | "if", [c, yes] => if c.truth? = some true then yes else absent
  | "min", c :: cs => cs.foldl (extreme .lt) c
  | "max", c :: cs => cs.foldl (extreme .gt) c
  | "substr", [c, start] | "substring", [c, start] => partOf c start.integer? none
  | "substr", [c, start, n] | "substring", [c, start, n] =>
    partOf c start.integer? (some n.integer?)
  | "upper", [c] => onText (fun s => ofText (s.map Char.toUpper)) c
  | "lower", [c] => onText (fun s => ofText (s.map Char.toLower)) c
  | "trim", [s] => trimmed Text.dropAround s (.text " ")
  | "trim", [s, set] => trimmed Text.dropAround s set
  | "ltrim", [s] => trimmed List.dropWhile s (.text " ")
  | "ltrim", [s, set] => trimmed List.dropWhile s set
  | "rtrim", [s] => trimmed Text.dropEndWhile s (.text " ")
  | "rtrim", [s, set] => trimmed Text.dropEndWhile s set
  | "hex", [c] => ofText (upperHex (c.bytes?.getD []))
  | "instr", [.blob s, .blob needle] => integer (placeIn needle (s.length + 1) s)
  | "instr", [s, needle] => match s.text?, needle.text? with
    | some s, some needle => integer (placeIn needle (s.length + 1) s)
    | _, _ => absent
  | "round", [c] => rounded c 0
  | "round", [c, n] => match n.integer? with
    | some n => rounded c (min 30 n.toNat)
    | none => absent
  | "unicode", [c] => onText (fun s => match s with
    | [] => absent
    | x :: _ => integer x.toNat) c
  | "quote", [c] => written c
  | "replace", [s, old, new] => match s.text?, old.text?, new.text? with
    | some s, some [], some _ => ofText s
    | some s, some old, some new => ofText (replaced old new s.length s)
    | _, _, _ => absent
  | "concat", cs => ofText (cs.flatMap fun c => c.text?.getD [])
  | "char", cs => ofText (cs.map fun c => Char.ofNat (c.integer?.getD 0).toNat)
  | "zeroblob", [c] => .blob (List.replicate (c.integer?.getD 0).toNat 0)
  | "likely", [c] | "unlikely", [c] | "likelihood", [c, _] => c
  | _, _ => absent

end Campaign.Function
