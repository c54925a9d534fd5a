import Campaign.Fault
import Campaign.Text.Utf8

/-!
# Paths

Texts that lead to files: names between slashes, from the root or from the working directory. Names
are bytes, which need not be text.
-/

namespace Campaign

/-- The name of a file or directory: bytes without `/`. -/
abbrev FileName := List UInt8

/-- The names on the way from the root to a place. -/
abbrev Location := List FileName

/-- A path as a program is given it. -/
structure Path where
  bytes : List UInt8
deriving DecidableEq, Repr

namespace Path

/-- The step that stays where it is. -/
def here : FileName := [46]

/-- The step to the directory above. -/
def above : FileName := [46, 46]

def slash : UInt8 := 47

def ofText (s : String) : Path :=
  ⟨Text.toUtf8 s⟩

/-- The path from the root to a place. -/
def ofLocation (place : Location) : Path :=
  if place.isEmpty then ⟨[slash]⟩ else ⟨place.flatMap (slash :: ·)⟩

/-- The path with a text behind it. -/
def append (p : Path) (s : String) : Path :=
  ⟨p.bytes ++ Text.toUtf8 s⟩

/-- Whether a path starts at the root. -/
def isAbsolute (p : Path) : Bool :=
  p.bytes.head? == some slash

/-- The parts of some bytes between slashes, empty ones too. -/
def partsOf : List UInt8 → List FileName
  | [] => [[]]
  | b :: bytes =>
    match partsOf bytes with
    | [] => []
    | part :: parts => if b = slash then [] :: part :: parts else (b :: part) :: parts

/-- The names in a path. -/
def names (p : Path) : List FileName :=
  (partsOf p.bytes).filter (· ≠ [])

/-- The steps along a path. A slash at its end counts as a step that stays, so that what stands
before it must be a directory. -/
def steps (p : Path) : List FileName :=
  p.names ++ if p.bytes.getLast? = some slash && !p.names.isEmpty then [here] else []

/-- Where a path starts. -/
def start (p : Path) (workingDirectory : Location) : Location :=
  if p.isAbsolute then [] else workingDirectory

/-- Where a step from a directory leads. -/
def go (place : Location) (step : FileName) : Location :=
  if step = here then place
  else if step = above then place.dropLast
  else place ++ [step]

/-- The places that steps lead through from a place, itself the first. -/
def trail : Location → List FileName → List Location
  | place, [] => [place]
  | place, step :: steps => place :: trail (go place step) steps

/-- The place that a path writes, whatever the files are. -/
def place (p : Path) (workingDirectory : Location) : Location :=
  p.names.foldl go (p.start workingDirectory)

/-- Parts without those at the end that lead nowhere: empty ones and steps that stay. -/
def withoutIdleEnd (parts : List FileName) : List FileName :=
  (parts.reverse.dropWhile fun part => part = [] || part = here).reverse

/-- The path that parts write. -/
def ofParts (parts : List FileName) : Path :=
  ⟨[slash].intercalate parts⟩

/-- The path without its last name, if it has one to leave out. What leads nowhere at its end is
left out as well, but for the lead: the slash of a path from the root, or a step that stays at the
start of another one. -/
def parent? (p : Path) : Option Path :=
  let parts := partsOf p.bytes
  let lead := if p.isAbsolute || parts.head? = some here then parts.take 1 else []
  let body := withoutIdleEnd (parts.drop lead.length)
  let kept := withoutIdleEnd body.dropLast
  if body.isEmpty then if lead = [here] then some ⟨[]⟩ else none
  else if kept.isEmpty && p.isAbsolute then some ⟨[slash]⟩
  else some (ofParts (lead ++ kept))

/-- A path and the paths above it, each the parent of the one before, as long as they have names to
leave out; `fuel` of them at most. -/
def ancestorsWithin : (fuel : Nat) → Path → List Path
  | 0, _ => []
  | fuel + 1, p =>
    match p.parent? with
    | none => []
    | some parent => p :: ancestorsWithin fuel parent

/-- A path and the paths above it. -/
def ancestors (p : Path) : List Path :=
  ancestorsWithin (p.bytes.length + 1) p

/-- The longest path that the system takes. -/
def greatestLength : Nat := 4095

/-- The longest name that a file can have. -/
def greatestName : Nat := 255

/-- What keeps a path from being followed at all. -/
def fault? (p : Path) : Option FileFault :=
  if p.bytes.contains 0 then some .endMark
  else if p.bytes.isEmpty then some .notFound
  else if p.bytes.length > greatestLength then some .nameTooLong
  else none

end Path
end Campaign
