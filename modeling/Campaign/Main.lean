import Campaign.Command
import Campaign.Files.Image

/-!
# The command line

Takes what a run looks at out of the file system, runs the program on it, and puts back what the run
has changed.
-/

namespace Campaign.Main

/-- The text of the path from the root to a place. -/
def pathOf (place : Location) : String :=
  "/" ++ "/".intercalate (place.map fun name => String.ofList (Text.ofUtf8Lenient name))

/-- Why the system refuses something, in its own words. -/
def causeOf : IO.Error → FileFault
  | .permissionDenied _ 13 _ => .permissionDenied
  | .permissionDenied _ code words | .hardwareFault code words | .resourceBusy code words
  | .resourceExhausted _ code words | .invalidArgument _ code words
  | .otherError code words => .other (words ++ s!" (os error {code})")
  | e => .other (toString e)

/-- Adds the directory or file at a place, if one is there. -/
def take (fs : Files) (place : Location) : IO Files := do
  let path := (← IO.currentDir) / pathOf place
  if ← path.isDir then return fs.put place .directory
  else if ← path.pathExists then
    match ← (IO.FS.readBinFile path).toBaseIO with
    | .ok bytes => return fs.put place (.file (.ofImage bytes.toList))
    | .error e => return fs.put place (.unreadable (causeOf e))
  else return fs

/-- Adds what lies in a directory, or that it cannot be listed. -/
def takeBelow (fs : Files) (place : Location) : IO Files := do
  let path := (← IO.currentDir) / pathOf place
  if ← path.isDir then
    match ← path.readDir.toBaseIO with
    | .ok entries => entries.foldlM (fun fs entry => take fs (place ++ [Text.toUtf8 entry.fileName])) fs
    | .error e => return fs.put place (.unlisted (causeOf e))
  else return fs

/-- The files on the way of some paths, at their ends and one step further. -/
def snapshot (workingDirectory : Location) (paths : List Path) : IO Files := do
  let mut fs := Files.empty
  for p in paths.filter (·.fault?.isNone) do
    let places := Path.trail (p.start workingDirectory) p.steps
    for place in places do
      fs ← take fs place
    if let some place := places.getLast? then
      fs ← takeBelow fs place
  return fs

/-- Makes the file system hold what `after` holds in place of `before`. -/
def put (before after : Files) : IO Unit := do
  for (place, _) in before.entries do
    if (after.entry? place).isNone then IO.FS.removeFile (pathOf place)
  for (place, entry) in after.entries do
    if before.entry? place ≠ some entry then
      match entry with
      | .directory => IO.FS.createDir (pathOf place)
      | .file content => IO.FS.writeBinFile (pathOf place) ⟨content.image.toArray⟩
      | .unreadable _ | .unlisted _ => pure ()

/-- Runs the program with its arguments and gives its exit code. -/
def run (args : List String) : IO UInt32 := do
  let workingDirectory := (Path.ofText (← IO.currentDir).toString).place []
  let e : Command.Environment :=
    ⟨workingDirectory, ← IO.getEnv "HOME", ← IO.getEnv "TRIALDB_CONFIG"⟩
  let known ← snapshot e.workingDirectory (Command.reach e .empty args)
  let before ← snapshot e.workingDirectory (Command.reach e known args)
  let (output, after) := Command.run e before args
  put before after
  IO.print output.out
  IO.eprint output.err
  return UInt32.ofNat output.code

end Campaign.Main

/-- Runs the program. -/
def main (args : List String) : IO UInt32 :=
  Campaign.Main.run args
