import Campaign.Files
import Campaign.Settings
import Campaign.Text.Padding

/-!
# The environment of a command

What surrounds a run of the program, and the settings it finds there.
-/

namespace Campaign.Command

/-- What surrounds a run of the program, apart from the files. -/
structure Environment where
  workingDirectory : Location
  home : Option String
  /-- The path of the settings, where the environment names one. -/
  settingsPath : Option String
deriving Repr

/-- Why a command fails: what it was doing, and the cause if that is another. -/
structure Failure where
  context : String
  cause : Option String
deriving DecidableEq, Repr

namespace Failure

/-- The failure that a fault is by itself. -/
def ofFault (fault : Fault) : Failure :=
  match fault with
  | .file cause => ⟨fault.message, some cause.message⟩
  | _ => ⟨fault.message, none⟩

/-- The blanks before each line of a cause. -/
def margin : String := "    "

/-- How a failure is told at the end of a run. -/
def text (f : Failure) : String :=
  "Error: " ++ f.context ++ match f.cause with
    | none => "\n"
    | some cause => "\n\nCaused by:\n" ++ Text.indented margin cause ++ "\n"

end Failure

/-- A path below a directory. -/
def below (directory path : String) : String :=
  if directory = "" || directory.endsWith "/" then directory ++ path else directory ++ "/" ++ path

namespace Environment

/-- The path of the settings: the one that the environment names, else the usual one. -/
def settingsFile (e : Environment) : Option String :=
  e.settingsPath.or (e.home.map fun home => below home ".config/trialdb/config.toml")

/-- The path of the database where nothing names one. -/
def standardDatabase (e : Environment) : String :=
  match e.home with
  | some home => below home ".local/share/trialdb/rslts.db"
  | none => "rslts.db"

/-- The path of the settings, and whether they are there. -/
def settingsOrigin (e : Environment) (fs : Files) : String :=
  match e.settingsFile with
  | none => "no config path resolved (using defaults)"
  | some path =>
    if fs.pathExists e.workingDirectory (.ofText path) then path ++ " (loaded)"
    else path ++ " (not found, using defaults)"

/-- What was being done when settings could not be read. -/
def reading (path : String) : String :=
  "reading " ++ path

/-- What was being done when settings could not be understood. -/
def parsing (path : String) : String :=
  "parsing " ++ path

/-- The settings in a file: those of its text, if it is text and writes settings. -/
def settingsIn (path : String) (content : Content) : Except Failure Settings :=
  match content.text? with
  | none => .error ⟨reading path, some "stream did not contain valid UTF-8"⟩
  | some text =>
    match Settings.ofText? text with
    | some s => .ok s
    | none => .error ⟨parsing path, some "TOML parse error"⟩

/-- The settings of a run; the standard ones if there is no file of settings. -/
def settings (e : Environment) (fs : Files) : Except Failure Settings :=
  match e.settingsFile with
  | none => .ok .standard
  | some path =>
    if fs.pathExists e.workingDirectory (.ofText path) then
      match fs.read e.workingDirectory (.ofText path) with
      | .error fault => .error ⟨reading path, some fault.message⟩
      | .ok content => settingsIn path content
    else .ok .standard

end Environment
end Campaign.Command
