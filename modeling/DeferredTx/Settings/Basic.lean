import DeferredTx.Address.Dsn
import DeferredTx.Settings.File
import DeferredTx.Settings.Switch
import DeferredTx.Text.Quoted

/-!
# Settings

A connection is opened with three settings: the address, whether smart commit is on, and the
auto-commit mode to start with. Each comes from an environment variable if it is set, else from the
settings file if one is named and has it, else from the defaults.

* `Variables`: the four environment variables.
* `Settings.load`: the settings that result. Failures are met in the order file, smart commit,
  auto-commit, address.
* `Settings.describe`: the settings in words, with the password masked.
-/

namespace DeferredTx

/-- Why a file cannot be read. -/
inductive FileError where
  | notFound
  | isDirectory
  | notUtf8
  /-- Any other failure, in the words of the operating system. -/
  | other (message : String)
  deriving DecidableEq, Repr

/-- The wording of a failure. -/
def FileError.message : FileError → String
  | .notFound => "No such file or directory (os error 2)"
  | .isDirectory => "Is a directory (os error 21)"
  | .notUtf8 => "stream did not contain valid UTF-8"
  | .other m => m

/-- The bytes of the files that can be opened. -/
abbrev Files := String → Except FileError ByteArray

/-- The text of a file. -/
def Files.readText (files : Files) (path : String) : Except FileError String := do
  match String.fromUTF8? (← files path) with
  | some text => return text
  | none => throw .notUtf8

/-- The settings that a connection is opened with. -/
structure Settings where
  /-- The address, with or without the prefix that asks for a controller. -/
  dsn : String := "sqlite::memory:"
  smartCommit : Bool := true
  /-- The auto-commit mode to start with; `none` leaves it to the database. -/
  autoCommit : Option Bool := none
  deriving DecidableEq, Repr

/-- The environment variables that settings are taken from. -/
structure Variables where
  /-- The path of the settings file. -/
  file : Option String := none
  dsn : Option String := none
  smartCommit : Option String := none
  autoCommit : Option String := none
  deriving DecidableEq, Repr

/-- The variables as an environment gives them. -/
def Variables.ofLookup (lookup : String → Option String) : Variables where
  file := lookup "SMARTCOMMIT_CONFIG"
  dsn := lookup "DATABASE_DSN"
  smartCommit := lookup "SMART_COMMIT"
  autoCommit := lookup "AUTO_COMMIT"

/-- Why settings cannot be loaded. -/
inductive SettingsError where
  | unreadableFile (path : String) (cause : FileError)
  | malformedFile (path : String)
  | smartCommit (cause : Switch.NotASwitch)
  | autoCommit (cause : Switch.NotASwitch)
  | dsn (cause : Dsn.Fault)
  deriving DecidableEq, Repr

/-- The wording of an error, the outermost message first. -/
def SettingsError.chain : SettingsError → List String
  | .unreadableFile path cause => ["Failed to read config file " ++ path, cause.message]
  | .malformedFile path => ["Failed to parse config file " ++ path, "json error"]
  | .smartCommit cause => ["SMART_COMMIT must be a boolean", cause.message]
  | .autoCommit cause => ["AUTO_COMMIT must be a boolean", cause.message]
  | .dsn cause => "Invalid DATABASE_DSN" :: cause.chain

namespace Settings

/-- What the settings file says, if one is named. -/
def readFile (files : Files) : Option String → Except SettingsError FileSettings
  | none => .ok {}
  | some path =>
    match files.readText path with
    | .error cause => .error (.unreadableFile path cause)
    | .ok text =>
      match FileSettings.read? text with
      | some settings => .ok settings
      | none => .error (.malformedFile path)

/-- The switch in a variable, if it is set. -/
def readSwitch (toError : Switch.NotASwitch → SettingsError) :
    Option String → Except SettingsError (Option Bool)
  | none => .ok none
  | some text =>
    match Switch.read text with
    | .ok on => .ok (some on)
    | .error cause => .error (toError cause)

/-- The settings that variables, file and defaults give. -/
def load (files : Files) (vars : Variables) : Except SettingsError Settings := do
  let base : Settings := {}
  let file ← readFile files vars.file
  let smart ← readSwitch .smartCommit vars.smartCommit
  let auto ← readSwitch .autoCommit vars.autoCommit
  let dsn := (vars.dsn <|> file.dsn).getD base.dsn
  match Dsn.validate dsn with
  | .error cause => throw (.dsn cause)
  | .ok _ =>
    return {
      dsn
      smartCommit := (smart <|> file.smartCommit).getD base.smartCommit
      autoCommit := auto <|> file.autoCommit <|> base.autoCommit }

/-- The settings in words, with the password masked. -/
def describe (s : Settings) : String :=
  let auto := match s.autoCommit with
    | none => "None"
    | some on => "Some(" ++ toString on ++ ")"
  "SmartCommitConfig \x7b dsn: " ++ Text.Quoted.literal (Dsn.mask s.dsn) ++ ", smart_commit: "
    ++ toString s.smartCommit ++ ", auto_commit: " ++ auto ++ " \x7d"

end Settings
end DeferredTx
