import EditorInsight.Files.Disk
import EditorInsight.Log.Event
import EditorInsight.Settings.Basic
import EditorInsight.Yaml.Load

/-!
# Loading settings

Settings come from a YAML file in the workspace. What the file says is taken key by key: an unknown
key or a value that is not accepted is reported and passed over, unless the report cannot be given,
which ends the loading. A file that is missing, empty or malformed leaves all defaults in place.
-/

namespace EditorInsight

/-- What is reported about a settings file. -/
inductive SettingsNotice where
  | missing (path : Text)
  | empty
  | notMapping (typeName : Text)
  | unknownKey (key : Text)
  | refused (key : SettingKey) (value : Text)
  | malformed (path message : Text)
  | isFolder (path : Text)
  deriving DecidableEq

namespace SettingsNotice

def logger : Text := "apy_intel.config"

def message : SettingsNotice → Text
  | missing path => "Configuration file not found at " ++ path ++ ", using defaults"
  | empty => "Configuration file is empty, using defaults"
  | notMapping typeName =>
    "Configuration file must contain a YAML dictionary, got <class '" ++ typeName ++
      "'>, using defaults"
  | unknownKey key => "Unknown configuration parameter '" ++ key ++ "', ignoring"
  | refused key value =>
    "Invalid value for '" ++ key.name ++ "': " ++ value ++ ", using default " ++
      (({} : Settings).value key).display
  | malformed path message =>
    "Error parsing configuration file " ++ path ++ ": " ++ message ++ ", using defaults"
  | isFolder path =>
    "Unable to read configuration file " ++ path ++ ": [Errno 21] Is a directory: " ++
      Text.quote path ++ ", using defaults"

/-- Only a missing file is no reason for a warning. -/
def event (n : SettingsNotice) : LogEvent :=
  match n with
  | missing _ => .info logger n.message
  | _ => .warning logger n.message

end SettingsNotice

/-- Why settings cannot be loaded at all. -/
inductive SettingsFault where
  | notFolder (workspace : Text)
  | nameTooLong (path : Text)
  | notUtf8
  | tooDeep
  | scalar (fault : Yaml.ScalarFault)
  /-- A value that a notice has to show cannot be shown, after the given notices. -/
  | unshowable (fault : Value.ShowFault) (before : List SettingsNotice)
  deriving DecidableEq

/-- What is reported before settings turn out not to load. -/
def SettingsFault.notices : SettingsFault → List SettingsNotice
  | unshowable _ before => before
  | _ => []

namespace Settings

/-- Takes one entry of a settings file. The notice about it shows the key or the value. -/
def takeEntry (levels : Nat) (s : Settings) (key value : Value) :
    Except Value.ShowFault (Settings × Option SettingsNotice) := do
  match SettingKey.ofValue? key with
  | none => return (s, some (.unknownKey (← key.shown levels)))
  | some k =>
    match s.assign? value k with
    | none => return (s, some (.refused k (← value.shown levels)))
    | some s => return (s, none)

/-- Takes the entries of a settings file in their order, after the given notices. -/
def takeEntries (levels : Nat) (s : Settings) (notices : List SettingsNotice) :
    List (Value × Value) → Except SettingsFault (Settings × List SettingsNotice)
  | [] => .ok (s, notices)
  | (key, value) :: r =>
    match s.takeEntry levels key value with
    | .error f => .error (.unshowable f notices)
    | .ok (s, notice) => s.takeEntries levels (notices ++ notice.toList) r

def ofValue (levels : Nat) : Value → Except SettingsFault (Settings × List SettingsNotice)
  | .null => .ok ({}, [.empty])
  | .map entries => takeEntries levels {} [] entries
  | v => .ok ({}, [.notMapping v.typeName])

end Settings

/-- The settings of a workspace, and where they were looked for. -/
structure Configuration where
  workspace : Text
  file : Text
  settings : Settings := {}

namespace Configuration

/-- The name of the settings file in a workspace. -/
def fileName : Text := ".apy_intel.yml"

def libsRoot (c : Configuration) : Text := Path.below c.workspace c.settings.libsDir.shown

def tablesRoot (c : Configuration) : Text := Path.below c.workspace c.settings.tablesDir.shown

def moduleExtensions (c : Configuration) : List Text := c.settings.moduleExtensions.map LoadedText.shown

/-- The settings in a file of the given name and bytes. -/
def settingsOf (file : Text) (bytes : List UInt8) :
    Except SettingsFault (Settings × List SettingsNotice) :=
  match Yaml.load (.ofBytes bytes) with
  | .ok v => Settings.ofValue Value.maxLevels v
  | .error (.malformed c) => .ok ({}, [.malformed file (c.text file)])
  | .error (.unprintable c index) => .ok ({}, [.malformed file (Yaml.unprintableText file c index)])
  | .error .undecodable => .error .notUtf8
  | .error .tooDeep => .error .tooDeep
  | .error (.scalar f) => .error (.scalar f)

/-- Loads the settings of a workspace, by default the current directory, from a file, by default the
one in the workspace. -/
def load (disk : Disk) (file workspace : Option Text) :
    Except SettingsFault (Configuration × List SettingsNotice) := do
  let workspace := match workspace with
    | some w => Path.tidy w
    | none => Path.ofPlace disk.current
  let arrive (path : Text) : FileNode.Arrival :=
    if Path.hasNull path then .absent else disk.arrive path
  match arrive workspace with
  | .found _ (.folder _) => pure ()
  | .tooLong => throw (.nameTooLong workspace)
  | _ => throw (.notFolder workspace)
  let file := match file with
    | some f => Path.tidy f
    | none => Path.below workspace fileName
  let (settings, notices) ← match arrive file with
    | .tooLong => throw (.nameTooLong file)
    | .absent | .belowFile => pure ({}, [.missing file])
    | .found _ (.folder _) => pure ({}, [.isFolder file])
    | .found _ (.file bytes) => settingsOf file bytes
  return (⟨workspace, file, settings⟩, notices)

end Configuration
end EditorInsight
