import EditorInsight.Data.Value
import EditorInsight.Text.Blank

/-!
# Settings

The nine settings of the service with their defaults. A setting is assigned by its key; a value that
its rule does not accept is refused and the setting keeps what it had.
-/

namespace EditorInsight

/-- A text as it was loaded, with the code points in it that are no characters. -/
inductive LoadedText where
  | plain (t : Text)
  | points (codes : List Nat)
  deriving DecidableEq

namespace LoadedText

def value : LoadedText → Value
  | plain t => .text t
  | points codes => .points codes

/-- One character for each code point. -/
def chars : LoadedText → Text
  | plain t => t
  | points codes => codes.map Text.pointChar

/-- The text as paths and messages have it. -/
def shown : LoadedText → Text
  | plain t => t
  | points codes => Text.ofPoints codes

end LoadedText

structure Settings where
  libsDir : LoadedText := .plain "src/libs"
  tablesDir : LoadedText := .plain "src/tables"
  moduleExtensions : List LoadedText := [.plain ".py", .plain ".apy"]
  moduleIndexTtl : Int := 3000
  importListTtl : Int := 5000
  classBodyIndent : Int := 4
  maxDefLines : Int := 20
  maxFileSize : Int := 10485760
  watchLibraries : Bool := true
  deriving DecidableEq

inductive SettingKey where
  | libsDir
  | tablesDir
  | moduleExtensions
  | moduleIndexTtl
  | importListTtl
  | classBodyIndent
  | maxDefLines
  | maxFileSize
  | watchLibraries
  deriving DecidableEq

namespace SettingKey

def all : List SettingKey :=
  [libsDir, tablesDir, moduleExtensions, moduleIndexTtl, importListTtl, classBodyIndent,
    maxDefLines, maxFileSize, watchLibraries]

/-- The name of a setting in a settings file. -/
def name : SettingKey → Text
  | libsDir => "libs_dir"
  | tablesDir => "tables_dir"
  | moduleExtensions => "module_extensions"
  | moduleIndexTtl => "module_index_ttl_ms"
  | importListTtl => "import_list_ttl_ms"
  | classBodyIndent => "class_body_indent"
  | maxDefLines => "max_def_lines"
  | maxFileSize => "max_file_size_bytes"
  | watchLibraries => "watch_libraries"

/-- The setting that a key of a mapping names. -/
def ofValue? : Value → Option SettingKey
  | .text t => all.find? fun k => k.name = t
  | _ => none

end SettingKey

def text? : Value → Option LoadedText
  | .text t => some (.plain t)
  | .points codes => some (.points codes)
  | _ => none

/-- A text that is a dot and more. -/
def extension? (v : Value) : Option LoadedText :=
  (text? v).filter fun e => e.chars.length > 1 && e.chars.head? = some '.'

/-- The two extensions of a value that lists nothing else. -/
def extensions? : Value → Option (List LoadedText)
  | .list [a, b] => do return [← extension? a, ← extension? b]
  | _ => none

/-- A text that is not blank. -/
def folder? (v : Value) : Option LoadedText := (text? v).filter fun t => !Text.isBlankText t.chars

def positive? : Value → Option Int
  | .int n => if 0 < n then some n else none
  | _ => none

def flag? : Value → Option Bool
  | .bool b => some b
  | _ => none

namespace Settings

/-- The settings with a new value for one key, if the value is accepted. -/
def assign? (s : Settings) (v : Value) : SettingKey → Option Settings
  | .libsDir => (folder? v).map fun t => { s with libsDir := t }
  | .tablesDir => (folder? v).map fun t => { s with tablesDir := t }
  | .moduleExtensions => (extensions? v).map fun es => { s with moduleExtensions := es }
  | .moduleIndexTtl => (positive? v).map fun n => { s with moduleIndexTtl := n }
  | .importListTtl => (positive? v).map fun n => { s with importListTtl := n }
  | .classBodyIndent => (positive? v).map fun n => { s with classBodyIndent := n }
  | .maxDefLines => (positive? v).map fun n => { s with maxDefLines := n }
  | .maxFileSize => (positive? v).map fun n => { s with maxFileSize := n }
  | .watchLibraries => (flag? v).map fun b => { s with watchLibraries := b }

def value (s : Settings) : SettingKey → Value
  | .libsDir => s.libsDir.value
  | .tablesDir => s.tablesDir.value
  | .moduleExtensions => .list (s.moduleExtensions.map LoadedText.value)
  | .moduleIndexTtl => .int s.moduleIndexTtl
  | .importListTtl => .int s.importListTtl
  | .classBodyIndent => .int s.classBodyIndent
  | .maxDefLines => .int s.maxDefLines
  | .maxFileSize => .int s.maxFileSize
  | .watchLibraries => .bool s.watchLibraries

end Settings
end EditorInsight
