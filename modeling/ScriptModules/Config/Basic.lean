import ScriptModules.Decimal.Word
import ScriptModules.Failure
import ScriptModules.Text.Blank
import ScriptModules.Text.Lowercase

/-!
# Configuration

What resolution can be told.  Every setting has a key; `Config.set` takes its value as text, and
`Config.setList` takes a list.  `Config.validate` refuses what resolution cannot work with.
-/

namespace ScriptModules

structure Config where
  /-- The name of the directories that hold packages. -/
  packageRoot : String
  /-- The name of the file that describes a package. -/
  descriptor : String
  /-- The environment variable with more directories to search. -/
  pathVariable : String
  /-- How many directories are visited on the way to the root. -/
  maxSearchDepth : Nat
  /-- The suffixes that are tried, in order. -/
  extensions : List String
  /-- Directories that are searched last. -/
  extraPaths : List Path
  /-- Are links kept in identities? -/
  preserveSymlinks : Bool
  /-- Are the builtin modules offered? -/
  builtins : Bool
  deriving DecidableEq

namespace Config

/-- The settings that hold where nothing is set. -/
def standard : Config where
  packageRoot := "node_modules"
  descriptor := "package.json"
  pathVariable := "NODE_PATH"
  maxSearchDepth := 100
  extensions := [".js", ".json", ".node"]
  extraPaths := []
  preserveSymlinks := false
  builtins := true

instance : Inhabited Config := ⟨standard⟩

/-- Reads a truth value. -/
def boolean (key text : String) : Except ConfigCause Bool :=
  match text with
  | "true" | "1" => .ok true
  | "false" | "0" => .ok false
  | _ => .error (.badBoolean key text)

/-- Sets a list. -/
def setList (config : Config) (key : String) (items : List String) : Except ConfigCause Config :=
  match key with
  | "extensions" => .ok { config with extensions := items }
  | "extra-paths" => .ok { config with extraPaths := items.map Path.mk }
  | _ => .error (.notAList key)

/-- The entries of a list of paths in one text, without blanks around them. -/
def listEntries (text : String) : List String :=
  (Text.split Path.delimiter text.toList).filterMap fun entry =>
    match Text.trim entry with
    | [] => none
    | entry => some (String.ofList entry)

/-- Sets a setting from its text. -/
def set (config : Config) (key text : String) : Except ConfigCause Config :=
  match key with
  | "package-root" => .ok { config with packageRoot := text }
  | "descriptor" => .ok { config with descriptor := text }
  | "path-env" => .ok { config with pathVariable := text }
  | "max-search-depth" =>
    match Decimal.word? text with
    | some depth => .ok { config with maxSearchDepth := depth }
    | none => .error (.badSearchDepth text)
  | "preserve-symlinks" => (boolean key text).map fun b => { config with preserveSymlinks := b }
  | "builtins" => (boolean key text).map fun b => { config with builtins := b }
  | "extensions" | "extra-paths" => config.setList key (listEntries text)
  | _ => .error (.unknownKey key)

/-- Can the suffix be told from the rest of a name? -/
def isExtension (extension : String) : Bool :=
  match extension.toList with
  | '.' :: _ :: _ => true
  | _ => false

/-- Refuses settings that resolution cannot work with. -/
def validate (config : Config) : Except ConfigCause Unit :=
  if config.packageRoot = "" then .error .emptyPackageRoot
  else if config.descriptor = "" then .error .emptyDescriptor
  else if config.maxSearchDepth = 0 then .error .zeroSearchDepth
  else match config.extensions.find? fun e => !isExtension e with
    | some extension => .error (.badExtension extension)
    | none => .ok ()

/-- What the names of environment variables that set something start with. -/
def variableLead : String := "TESSERA_"

/-- The key that an environment variable sets. -/
def keyOfVariable? (name : String) : Option String :=
  if variableLead.toList.isPrefixOf name.toList then
    some (String.ofList ((Text.lowercase (name.toList.drop variableLead.length)).map
      fun c => if c = '_' then '-' else c))
  else none

/-- Changes a configuration step by step up to the first refusal, and keeps what was changed before. -/
def applyAll {α : Type} (step : Config → α → Except ConfigCause Config) :
    Config → List α → Config × Option ConfigCause
  | config, [] => (config, none)
  | config, entry :: rest =>
    match step config entry with
    | .ok config => applyAll step config rest
    | .error cause => (config, some cause)

/-- Takes over what environment variables set, one by one. -/
def setVariables (config : Config) (environment : List (String × String)) :
    Config × Option ConfigCause :=
  applyAll (fun config (name, value) =>
    match keyOfVariable? name with
    | some key => config.set key value
    | none => .ok config) config environment

end Config
end ScriptModules
