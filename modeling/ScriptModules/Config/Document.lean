import ScriptModules.Config.Basic
import ScriptModules.Files.Site
import ScriptModules.Toml.Ordered

/-!
# Configuration documents

A configuration is read from a TOML document as a whole (`Config.ofDocument`), where every setting must
have its own kind of value, or a document is merged into one (`Config.merge`), where a value stands for
its text.  Merging goes by the order of the keys, stops at the first refusal, and keeps what was set
before.
-/

namespace ScriptModules

namespace Config

/-! ## Whole documents -/

/-- The text of a value. -/
def textOf? : Toml → Option String
  | .string s => some s
  | _ => none

/-- The word that a value is. -/
def wordOf? : Toml → Option Nat
  | .integer n => if 0 ≤ n then some n.toNat else none
  | _ => none

/-- The truth value that a value is. -/
def booleanOf? : Toml → Option Bool
  | .boolean b => some b
  | _ => none

/-- The texts of a list. -/
def textsOf? : Toml → Option (List String)
  | .array items => items.mapM textOf?
  | _ => none

/-- A setting of a document, if it has the right kind of value where it is set at all. -/
def setting {α : Type} (document : List (String × Toml)) (key : String) (read : Toml → Option α)
    (other : α) : Option α :=
  match document.lookup key with
  | none => some other
  | some value => read value

/-- The configuration that a table is; keys that no setting has do not count. -/
def ofTable? (document : List (String × Toml)) : Option Config := do
  let other := standard
  return {
    packageRoot := ← setting document "package-root" textOf? other.packageRoot
    descriptor := ← setting document "descriptor" textOf? other.descriptor
    pathVariable := ← setting document "path-env" textOf? other.pathVariable
    maxSearchDepth := ← setting document "max-search-depth" wordOf? other.maxSearchDepth
    extensions := ← setting document "extensions" textsOf? other.extensions
    extraPaths := ← setting document "extra-paths"
      (fun value => (textsOf? value).map (·.map Path.mk)) other.extraPaths
    preserveSymlinks := ← setting document "preserve-symlinks" booleanOf? other.preserveSymlinks
    builtins := ← setting document "builtins" booleanOf? other.builtins }

/-- The configuration that a document is, if resolution can work with it. -/
def ofDocument (text : String) : Except ConfigCause Config :=
  match (Toml.parse? text).bind ofTable? with
  | none => .error (.malformed none)
  | some config => do
    config.validate
    return config

/-! ## Merging -/

/-- The entry of a list as text. -/
def entryText (key : String) : Toml → Except ConfigCause String
  | .string s => .ok s
  | value => .error (.entryNotText key value.writeAlone)

/-- Sets a setting from a value of a document. -/
def setValue (config : Config) (key : String) : Toml → Except ConfigCause Config
  | .string s => config.set key s
  | .array items => do config.setList key (← items.mapM (entryText key))
  | value => config.set key value.writeAlone

/-- Merges a table. -/
def mergeTable (config : Config) (document : Keyed Toml) : Config × Option ConfigCause :=
  applyAll (fun config (key, value) => config.setValue key value) config document

/-- Merges the file at a path. -/
def mergeFile (config : Config) (site : Site) (path : Path) : Config × Option Failure :=
  match site.readText path with
  | .error failure => (config, some failure)
  | .ok text =>
    match Toml.parseOrdered? text with
    | none => (config, some (.config (.malformed (some path))))
    | some document =>
      let (config, cause?) := config.mergeTable document
      (config, cause?.map Failure.config)

/-! ## Default places -/

/-- The name of the file with the settings of a project. -/
def projectFile : String := "tessera.toml"

/-- Where the settings of a user are below the directory for them. -/
def userFile : String := "tessera/config.toml"

/-- Merges a file if there is one. -/
def mergeIfPresent (config : Config) (site : Site) (path : Path) : Except Failure Config :=
  if site.isFile path then
    match config.mergeFile site path with
    | (config, none) => .ok config
    | (_, some failure) => .error failure
  else .ok config

/-- The configuration of a site: the settings of the user, then those of the project, then those of
the environment. -/
def ofSite (site : Site) (userDirectory : Option Path) : Except Failure Config := do
  let config ← match userDirectory with
    | some dir => standard.mergeIfPresent site (dir.join ⟨userFile⟩)
    | none => .ok standard
  let config ← config.mergeIfPresent site (site.workingDirectory.join ⟨projectFile⟩)
  match config.setVariables site.environment with
  | (_, some cause) => .error (.config cause)
  | (config, none) =>
    (config.validate).mapError Failure.config
    return config

end Config
end ScriptModules
