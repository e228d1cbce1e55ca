import ScriptModules.Json.Fault
import ScriptModules.Path.Basic
import ScriptModules.Script.SyntaxFault
import ScriptModules.Value.Basic

/-!
# Failures

What can go wrong when modules are resolved, loaded and run.  A failure names its cause; an embedding
program may add causes in its own words.
-/

namespace ScriptModules

/-- A value was used in a way that its kind does not allow. -/
inductive TypeCause where
  | readOnly (property owner : String)
  | notCallable (callee : String)
  | notCached (id : Path)
  /-- A specifier is no text; `none` stands for a missing argument. -/
  | specifierNotText (received : Option String)
  | emptySpecifier
  /-- A path is no text; `none` stands for a missing argument. -/
  | pathNotText (received : Option String)
  | missingData
  | declaredTwice (name : String)
  | constantAssigned
  | arrayIndexTooLarge (index : Nat)
  | arrayGapTooLarge (index size : Nat)
  | arrayProperty (key : String)
  | readFromNothing (shown key : String)
  | writeToNothing (shown key : String)
  | other (text : String)
  deriving DecidableEq

private def received : Option String → String
  | some kind => "type " ++ kind
  | none => "undefined"

/-- The cause in words. -/
def TypeCause.message : TypeCause → String
  | readOnly property owner => "Cannot assign to read only property '" ++ property ++ "' of " ++ owner
  | notCallable callee => callee ++ " is not a function"
  | notCached id => "Module " ++ id.text ++ " is no longer cached"
  | specifierNotText kind => "The \"id\" argument must be of type string. Received " ++ received kind
  | emptySpecifier => "The argument 'id' must be a non-empty string"
  | pathNotText kind => "The \"path\" argument must be of type string. Received " ++ received kind
  | missingData => "The \"data\" argument must be of type string"
  | declaredTwice name => "Identifier '" ++ name ++ "' has already been declared"
  | constantAssigned => "Assignment to constant variable."
  | arrayIndexTooLarge index => "Invalid array index " ++ toString index
  | arrayGapTooLarge index size =>
    "Sparse array write at index " ++ toString index ++ " (length " ++ toString size ++ ")"
  | arrayProperty key => "Cannot set property '" ++ key ++ "' of an array"
  | readFromNothing shown key => "Cannot read properties of " ++ shown ++ " (reading '" ++ key ++ "')"
  | writeToNothing shown key => "Cannot set properties of " ++ shown ++ " (setting '" ++ key ++ "')"
  | other text => text

/-- A name or a target does not refer to anything. -/
inductive ReferenceCause where
  | undeclared (name : String)
  | invalidTarget
  | other (text : String)
  deriving DecidableEq

/-- The cause in words. -/
def ReferenceCause.message : ReferenceCause → String
  | undeclared name => name ++ " is not defined"
  | invalidTarget => "Invalid left-hand side in assignment"
  | other text => text

/-- A source text is no program. -/
inductive SourceCause where
  | syntactic (cause : Script.SyntaxCause)
  | other (text : String)
  deriving DecidableEq

/-- The cause in words. -/
def SourceCause.message : SourceCause → String
  | syntactic cause => cause.message
  | other text => text

/-- A setting cannot be used. -/
inductive ConfigCause where
  | emptyPackageRoot
  | emptyDescriptor
  | zeroSearchDepth
  | badExtension (extension : String)
  | badSearchDepth (text : String)
  | badBoolean (key text : String)
  | unknownKey (key : String)
  | notAList (key : String)
  | entryNotText (key entry : String)
  /-- A document does not have the form of a table, or not the fields of a configuration. -/
  | malformed (file : Option Path)
  | other (text : String)
  deriving DecidableEq

/-- The cause in words. -/
def ConfigCause.message : ConfigCause → String
  | emptyPackageRoot => "package-root must not be empty"
  | emptyDescriptor => "descriptor must not be empty"
  | zeroSearchDepth => "max-search-depth must be at least 1"
  | badExtension extension => "extension '" ++ extension ++ "' must start with a dot"
  | badSearchDepth text => "max-search-depth must be a number: " ++ text
  | badBoolean key text => key ++ " must be true or false: " ++ text
  | unknownKey key => "unknown key '" ++ key ++ "'"
  | notAList key => "'" ++ key ++ "' is not a list"
  | entryNotText key entry => key ++ " entries must be strings, found " ++ entry
  | malformed none => "TOML parse error"
  | malformed (some file) => file.text ++ ": TOML parse error"
  | other text => text

/-- What went wrong. -/
inductive Failure where
  /-- No file is found for a specifier that was resolved against a directory. -/
  | notFound (specifier : String) (base : Path)
  /-- A package descriptor cannot be read. -/
  | descriptor (path : Path) (reason : String)
  /-- The file system refuses an access. -/
  | access (path : Path) (reason : String)
  /-- A data module is no JSON document. -/
  | data (path : Path) (fault : Json.Fault)
  /-- A source module is no program. -/
  | source (filename : String) (line : Nat) (cause : SourceCause)
  /-- A script threw a value. -/
  | thrown (value : Value)
  | type (cause : TypeCause)
  | reference (cause : ReferenceCause)
  /-- Native addons can be resolved, but not loaded. -/
  | nativeAddon (path : Path)
  | config (cause : ConfigCause)
  deriving DecidableEq

/-- Is it a failure of resolution? -/
def Failure.isNotFound : Failure → Bool
  | notFound .. => true
  | _ => false

end ScriptModules
