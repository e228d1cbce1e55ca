import ScriptModules.Path.Basic
import ScriptModules.Script.Tree
import ScriptModules.Value.Environment

/-!
# Host objects

Objects whose properties and calls are not plain data: native functions, functions of an embedding
program, functions written in scripts, and the views of the loader that modules are given.
-/

namespace ScriptModules

/-- Where a line of output goes. -/
inductive Stream where
  | output
  | error
  deriving DecidableEq, Repr

/-- The functions of the builtin module for files. -/
inductive FileCall where
  | read | write | exists_ | list | status
  deriving DecidableEq, Repr

/-- The functions of the builtin module for paths. -/
inductive PathCall where
  | join | resolve | normalize | dirName | baseName | extName | isAbsolute
  deriving DecidableEq, Repr

/-- What a native function does. -/
inductive Native where
  /-- Prints its arguments on a line. -/
  | print (stream : Stream)
  /-- Writes a value as JSON. -/
  | writeJson
  /-- Reads a value from JSON. -/
  | readJson
  /-- Makes an error object. -/
  | makeError (name : String)
  /-- Works on the files of a site. -/
  | file (call : FileCall) (site : SiteId)
  /-- Works on paths as text. -/
  | path (call : PathCall) (site : SiteId)
  /-- Answers always the same. -/
  | constant (answer : Bool)
  /-- Resolves a specifier from a directory. -/
  | resolve (loader : LoaderId) (dir : Path)
  deriving Repr

/-- A piece of a text that an embedding program answers with. -/
inductive Piece where
  | literal (text : String)
  /-- The text of a value. -/
  | shown (value : Value)

/-- How a function of an embedding program answers a call. -/
inductive Reply where
  | value (v : Value)
  /-- A new array. -/
  | list (items : List Value)
  | text (pieces : List Piece)
  /-- Throws a value. -/
  | thrown (v : Value)

/-- An object that is more than data. -/
inductive Host where
  | native (name : String) (action : Native)
  /-- A function of an embedding program. -/
  | embedded (name : String) (respond : List Value → Reply)
  /-- A function written in a script, with the scopes around it and its own properties. -/
  | function (definition : Script.Function) (closure : Environment) (properties : ObjectId)
  /-- A load function bound to a directory and a parent module. -/
  | require (loader : LoaderId) (dir : Path) (parent : Option Path)
  /-- The view of one module record. -/
  | module (cache : CacheId) (id : Path)
  /-- The view of all module records. -/
  | cacheView (cache : CacheId)

instance : Inhabited Host := ⟨.native "" (.constant false)⟩

namespace Host

/-- The name that the object is printed under. -/
def className : Host → String
  | native name _ => name
  | embedded name _ => name
  | function definition _ _ => definition.name.getD "anonymous"
  | require .. => "require"
  | module .. => "Module"
  | cacheView _ => "ModuleCache"

/-- Can the object be called? -/
def isCallable : Host → Bool
  | native .. | embedded .. | function .. | require .. => true
  | module .. | cacheView _ => false

end Host
end ScriptModules
