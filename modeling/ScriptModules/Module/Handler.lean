import ScriptModules.Path.Names

/-!
# Handlers

How the file of a module becomes its exports depends on the suffix of its name.  A registry lists
suffixes with handlers; what has no handler of its own is handled as a source module.
-/

namespace ScriptModules

/-- What is done with the file of a module. -/
inductive Handler where
  /-- Runs the file as a program. -/
  | source
  /-- Reads the file as a JSON document. -/
  | data
  /-- Refuses the file. -/
  | nativeAddon
  /-- Does what is done with another path. -/
  | sameAs (path : Path)
  /-- Exports the text of the file. -/
  | verbatim
  /-- Takes the module out of the cache. -/
  | evict
  /-- Refuses every module, with this text and its identity. -/
  | reject (text : String)
  /-- Leaves the exports as they are. -/
  | idle
  deriving DecidableEq, Repr

/-- Suffixes with handlers, in the order of their registration. -/
structure Registry where
  handlers : List (String × Handler)
  deriving Inhabited

namespace Registry

/-- The suffix of source modules. -/
def sourceSuffix : String := ".js"

def empty : Registry := ⟨[]⟩

/-- Sets the handler of a suffix; one that has a handler keeps its place. -/
def register (registry : Registry) (suffix : String) (handler : Handler) : Registry :=
  if registry.handlers.any (·.1 = suffix) then
    ⟨registry.handlers.map fun entry => if entry.1 = suffix then (suffix, handler) else entry⟩
  else ⟨registry.handlers ++ [(suffix, handler)]⟩

/-- The handlers that are there from the start. -/
def standard : Registry :=
  ((empty.register sourceSuffix .source).register ".json" .data).register ".node" .nativeAddon

/-- The handler of a path: that of its suffix, or else that of source modules. -/
def handlerFor (registry : Registry) (path : Path) : Handler :=
  match path.extension?.bind fun suffix => registry.handlers.lookup suffix with
  | some handler => handler
  | none => (registry.handlers.lookup sourceSuffix).getD .source

/-- The suffixes, in the order of their registration. -/
def suffixes (registry : Registry) : List String := registry.handlers.map Prod.fst

/-- The handler that a handler stands for, unless they stand for each other in a circle. -/
def settle (registry : Registry) : Nat → Handler → Option Handler
  | 0, _ => none
  | fuel + 1, .sameAs path => settle registry fuel (registry.handlerFor path)
  | _ + 1, handler => some handler

end Registry
end ScriptModules
