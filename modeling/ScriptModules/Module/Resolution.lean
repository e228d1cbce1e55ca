import ScriptModules.Json.Descriptor
import ScriptModules.Module.SearchPath
import ScriptModules.Value.Caught

/-!
# Resolution

Which module a specifier names.  A builtin module is found by its name; a path leads to a file, with or
without a suffix, or to a directory with a main file; all else is looked for in the search paths.  A
descriptor that cannot be read is noted and passed over.
-/

namespace ScriptModules

/-- What a specifier names. -/
inductive Target where
  | builtin (name : String)
  | file (id : Path)
  deriving DecidableEq, Repr

/-- The text that stands for the module. -/
def Target.identity : Target → String
  | builtin name => name
  | file id => id.text

/-- A search that notes the descriptors that it cannot read. -/
abbrev Search (α : Type) := StateM (List Failure) α

/-- What resolution looks at. -/
structure Scene where
  config : Config
  site : SiteView
  builtins : Keyed Value
  deriving Inhabited

namespace Scene

variable (scene : Scene)

/-- What may stand before the name of a builtin module. -/
def builtinLead : List Char := ['n', 'o', 'd', 'e', ':']

/-- The builtin module that a specifier names. -/
def builtinName? (specifier : String) : Option String :=
  if scene.config.builtins then
    let name := if builtinLead.isPrefixOf specifier.toList then
        String.ofList (specifier.toList.drop builtinLead.length) else specifier
    if (scene.builtins.find? name).isSome then some name else none
  else none

/-- Appends a suffix to the text of a path. -/
def withSuffix (path : Path) (suffix : String) : Path := ⟨path.text ++ suffix⟩

/-- The paths that are tried for a file. -/
def fileCandidates (path : Path) : List Path :=
  path :: scene.config.extensions.map (withSuffix path)

/-- The path itself if it is a file, or else with the first suffix that makes it one. -/
def asFile? (path : Path) : Option Path := (scene.fileCandidates path).find? scene.site.isFile

/-- The main file that a descriptor names. -/
def mainOf (descriptor : Path) : Except Failure (Option String) :=
  match scene.site.readText descriptor with
  | .error failure => .error (.descriptor descriptor (Heap.empty.describe failure))
  | .ok text =>
    match Json.descriptorMain? text with
    | .error fault => .error (.descriptor descriptor fault.message)
    | .ok main? => .ok main?

/-- The main file of a directory: what its descriptor names, as a file or as a directory with an index
file, or else its index file. -/
def asDirectory? (dir : Path) : Search (Option Path) := do
  if !scene.site.isDirectory dir then return none
  let descriptor := dir.join ⟨scene.config.descriptor⟩
  let index := scene.asFile? (dir.join ⟨"index"⟩)
  if !scene.site.isFile descriptor then return index
  match scene.mainOf descriptor with
  | .error failure =>
    modify (· ++ [failure])
    return index
  | .ok none => return index
  | .ok (some main) =>
    let path := Path.resolveFrom dir ⟨main⟩
    return scene.asFile? path <|> scene.asFile? (path.join ⟨"index"⟩) <|> index

/-- The identity of a file: its canonical path, without links unless they are kept. -/
def identity (path : Path) : Path :=
  let path := path.normalize
  if scene.config.preserveSymlinks then path else (scene.site.realPath? path).getD path

/-- The identity of a path is its normal form, or the path that this leads to where links are followed. -/
theorem identity_eq (path : Path) : scene.identity path =
    if scene.config.preserveSymlinks then path.normalize
    else (scene.site.realPath? path.normalize).getD path.normalize := rfl

/-- The module that a path leads to. -/
def candidate? (path : Path) : Search (Option Path) := do
  match scene.asFile? path with
  | some hit => return some (scene.identity hit)
  | none => return (← scene.asDirectory? path).map scene.identity

/-- The module of the first of some paths that leads to one. -/
def firstCandidate? : List Path → Search (Option Path)
  | [] => return none
  | path :: paths => do
    match ← scene.candidate? path with
    | some id => return some id
    | none => firstCandidate? paths

/-- The module that a specifier names when it is used in a directory. -/
def resolve (specifier : String) (dir : Path) : Search (Except Failure Target) := do
  if specifier = "" then return .error (.type .emptySpecifier)
  if let some name := scene.builtinName? specifier then return .ok (.builtin name)
  let base := dir.absolutize scene.site.workingDirectory
  let found ← if Path.isPathSpecifier specifier then
      scene.candidate? (Path.resolveFrom base ⟨specifier⟩)
    else
      scene.firstCandidate? ((searchPaths scene.config scene.site base).map
        (Path.resolveFrom · ⟨specifier⟩))
  match found with
  | some id => return .ok (.file id)
  | none => return .error (.notFound specifier base)

end Scene
end ScriptModules
