import ScriptModules.Json.Read
import ScriptModules.Machine.Property
import ScriptModules.Module.Resolution

/-!
# Native functions

What the functions do that scripts find among the globals, in the builtin modules and on their load
functions.  None of them calls back into a script.
-/

namespace ScriptModules.Run

/-! ## Console, JSON and errors -/

/-- Prints a line. -/
def print (stream : Stream) (args : List Value) : Run Value := do
  note (.printed stream ((← heap).consoleLine args))
  return .undefined

/-- Is the value a margin that asks for lines? -/
def asksForLines : Value → Bool
  | .number x => 1.0 ≤ x
  | .string s => s ≠ ""
  | _ => false

/-- Writes the first argument as JSON, in lines if the third one asks for them. -/
def writeJson (args : List Value) : Run Value := do
  let heap ← heap
  let value := args.headD .undefined
  if value = .undefined || heap.isCallable value then return .undefined
  let document := heap.toJson value
  if args[2]?.any asksForLines then return .string (document.writeIndented 0)
  else return .string document.write

/-- Throws an error object. -/
def throwNamed {α : Type} (name message : String) : Run α := do
  fail (.thrown (← make fun heap => heap.newError name message []))

/-- Reads the text of the first argument as JSON. -/
def readJson (args : List Value) : Run Value := do
  let heap ← heap
  let text := match args with
    | [] => ""
    | arg :: _ => heap.display arg
  match Json.parse text with
  | .ok document => make (Heap.ofJson document)
  | .error fault => throwNamed "SyntaxError" fault.message

/-- Makes an error object with the text of the first argument. -/
def makeError (name : String) (args : List Value) : Run Value := do
  let heap ← heap
  let message := match args with
    | [] | .undefined :: _ => ""
    | arg :: _ => heap.display arg
  make fun heap => heap.newError name message []

/-! ## Arguments -/

/-- An argument that has to be a path as text. -/
def textArgument (arg? : Option Value) : Run String := do
  match arg? with
  | some (.string text) => return text
  | some value => failType (.pathNotText (some ((← heap).kindOf value)))
  | none => failType (.pathNotText none)

/-- The specifier that a load function is called with. -/
def specifierArgument (args : List Value) : Run String := do
  match args with
  | .string text :: _ => return text
  | value :: _ => failType (.specifierNotText (some ((← heap).kindOf value)))
  | [] => failType (.specifierNotText none)

/-! ## Paths -/

/-- Works on paths as text. -/
def pathCall (call : PathCall) (siteId : SiteId) (args : List Value) : Run Value := do
  match call with
  | .join => return .string (Path.joinAll (← args.mapM fun arg => textArgument (some arg)))
  | .resolve =>
    let parts ← args.mapM fun arg => textArgument (some arg)
    return .string (Path.resolveAll (← site siteId).workingDirectory parts)
  | .normalize => return .string (Path.mk (← textArgument args[0]?)).normalize.text
  | .dirName => return .string (Path.dirName (← textArgument args[0]?))
  | .baseName =>
    let text ← textArgument args[0]?
    match (args[1]? : Option Value) with
    | some (.string suffix) => return .string (Path.baseNameWithout text suffix)
    | _ => return .string (Path.baseName text)
  | .extName => return .string (Path.extName (← textArgument args[0]?))
  | .isAbsolute => return .boolean (Path.mk (← textArgument args[0]?)).isAbsolute

/-! ## Files -/

/-- The path that the first argument is. -/
def fileArgument (siteId : SiteId) (args : List Value) : Run Path := do
  let text ← textArgument args[0]?
  return (Path.mk text).absolutize (← site siteId).workingDirectory

/-- Writes the text of a file. -/
def writeFile (siteId : SiteId) (path : Path) (text : String) : Run Unit := do
  let site ← ofExcept ((← site siteId).writeText path text)
  changeSite siteId fun _ => site

/-- Works on the files of a site. -/
def fileCall (call : FileCall) (siteId : SiteId) (args : List Value) : Run Value := do
  match call with
  | .read =>
    let path ← fileArgument siteId args
    return .string (← ofExcept ((← site siteId).readText path))
  | .write =>
    let path ← fileArgument siteId args
    match (args[1]? : Option Value) with
    | none => failType .missingData
    | some value =>
      writeFile siteId path ((← heap).display value)
      return .undefined
  | .exists_ =>
    match args with
    | .string _ :: _ => return .boolean ((← site siteId).existsAt (← fileArgument siteId args))
    | _ => return .boolean false
  | .list =>
    let path ← fileArgument siteId args
    newArray ((← ofExcept ((← site siteId).list path)).map Value.string)
  | .status =>
    let path ← fileArgument siteId args
    let site ← site siteId
    if !site.existsAt path then fail (.access path (Files.Fault.missing.message .memory))
    newObject [
      ("isFile", ← newHost (.native "isFile" (.constant (site.isFile path)))),
      ("isDirectory", ← newHost (.native "isDirectory" (.constant (site.isDirectory path))))]

/-! ## Resolution -/

/-- What resolution looks at from a loader. -/
def scene (loaderId : LoaderId) : Run Scene := do
  let loader ← loader loaderId
  return ⟨loader.config, (← site loader.site).view, loader.builtins⟩

/-- Runs a search, and lets the surroundings know of what it noted. -/
def search {α : Type} (search : Search α) : Run α := do
  let (result, noted) := search.run []
  noted.forM fun failure => note (.warned failure)
  return result

/-- The module that a specifier names when it is used in a directory. -/
def resolve (loaderId : LoaderId) (specifier : String) (dir : Path) : Run Target := do
  ofExcept (← search ((← scene loaderId).resolve specifier dir))

/-! ## All native functions -/

/-- What a native function does with its arguments. -/
def native (action : Native) (args : List Value) : Run Value := do
  match action with
  | .print stream => print stream args
  | .writeJson => writeJson args
  | .readJson => readJson args
  | .makeError name => makeError name args
  | .file call site => fileCall call site args
  | .path call site => pathCall call site args
  | .constant answer => return .boolean answer
  | .resolve loader dir =>
    return .string (← resolve loader (← specifierArgument args) dir).identity

/-- What a function of an embedding program answers. -/
def reply : Reply → Run Value
  | .value value => return value
  | .list items => newArray items
  | .text pieces => do
    let heap ← heap
    return .string (String.join (pieces.map fun piece => match piece with
      | .literal text => text
      | .shown value => heap.display value))
  | .thrown value => fail (.thrown value)

end ScriptModules.Run
