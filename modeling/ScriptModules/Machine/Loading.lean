import ScriptModules.Machine.Evaluation

/-!
# Loading

How the module that a specifier names becomes a value.  A module is put into the cache before its file is
handled, so that modules that require each other meet each other's unfinished exports; one that fails is
taken out again.
-/

namespace ScriptModules

/-- What stands for the file of a snippet. -/
def snippetName : String := "[eval]"

/-- What a module body finds beside the globals. -/
structure ModuleScope where
  exports : Value
  require : Value
  module : Value
  filename : Path
  dirname : Path

/-- The names that a module body is run with. -/
def ModuleScope.bindings (scope : ModuleScope) : List (String × Value) :=
  [("exports", scope.exports), ("require", scope.require), ("module", scope.module),
    ("__filename", .string scope.filename.text), ("__dirname", .string scope.dirname.text)]

/-- A source text that an engine has accepted. -/
inductive Compiled where
  | program (body : List Script.Statement)
  | foreign (engine : ForeignEngine) (source : String)

/-- The program that a source text is; `name` stands for its file. -/
def compileProgram (source name : String) : Except Failure (List Script.Statement) :=
  (Script.parse source).mapError fun fault =>
    .source name (fault.line source) (.syntactic fault.cause)

/-- What an engine makes of a source text. -/
def Engine.compile (engine : Engine) (source name : String) : Except Failure Compiled :=
  match engine with
  | .interpreter => (compileProgram source name).map Compiled.program
  | .foreign engine =>
    match engine.refuse source with
    | some (line, text) => .error (.source name line (.other text))
    | none => .ok (.foreign engine source)

namespace Run

/-- Changes the cache of a loader. -/
def changeCache (cache : CacheId) (f : Cache → Cache) : Run Unit :=
  changeHeap (·.updateCache cache f)

/-- What a load finds: the exports of a module that is in the cache, or the record it has put in. -/
inductive Entry where
  | present (exports : Value)
  | reserved (record : Record)

/-- Notes that a module was required by its parent.  One that is not in the cache is put in with new
exports, and its load begins. -/
def enter (cache : CacheId) (id : Path) (parent : Option Path) : Run Entry := update fun m =>
  match (m.heap.cache cache).find? id with
  | some record =>
    (.present record.exports, { m with
      heap := m.heap.updateCache cache (·.link parent id)
      events := .found cache id parent record.exports :: m.events })
  | none =>
    let (object, heap) := m.heap.newObject []
    let exports : Value := .object object
    (.reserved (.unloaded id parent exports), { m with
      heap := heap.updateCache cache fun c => (c.reserve id parent exports).link parent id
      loading := (cache, id) :: m.loading
      events := .started cache id parent exports :: m.events })

/-- Ends the innermost load, of this module: it is loaded, and gives what it exports now. -/
def finish (cache : CacheId) (id : Path) : Run Value := update fun m =>
  let heap := m.heap.updateCache cache (·.markLoaded id)
  let exports := (((heap.cache cache).find? id).map Record.exports).getD .undefined
  (exports, { m with
    heap, loading := m.loading.tail, events := .finished cache id exports :: m.events })

/-- Ends the innermost load, of this module: it failed, and the module is taken out again. -/
def rollBack (cache : CacheId) (id : Path) (failure : Failure) : Run Unit := change fun m =>
  { m with
    heap := m.heap.updateCache cache (·.erase id)
    loading := m.loading.tail
    events := .failed cache id failure :: m.events }

/-- The load function of a directory. -/
def newRequire (loader : LoaderId) (dir : Path) (parent : Option Path) : Run Value :=
  newHost (.require loader dir parent)

/-- Sets entries of an object; other values take no notice. -/
def setEntries (target : Value) : List (String × Value) → Run Unit
  | [] => return ()
  | (key, value) :: rest => do
    if let .object id := target then changeHeap (·.setEntry id key value)
    setEntries target rest

/-- The text of a file without a mark of the byte order. -/
def withoutMark (text : String) : String :=
  match text.toList with
  | '\uFEFF' :: rest => String.ofList rest
  | _ => text

end Run

namespace Steps

open Run

variable (next : Steps)

/-- Runs what an engine has accepted. -/
def runCompiled (compiled : Compiled) (scope : ModuleScope) : Run Value := do
  match compiled with
  | .program body => next.runProgram body scope.bindings
  | .foreign engine source =>
    setEntries scope.exports (engine.sets source scope.dirname.text scope.filename.text)
    reply (engine.answer source scope.require)

/-- Runs the file of a module. -/
def loadSource (loaderId : LoaderId) (loader : Loader) (record : Record) : Run Unit := do
  let source ← ofExcept ((← site loader.site).readText record.filename)
  let compiled ← ofExcept (loader.engine.compile source record.filename.text)
  let scope : ModuleScope := {
    exports := record.exports
    require := ← newRequire loaderId record.dirname (some record.id)
    module := ← newHost (.module loader.cache record.id)
    filename := record.filename
    dirname := record.dirname }
  note (.entered loader.cache record.id scope.exports)
  let _ ← next.runCompiled compiled scope

/-- Does with the file of a module what its handler says. -/
def handle (loaderId : LoaderId) (loader : Loader) (record : Record) :
    Handler → Run Unit
  | .source => next.loadSource loaderId loader record
  | .data => do
    let text ← ofExcept ((← site loader.site).readText record.filename)
    match Json.parse (withoutMark text) with
    | .ok document =>
      let _ ← assignExports loader.cache record.id (← make (Heap.ofJson document))
    | .error fault => fail (.data record.filename fault)
  | .nativeAddon => fail (.nativeAddon record.filename)
  | .verbatim => do
    let text ← ofExcept ((← site loader.site).readText record.filename)
    let _ ← assignExports loader.cache record.id (.string text)
  | .evict => changeCache loader.cache (·.erase record.id)
  | .reject text => failType (.other (text ++ record.id.text))
  | .idle => return ()
  | .sameAs _ => exhausted

/-- Handles the file of a module by the handler of its suffix. -/
def handleFile (loaderId : LoaderId) (loader : Loader) (record : Record) : Run Unit := do
  let registry ← registry loader.registry
  match registry.settle (registry.handlers.length + 1) (registry.handlerFor record.id) with
  | some handler => next.handle loaderId loader record handler
  | none => exhausted

/-- Gives what a load has found, or handles the file of the record that it has put in. -/
def conclude (loaderId : LoaderId) (loader : Loader) (id : Path) : Entry → Run Value
  | .present exports => return exports
  | .reserved record => do
    onFailure (next.handleFile loaderId loader record) (rollBack loader.cache id)
    finish loader.cache id

/-- Loads a module unless it is in the cache, and gives its exports. -/
def load (loaderId : LoaderId) (id : Path) (parent : Option Path) : Run Value := do
  let loader ← loader loaderId
  next.conclude loaderId loader id (← enter loader.cache id parent)

/-- The exports of the module that a specifier names when it is used in a directory. -/
def require (loaderId : LoaderId) (specifier : String) (dir : Path) (parent : Option Path) :
    Run Value := do
  match ← resolve loaderId specifier dir with
  | .builtin name =>
    match (← loader loaderId).builtins.find? name with
    | some exports => return exports
    | none => fail (.notFound specifier dir)
  | .file id => next.load loaderId id parent

/-- Loads a module as the entry module; a failure leaves no entry module. -/
def runMain (loaderId : LoaderId) (path : Path) : Run Value := do
  let cwd := (← site (← loader loaderId).site).workingDirectory
  let specifier := (path.absolutize cwd).text
  match ← resolve loaderId specifier cwd with
  | .builtin _ => fail (.notFound specifier cwd)
  | .file id =>
    changeLoader loaderId fun loader => { loader with main := some id }
    onFailure (next.load loaderId id none) fun _ =>
      changeLoader loaderId fun loader => { loader with main := none }

/-- Runs a snippet as if it stood in a directory.  It does not come into the cache. -/
def runSnippet (loaderId : LoaderId) (source : String) (dir : Path) : Run Value := do
  let loader ← loader loaderId
  let dir := dir.absolutize (← site loader.site).workingDirectory
  let filename := dir.join ⟨snippetName⟩
  let compiled ← ofExcept (loader.engine.compile source snippetName)
  let exports ← newObject []
  let module ← newObject [("id", .string snippetName), ("filename", .string filename.text),
    ("exports", exports), ("loaded", .boolean false)]
  let require ← newRequire loaderId dir none
  next.runCompiled compiled { exports, require, module, filename, dirname := dir }

end Steps
end ScriptModules
