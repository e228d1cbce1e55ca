import ScriptModules.Machine.Calls

/-!
# Embedding

What an embedding program does with the machine: it sets up sites and loaders, loads modules and runs
snippets, and calls what they export.  Loaders may share a cache or a registry of handlers.
-/

namespace ScriptModules

/-- How many rules may be inside of each other: more than any program can reach that is at all run to
its end. -/
def stepLimit : Nat := 1000000000

namespace Run

/-! ## Setting up -/

/-- A new site. -/
def newSite (site : Site) : Run SiteId := update fun m =>
  (⟨m.sites.size⟩, { m with sites := m.sites.push site })

/-- A new registry of handlers. -/
def newRegistry (registry : Registry) : Run RegistryId := update fun m =>
  (⟨m.registries.size⟩, { m with registries := m.registries.push registry })

/-- A new cache. -/
def newCache : Run CacheId := make fun heap => heap.newCache .empty

/-- The builtin modules of a site, if they are offered. -/
def builtins (config : Config) (site : SiteId) : Run (Keyed Value) := do
  if config.builtins then
    return Keyed.ofList [("fs", ← fileModule site), ("path", ← pathModule site)]
  else return []

/-- A new loader; the configuration must be one that resolution can work with. -/
def newLoader (config : Config) (engine : Engine) (site : SiteId) (cache? : Option CacheId)
    (registryId? : Option RegistryId) : Run LoaderId := do
  ofExcept (config.validate.mapError Failure.config)
  let cache ← match cache? with
    | some cache => pure cache
    | none => newCache
  let registry ← match registryId? with
    | some registry => pure registry
    | none => newRegistry .standard
  let builtins ← builtins config site
  update fun m => (⟨m.loaders.size⟩, { m with
    loaders := m.loaders.push { config, engine, site, cache, registry, builtins, main := none } })

/-- Offers a value as a builtin module. -/
def registerBuiltin (loader : LoaderId) (name : String) (exports : Value) : Run Unit :=
  changeLoader loader fun l => { l with builtins := l.builtins.insert name exports }

/-- Sets the handler of a suffix. -/
def registerHandler (id : RegistryId) (suffix : String) (handler : Handler) : Run Unit :=
  change fun m => { m with registries := m.registries.modify id.index (·.register suffix handler) }

/-! ## The cache -/

/-- Puts in a module with no exports yet. -/
def reserve (cache : CacheId) (id : Path) (parent : Option Path) : Run Unit := do
  let exports ← newObject []
  changeCache cache (·.reserve id parent exports)

/-- Notes in the cache that a module was required by its parent. -/
def addChild (cache : CacheId) (parent : Option Path) (child : Path) : Run Unit :=
  changeCache cache (·.link parent child)

/-! ## Running -/

/-- The exports of the module that a specifier names when it is used in a directory. -/
def require (loader : LoaderId) (specifier : String) (dir : Path) (parent : Option Path) :
    Run Value := (steps stepLimit).require loader specifier dir parent

/-- Loads a module as the entry module. -/
def runMain (loader : LoaderId) (path : Path) : Run Value := (steps stepLimit).runMain loader path

/-- Runs a snippet as if it stood in a directory. -/
def runSnippet (loader : LoaderId) (source : String) (dir : Path) : Run Value :=
  (steps stepLimit).runSnippet loader source dir

/-- Calls a host object. -/
def call (id : HostId) (args : List Value) : Run Value := (steps stepLimit).callHost id args

/-- Runs a program with some bindings in scopes of its own. -/
def runProgram (body : List Script.Statement) (bindings : List (String × Value)) : Run Value :=
  (steps stepLimit).runProgram body bindings

end Run

/-- A machine with one site, and a loader that works on it with the handlers that are there from the start. -/
def Machine.ofSite (site : Site) : Machine :=
  ((do Run.newLoader .standard .interpreter (← Run.newSite site) none none).apply .empty).2

/-! ## Requests -/

/-- What an embedding program asks for. -/
inductive Request where
  | require (loader : LoaderId) (specifier : String) (dir : Path) (parent : Option Path)
  | runMain (loader : LoaderId) (path : Path)
  | snippet (loader : LoaderId) (source : String) (dir : Path)
  /-- Runs a program with some bindings. -/
  | program (body : List Script.Statement) (bindings : List (String × Value))
  /-- Calls a value that a module has exported. -/
  | call (id : HostId) (args : List Value)
  /-- Changes the files of a site. -/
  | edit (site : SiteId) (change : Site → Site)

namespace Run

/-- Serves a request, with at most `fuel` rules inside of each other. -/
def serve (fuel : Nat) : Request → Run Value
  | .require loader specifier dir parent => (steps fuel).require loader specifier dir parent
  | .runMain loader path => (steps fuel).runMain loader path
  | .snippet loader source dir => (steps fuel).runSnippet loader source dir
  | .program body bindings => (steps fuel).runProgram body bindings
  | .call id args => (steps fuel).callHost id args
  | .edit site change => do
    changeSite site change
    return .undefined

/-- Serves requests one after the other, whether they fail or not. -/
def serveAll (fuel : Nat) : List Request → Run Unit
  | [] => return ()
  | request :: requests => do
    let _ ← attempt (serve fuel request)
    serveAll fuel requests

end Run
end ScriptModules
