import ScriptModules.Failure
import ScriptModules.Keyed
import ScriptModules.Module.Cache
import ScriptModules.Value.Host

/-!
# The heap

Everything that values refer to: arrays, plain objects, host objects, the scopes that functions close
over, and the module caches.  New places are added at the end, so a place once given out stays what it
was made for.
-/

namespace ScriptModules

structure Heap where
  arrays : Array (Array Value)
  objects : Array (Keyed Value)
  hosts : Array Host
  scopes : Array Scope
  caches : Array Cache

namespace Heap

def empty : Heap := ⟨#[], #[], #[], #[], #[]⟩

instance : Inhabited Heap := ⟨empty⟩

variable (heap : Heap)

/-! ## Arrays -/

/-- The items of an array. -/
def items (id : ArrayId) : Array Value := heap.arrays[id.index]?.getD #[]

/-- Makes an array. -/
def newArray (items : Array Value) : ArrayId × Heap :=
  (⟨heap.arrays.size⟩, { heap with arrays := heap.arrays.push items })

/-- The largest index of an array. -/
def lastArrayIndex : Nat := 4294967294

/-- How many places behind the end of an array one write may leave open. -/
def arrayGap : Nat := 65536

/-- The items after a write: past the end it fills the places in between with `undefined`. -/
def writtenItems (items : Array Value) (index : Nat) (value : Value) :
    Except TypeCause (Array Value) :=
  if h : index < items.size then .ok (items.set index value)
  else if lastArrayIndex < index then .error (.arrayIndexTooLarge index)
  else if arrayGap < index - items.size then .error (.arrayGapTooLarge index items.size)
  else .ok ((items ++ Array.replicate (index - items.size) Value.undefined).push value)

/-- Replaces the items of an array. -/
def setItems (id : ArrayId) (items : Array Value) : Heap :=
  { heap with arrays := heap.arrays.setIfInBounds id.index items }

/-- Writes an item of an array. -/
def writeItem (id : ArrayId) (index : Nat) (value : Value) : Except TypeCause Heap :=
  (writtenItems (heap.items id) index value).map (heap.setItems id)

/-- Appends an item to an array. -/
def pushItem (id : ArrayId) (value : Value) : Heap :=
  { heap with arrays := heap.arrays.modify id.index (·.push value) }

/-! ## Plain objects -/

/-- The entries of an object, in the order of their keys. -/
def entries (id : ObjectId) : Keyed Value := heap.objects[id.index]?.getD []

/-- Makes an object. -/
def newObject (entries : Keyed Value) : ObjectId × Heap :=
  (⟨heap.objects.size⟩, { heap with objects := heap.objects.push entries })

/-- Sets a property of an object. -/
def setEntry (id : ObjectId) (key : String) (value : Value) : Heap :=
  { heap with objects := heap.objects.modify id.index (·.insert key value) }

/-- Takes a property out of an object. -/
def eraseEntry (id : ObjectId) (key : String) : Heap :=
  { heap with objects := heap.objects.modify id.index (·.erase key) }

/-! ## Host objects -/

/-- A host object. -/
def host (id : HostId) : Host := heap.hosts[id.index]?.getD default

/-- Makes a host object. -/
def newHost (host : Host) : HostId × Heap :=
  (⟨heap.hosts.size⟩, { heap with hosts := heap.hosts.push host })

/-- The keys of a host object. -/
def hostKeys (id : HostId) : List String :=
  match heap.host id with
  | .native .. | .embedded .. => []
  | .function _ _ properties => (heap.entries properties).keys
  | .require .. => ["resolve", "cache", "main"]
  | .module .. => ["id", "filename", "loaded", "exports"]
  | .cacheView cache => (heap.caches[cache.index]?.getD Cache.empty).keys.map Path.text

/-- Can the value be called? -/
def isCallable : Value → Bool
  | .host id => (heap.host id).isCallable
  | _ => false

/-- The name of the kind of a value. -/
def kindOf : Value → String
  | .undefined => "undefined"
  | .null => "object"
  | .boolean _ => "boolean"
  | .number _ => "number"
  | .string _ => "string"
  | .array _ | .object _ => "object"
  | .host id => if (heap.host id).isCallable then "function" else "object"

/-! ## Scopes -/

/-- The bindings of a scope. -/
def scope (id : ScopeId) : Scope := heap.scopes[id.index]?.getD ⟨0, []⟩

/-- Makes a scope. -/
def newScope (scope : Scope) : ScopeId × Heap :=
  (⟨heap.scopes.size⟩, { heap with scopes := heap.scopes.push scope })

/-- Binds a name in a scope. -/
def bind (id : ScopeId) (name : String) (binding : Binding) : Heap :=
  { heap with scopes := heap.scopes.modify id.index (·.bind name binding) }

/-- The innermost of some scopes that binds a name, and the binding. -/
def resolveName (scopes : List ScopeId) (name : String) : Option (ScopeId × Binding) :=
  scopes.findSome? fun id => ((heap.scope id).find? name).map fun binding => (id, binding)

/-- The value of a name. -/
def lookup? (env : Environment) (name : String) : Option Value :=
  (heap.resolveName env.scopes name).map fun (_, binding) => binding.value

/-- Assigns to a name where it is bound. -/
def assign (env : Environment) (name : String) (value : Value) : Except Failure Heap :=
  match heap.resolveName env.scopes name with
  | none => .error (.reference (.undeclared name))
  | some (id, binding) =>
    if binding.mutable then .ok (heap.bind id name { binding with value })
    else .error (.type .constantAssigned)

/-- Declares a variable of the innermost function.  Without a value, one that exists keeps its own. -/
def declareVariable (env : Environment) (name : String) (value? : Option Value) : Heap :=
  match (heap.scope env.function).find? name, value? with
  | some binding, some value => heap.bind env.function name { binding with value }
  | some _, none => heap
  | none, _ => heap.bind env.function name ⟨value?.getD .undefined, true⟩

/-- Declares a name of the innermost scope.  It must be new there, unless that is the scope of the
globals. -/
def declareLexical (env : Environment) (name : String) (value : Value) (mutable : Bool) :
    Except Failure Heap :=
  if !env.isGlobal && ((heap.scope env.innermost).find? name).isSome then
    .error (.type (.declaredTwice name))
  else .ok (heap.bind env.innermost name ⟨value, mutable⟩)

/-! ## Module caches -/

/-- A cache. -/
def cache (id : CacheId) : Cache := heap.caches[id.index]?.getD Cache.empty

/-- Makes a cache. -/
def newCache (cache : Cache) : CacheId × Heap :=
  (⟨heap.caches.size⟩, { heap with caches := heap.caches.push cache })

/-- Changes a cache. -/
def updateCache (id : CacheId) (change : Cache → Cache) : Heap :=
  { heap with caches := heap.caches.modify id.index change }

end Heap
end ScriptModules
