/-!
# Values

What expressions evaluate to and modules export.  Arrays, objects and host objects are shared: a value
only refers to them, and two values are the same one when they refer to the same place.
-/

namespace ScriptModules

structure ArrayId where
  index : Nat
  deriving DecidableEq, Repr, Inhabited

structure ObjectId where
  index : Nat
  deriving DecidableEq, Repr, Inhabited

structure HostId where
  index : Nat
  deriving DecidableEq, Repr, Inhabited

structure ScopeId where
  index : Nat
  deriving DecidableEq, Repr, Inhabited

structure CacheId where
  index : Nat
  deriving DecidableEq, Repr, Inhabited

structure RegistryId where
  index : Nat
  deriving DecidableEq, Repr, Inhabited

structure SiteId where
  index : Nat
  deriving DecidableEq, Repr, Inhabited

structure LoaderId where
  index : Nat
  deriving DecidableEq, Repr, Inhabited

inductive Value where
  | undefined
  | null
  | boolean (value : Bool)
  | number (value : Float)
  | string (value : String)
  | array (id : ArrayId)
  | object (id : ObjectId)
  | host (id : HostId)
  deriving DecidableEq, Inhabited

namespace Value

/-- Is it `undefined` or `null`? -/
def isNullish : Value → Bool
  | undefined | null => true
  | _ => false

/-- Does the value count as true? -/
def truthy : Value → Bool
  | undefined | null => false
  | boolean b => b
  | number x => !x.isNaN && x != 0.0
  | string s => s != ""
  | array _ | object _ | host _ => true

/-- Equality without conversion; what is shared is compared by its place. -/
def strictEquals : Value → Value → Bool
  | undefined, undefined | null, null => true
  | boolean a, boolean b => a == b
  | number a, number b => a == b
  | string a, string b => a == b
  | array a, array b => a == b
  | object a, object b => a == b
  | host a, host b => a == b
  | _, _ => false

end Value
end ScriptModules
