import ScriptModules.Value.Basic

/-!
# Environments

An environment is the chain of the scopes that a piece of code sees: the blocks that have been entered,
the scope of the function around them, and all that lies outside it.  It refers to scopes, so a copy
sees later changes of the bindings that it shares, and none of the scopes that are entered later.
-/

namespace ScriptModules

/-- A name's value, and whether it may be assigned. -/
structure Binding where
  value : Value
  mutable : Bool
  deriving DecidableEq

/-- The bindings of one block or function, and the run of a program that made it. -/
structure Scope where
  owner : Nat
  bindings : List (String × Binding)

namespace Scope

/-- The binding of a name. -/
def find? (scope : Scope) (name : String) : Option Binding :=
  scope.bindings.lookup name

/-- Binds a name, or binds it anew. -/
def bind (scope : Scope) (name : String) (binding : Binding) : Scope :=
  { scope with bindings := (name, binding) :: scope.bindings.filter fun b => b.1 ≠ name }

end Scope

/-- The scopes that code sees, the innermost first in each list. -/
structure Environment where
  /-- The blocks inside the innermost function. -/
  blocks : List ScopeId
  /-- The scope that receives `var` declarations. -/
  function : ScopeId
  /-- What lies around the function. -/
  outer : List ScopeId
  deriving DecidableEq, Repr, Inhabited

namespace Environment

/-- All scopes, the innermost first. -/
def scopes (env : Environment) : List ScopeId := env.blocks ++ env.function :: env.outer

/-- The innermost scope. -/
def innermost (env : Environment) : ScopeId := env.blocks.headD env.function

/-- Enters a block. -/
def push (env : Environment) (scope : ScopeId) : Environment :=
  { env with blocks := scope :: env.blocks }

/-- Enters a function. -/
def pushFunction (env : Environment) (scope : ScopeId) : Environment :=
  ⟨[], scope, env.scopes⟩

/-- Leaves the innermost block; functions are not left this way. -/
def pop (env : Environment) : Environment := { env with blocks := env.blocks.tail }

/-- Is there nothing but the scope of the globals? -/
def isGlobal (env : Environment) : Bool := env.blocks.isEmpty && env.outer.isEmpty

@[simp] theorem scopes_push (env : Environment) (scope : ScopeId) :
    (env.push scope).scopes = scope :: env.scopes := rfl

@[simp] theorem scopes_pushFunction (env : Environment) (scope : ScopeId) :
    (env.pushFunction scope).scopes = scope :: env.scopes := rfl

end Environment
end ScriptModules
