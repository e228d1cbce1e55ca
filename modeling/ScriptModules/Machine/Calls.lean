import ScriptModules.Machine.Loading

/-!
# Calls, and all steps together

What a call of a host object does, and the steps that are closed under each other: `steps fuel` allows
`fuel` rules inside of each other.
-/

namespace ScriptModules

namespace Steps

open Run

/-- Calls a host object. -/
def callHost (next : Steps) (id : HostId) (args : List Value) : Run Value := do
  match (← heap).host id with
  | .native _ action => native action args
  | .embedded _ respond => reply (respond args)
  | .function definition closure _ => next.callFunction definition closure args
  | .require loader dir parent =>
    onFailure (do next.require loader (← specifierArgument args) dir parent) fun failure =>
      note (.refused failure)
  | host => failType (.notCallable host.className)

/-- No step at all. -/
def none : Steps := ⟨fun _ => exhausted, fun _ => exhausted, fun _ _ => exhausted⟩

end Steps

/-- The steps with at most `fuel` rules inside of each other. -/
def steps : Nat → Steps
  | 0 => .none
  | fuel + 1 => {
    execute := fun statement => (steps fuel).executeStatement statement
    evaluate := fun expression => (steps fuel).evaluateExpression expression
    call := fun id args => (steps fuel).callHost id args }

end ScriptModules
