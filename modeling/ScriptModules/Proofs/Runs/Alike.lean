import ScriptModules.Proofs.Runs.Hosts

/-!
# Runs that are made alike

The rules make runs out of runs in few ways.  `Run.Alike` says of two runs that they are made in the same ways out
of parts that correspond to each other, so that what is to be known of all programs is proved by induction on it,
one case for each way.  With parts whose steps are used up on one side (`Run.Spent`) it compares runs with fewer
and with more steps.

The number bounds the size of the functions that a run can make, apart from those that are made in calls and loads.
-/

namespace ScriptModules

/-! ## What declarations do to the heap -/

/-- The second heap differs from the first one in its scopes only. -/
def Heap.SameButScopes (heap later : Heap) : Prop := later = { heap with scopes := later.scopes }

namespace Heap

variable {heap later : Heap}

theorem SameButScopes.caches (h : heap.SameButScopes later) : later.caches = heap.caches := by rw [h]

theorem SameButScopes.hosts (h : heap.SameButScopes later) : later.hosts = heap.hosts := by rw [h]

theorem sameButScopes_declareVariable (env : Environment) (name : String) (value? : Option Value) :
    heap.SameButScopes (heap.declareVariable env name value?) := by
  unfold declareVariable
  split <;> rfl

theorem sameButScopes_declareLexical {env : Environment} {name : String} {value : Value} {mutable : Bool}
    (h : heap.declareLexical env name value mutable = .ok later) : heap.SameButScopes later := by
  unfold declareLexical at h
  split at h
  · contradiction
  · rw [← Except.ok.inj h]
    rfl

theorem sameButScopes_assign {env : Environment} {name : String} {value : Value}
    (h : heap.assign env name value = .ok later) : heap.SameButScopes later := by
  unfold assign at h
  split at h
  · contradiction
  · split at h
    · rw [← Except.ok.inj h]
      rfl
    · contradiction

end Heap

/-! ## Runs -/

namespace Run

/-- Two runs that are made in the same ways, out of parts that correspond to each other. -/
inductive Alike (parts : (α : Type) → Run α → Run α → Prop) : Nat → {α : Type} → Run α → Run α → Prop
  | part {n : Nat} {α : Type} {run run' : Run α} : parts α run run' → Alike parts n run run'
  | plain {n : Nat} {α : Type} {run : Run α} : Plain false run → Alike parts n run run
  | bind {n : Nat} {α β : Type} {run run' : Run α} {next next' : α → Run β} :
      Alike parts n run run' → (∀ a, Alike parts n (next a) (next' a)) →
      Alike parts n (Run.bind run next) (Run.bind run' next')
  | declareVariable {n : Nat} (name : String) (value? : Option Value) :
      Alike parts n (Run.declareVariable name value?) (Run.declareVariable name value?)
  | declareLexical {n : Nat} (name : String) (value : Value) (mutable : Bool) :
      Alike parts n (Run.declareLexical name value mutable) (Run.declareLexical name value mutable)
  | assign {n : Nat} (name : String) (value : Value) :
      Alike parts n (Run.assign name value) (Run.assign name value)
  | newFunction {n : Nat} (definition : Script.Function) : sizeOf definition ≤ n →
      Alike parts n (Run.newFunction definition) (Run.newFunction definition)
  | inBlock {n : Nat} {α : Type} {run run' : Run α} : Alike parts n run run' →
      Alike parts n (Run.inBlock run) (Run.inBlock run')
  | catching {n : Nat} {α : Type} {run run' : Run α} {handler handler' : Failure → Run α} :
      Alike parts n run run' → (∀ failure, Alike parts n (handler failure) (handler' failure)) →
      Alike parts n (Run.catching run handler) (Run.catching run' handler')
  | ensuring {n : Nat} {run run' last last' : Run Completion} : Alike parts n run run' →
      Alike parts n last last' → Alike parts n (Run.ensuring run last) (Run.ensuring run' last')
  | callHost {n : Nat} {next next' : Steps} (id : HostId) (args : List Value) :
      (∀ definition, Alike parts (sizeOf definition) (next.runFunction definition args)
        (next'.runFunction definition args)) →
      (∀ body bindings, Alike parts (sizeOf body) (next.runStatements body bindings)
        (next'.runStatements body bindings)) →
      Alike parts n (next.callHost id args) (next'.callHost id args)

/-- The steps of the first run are used up. -/
def Spent (α : Type) (run _run' : Run α) : Prop := run = Run.exhausted

end Run

/-- What may be done inside of a rule is alike, for code that is smaller than the bound. -/
structure Steps.Alike (parts : (α : Type) → Run α → Run α → Prop) (n : Nat) (next next' : Steps) : Prop where
  execute : ∀ statement, sizeOf statement < n →
    Run.Alike parts n (next.execute statement) (next'.execute statement)
  evaluate : ∀ expression, sizeOf expression < n →
    Run.Alike parts n (next.evaluate expression) (next'.evaluate expression)
  call : ∀ id args, Run.Alike parts n (next.call id args) (next'.call id args)

end ScriptModules
