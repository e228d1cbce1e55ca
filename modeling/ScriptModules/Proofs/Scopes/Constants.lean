import ScriptModules.Proofs.Scopes.Blocks

/-!
# Constants

Whatever an embedding program asks for, a constant stays what it is until a variable of the same name is declared
with another value in the function whose scope it is bound in; assignments and other declarations fail.  The scope of
a block is never that of a function, so constants of blocks stay what they are for ever, and so do the names that
function expressions give themselves (`Run.keepsConstants_of_serveAll`).
-/

namespace ScriptModules

/-- A constant, and a variable of the same name. -/
def Script.redeclared : List Statement :=
  [.declare .const_ [("x", some (.string "a"))], .declare .var_ [("x", some (.string "b"))]]

/-- A module that exports a function which assigns to its own name, and that assigns to a constant. -/
def Site.constants : Site :=
  .ofFiles [("/a", "const x = 'a'; exports.f = function g() \x7b g = x; return g \x7d; x = 'b'")]

/-- The machine runs no code, and the scopes that functions see are told apart. -/
structure Machine.Rests (machine : Machine) : Prop where
  outside : machine.environment.isGlobal = true
  sorted : ∃ isBlock, machine.Sorted isBlock

/-- The scope is that of a block, for the code that is run or for a function. -/
def Machine.SeesBlock (machine : Machine) (id : ScopeId) : Prop :=
  id ∈ machine.environment.blocks ∨ ∃ host definition closure properties,
    machine.heap.host host = .function definition closure properties ∧ id ∈ closure.blocks

/-- What the changes of a run leave of the constants that there are at this moment, and what becomes of attempts to
change them. -/
structure Machine.KeepsConstants (moves : Machine → Machine → Prop) (machine : Machine) : Prop where
  /-- A constant stays as long as no variable of its name is declared with another value in its function. -/
  stays : ∀ id name value, machine.heap.HoldsConstant id name value → ∀ later,
    Machine.Reaches (fun before after => moves before after ∧ ¬before.Redeclares after id name value) machine later →
      later.heap.HoldsConstant id name value
  /-- The constant of a block stays. -/
  blocks : ∀ id, machine.SeesBlock id → ∀ name value, machine.heap.HoldsConstant id name value → ∀ later,
    Machine.Reaches moves machine later → later.heap.HoldsConstant id name value
  /-- The declaration of a constant binds it in the innermost scope. -/
  declares : machine.environment.outer ≠ [] → ∀ name value? later,
    Steps.declare .const_ name value? machine = (.ok (), later) →
      later.heap.HoldsConstant machine.environment.innermost name (value?.getD .undefined)
  /-- There a name that is a constant cannot be declared again. -/
  refuses : machine.environment.outer ≠ [] → ∀ name value,
    machine.heap.HoldsConstant machine.environment.innermost name value → ∀ other mutable,
      Run.declareLexical name other mutable machine = (.failed (.type (.declaredTwice name)), machine)
  /-- Nor can a constant be assigned to. -/
  unassigned : ∀ id name value,
    machine.heap.resolveName machine.environment.scopes name = some (id, ⟨value, false⟩) → ∀ other,
      Run.assign name other machine = (.failed (.type .constantAssigned), machine)
  /-- But a variable can be declared, which gives the constant the other value. -/
  redeclares : ∀ name value, machine.heap.HoldsConstant machine.environment.function name value → ∀ other,
    other ≠ value → ∃ later, Run.declareVariable name (some other) machine = (.ok (), later) ∧
      machine.Redeclares later machine.environment.function name value ∧
        later.heap.HoldsConstant machine.environment.function name other
  /-- A function expression binds its name as a constant of a block which the function sees. -/
  names : ∀ definition name, definition.name = some name → ∃ id block later,
    Steps.evaluateFunction definition machine = (.ok (.host id), later) ∧ later.SeesBlock block ∧
      later.heap.HoldsConstant block name (.host id)

private theorem Environment.isGlobal_iff {env : Environment} :
    env.isGlobal = true ↔ env.blocks = [] ∧ env.outer = [] := by
  simp [Environment.isGlobal]

namespace Machine

variable {moves : Machine → Machine → Prop} {machine later : Machine} {isBlock : ScopeId → Bool} {id : ScopeId}
  {name : String} {value : Value}

/-! ## Runs -/

/-- What every change keeps of a constant, all of them keep. -/
theorem Reaches.holdsConstant (h : Reaches moves machine later) (hc : machine.heap.HoldsConstant id name value)
    (hm : ∀ before after, moves before after → before.heap.HoldsConstant id name value →
      after.heap.HoldsConstant id name value) : later.heap.HoldsConstant id name value := by
  induction h with
  | refl => exact hc
  | step _ h ih => exact hm _ _ h ih

/-- What code or a function sees as a block is the scope of a block. -/
theorem Sorted.isBlock_of_seesBlock (hs : machine.Sorted isBlock)
    (he : machine.environment.isGlobal = true ∨ machine.InCode isBlock) (h : machine.SeesBlock id) :
    isBlock id = true := by
  obtain hid | ⟨host, definition, closure, properties, hhost, hid⟩ := h
  · obtain hglobal | hcode := he
    · rw [(Environment.isGlobal_iff.1 hglobal).1] at hid
      contradiction
    · exact (hcode.sorts.blocks id hid).2
  · exact ((hs host definition closure properties hhost).blocks id hid).2

/-! ## Attempts -/

private theorem declareLexical_eq (name : String) (value : Value) (mutable : Bool) (machine : Machine) :
    Run.declareLexical name value mutable machine =
      Run.tryHeap (fun heap => heap.declareLexical machine.environment name value mutable) machine := rfl

private theorem assign_constant
    (h : machine.heap.resolveName machine.environment.scopes name = some (id, ⟨value, false⟩))
    (other : Value) : Run.assign name other machine = (.failed (.type .constantAssigned), machine) := by
  have hfails : machine.heap.assign machine.environment name other = .error (.type .constantAssigned) := by
    unfold Heap.assign
    rw [h]
    rfl
  have heq : Run.assign name other machine =
      Run.tryHeap (fun heap => heap.assign machine.environment name other) machine := rfl
  rw [heq, Run.tryHeap_error hfails]

private theorem declareLexical_constant (ho : machine.environment.outer ≠ [])
    (h : machine.heap.HoldsConstant machine.environment.innermost name value) (other : Value) (mutable : Bool) :
    Run.declareLexical name other mutable machine = (.failed (.type (.declaredTwice name)), machine) := by
  have hfails : machine.heap.declareLexical machine.environment name other mutable =
      .error (.type (.declaredTwice name)) := by
    unfold Heap.declareLexical
    rw [h]
    simp [Environment.isGlobal, ho]
  rw [declareLexical_eq, Run.tryHeap_error hfails]

private theorem declareLexical_new (h : (machine.heap.scope machine.environment.innermost).find? name = none)
    (mutable : Bool) :
    Run.declareLexical name value mutable machine =
      (.ok (), { machine with heap := machine.heap.bind machine.environment.innermost name ⟨value, mutable⟩ }) := by
  have hbound : machine.heap.declareLexical machine.environment name value mutable =
      .ok (machine.heap.bind machine.environment.innermost name ⟨value, mutable⟩) := by
    unfold Heap.declareLexical
    rw [h]
    simp
  rw [declareLexical_eq, Run.tryHeap_ok hbound]

private theorem holdsConstant_of_declare {value? : Option Value}
    (hlt : machine.environment.innermost.index < machine.heap.scopes.size)
    (h : Steps.declare .const_ name value? machine = (.ok (), later)) :
    later.heap.HoldsConstant machine.environment.innermost name (value?.getD .undefined) := by
  unfold Steps.declare at h
  rw [declareLexical_eq] at h
  cases hd : machine.heap.declareLexical machine.environment name (value?.getD .undefined) false with
  | error failure =>
    rw [Run.tryHeap_error hd] at h
    cases h
  | ok heap =>
    rw [Run.tryHeap_ok hd] at h
    obtain ⟨_, rfl⟩ := Prod.mk.inj h
    unfold Heap.declareLexical at hd
    split at hd
    · contradiction
    · rw [← Except.ok.inj hd]
      exact Heap.holdsConstant_bind hlt

private theorem redeclares_declareVariable (h : machine.heap.HoldsConstant machine.environment.function name value)
    {other : Value} (hne : other ≠ value) : ∃ later, Run.declareVariable name (some other) machine = (.ok (), later) ∧
      machine.Redeclares later machine.environment.function name value ∧
        later.heap.HoldsConstant machine.environment.function name other := by
  exact ⟨_, rfl, ⟨rfl, other, hne, rfl⟩, Heap.holdsConstant_declareVariable h other⟩

/-- A function expression with a name declares it in a block of its own. -/
theorem evaluateFunction_named {definition : Script.Function} (hname : definition.name = some name)
    (machine : Machine) :
    ∃ id block later, Steps.evaluateFunction definition machine = (.ok (.host id), later) ∧ later.SeesBlock block ∧
      later.heap.HoldsConstant block name (.host id) := by
  let block : ScopeId := ⟨machine.heap.scopes.size⟩
  let entered : Machine := { machine with
    heap := (machine.heap.newScope ⟨(machine.heap.scope machine.environment.function).owner, []⟩).2
    environment := machine.environment.push block }
  let properties : ObjectId := ⟨machine.heap.objects.size⟩
  let id : HostId := ⟨machine.heap.hosts.size⟩
  let function : Host := .function definition entered.environment properties
  let made : Machine := { entered with heap := ((entered.heap.newObject []).2.newHost function).2 }
  have hmade : Run.newFunction definition entered = (.ok (.host id), made) := rfl
  have hhost : made.heap.host id = function := by
    simp [made, id, entered, Heap.host, Heap.newHost, Heap.newObject, Heap.newScope]
  have hinnermost : made.environment.innermost = block := rfl
  have hempty : (made.heap.scope made.environment.innermost).find? name = none := by
    simp [hinnermost, made, entered, block, Heap.scope, Heap.newHost, Heap.newObject, Heap.newScope, Scope.find?]
  have hlt : block.index < made.heap.scopes.size :=
    Nat.lt_of_lt_of_eq (Nat.lt_succ_self _) (Array.size_push _).symm
  let bound : Machine := { made with heap := made.heap.bind block name ⟨.host id, false⟩ }
  have hdeclared : Run.declareLexical name (.host id) false made = (.ok (), bound) := by
    rw [declareLexical_new hempty, hinnermost]
  have hbody : Run.bind (Run.newFunction definition) (fun function => Run.bind (Run.declareLexical name function false)
      fun _ => Run.pure function) entered = (.ok (.host id), bound) := by
    rw [Run.bind_ok hmade, Run.bind_ok hdeclared]
    rfl
  refine ⟨id, block, { bound with environment := bound.environment.pop }, ?_, ?_, Heap.holdsConstant_bind hlt⟩
  · unfold Steps.evaluateFunction
    rw [hname]
    exact congrArg (fun ending : Outcome Value × Machine =>
      (ending.1, { ending.2 with environment := ending.2.environment.pop })) hbody
  · exact .inr ⟨id, definition, entered.environment, properties, hhost, List.mem_cons_self⟩

end Machine

/-! ## Requests -/

namespace Run

variable {inCode : Bool}

private theorem sorts_serveAll (fuel : Nat) (requests : List Request) : (serveAll fuel requests).Sorts inCode := by
  have hp (body : List Script.Statement) (bindings : List (String × Value)) :
      ((steps fuel).runProgram body bindings).Sorts inCode :=
    Steps.sorts_runProgram ((steps_alike fuel _).runStatements body (Nat.le_refl _) bindings).sorts
  have hc (id : HostId) (args : List Value) : ((steps fuel).callHost id args).Sorts inCode :=
    Steps.sorts_callHost (fun definition => ((steps_alike fuel _).runFunction definition (Nat.le_refl _) args).sorts) hp
  exact (Sorts.outside inCode).serveAll hp hc requests

end Run

private theorem Machine.rests_ofSite (site : Site) : (Machine.ofSite site).Rests := by
  have h := (Run.Sorts.outside false).setUp site
  obtain ⟨isBlock, hsorts⟩ := h .empty (fun _ => false) (fun id definition closure properties => nofun) nofun
  exact ⟨congrArg Environment.isGlobal hsorts.environment, isBlock, hsorts.sorted⟩

namespace Run

/-- While requests are served, a constant becomes another value only where a variable of its name is declared in the
function whose scope it is bound in.  All other attempts to change it fail, and a constant of a block never changes,
which the name of a function expression is. -/
theorem keepsConstants_of_serveAll (fuel : Nat) (requests : List Request) {machine : Machine} (hm : machine.Rests) :
    (∀ before after, (serveAll fuel requests).moves machine before after → ∀ id name value,
      before.heap.HoldsConstant id name value →
        (after.heap.HoldsConstant id name value ↔ ¬before.Redeclares after id name value)) ∧
    ∀ later, (serveAll fuel requests).passes machine later →
      later.KeepsConstants ((serveAll fuel requests).moves machine) := by
  obtain ⟨isBlock, hsorted⟩ := hm.sorted
  have hserved : (serveAll fuel requests).Sorts false := sorts_serveAll fuel requests
  obtain ⟨isBlock', h⟩ := hserved machine isBlock hsorted nofun
  have hrebinds (before after : Machine) (hmove : (serveAll fuel requests).moves machine before after) :
      before.Rebinds isBlock' after := (h.moves before after hmove).2
  refine ⟨fun before after hmove id name value hc => (hrebinds before after hmove).constant_iff hc, fun later hp => ?_⟩
  obtain ⟨_, hlater, henv⟩ := h.passes later hp
  have hcode : later.environment.isGlobal = true ∨ later.InCode isBlock' :=
    henv.imp (fun he => by rw [he]; exact hm.outside) id
  constructor
  · intro id name value hc last hr
    exact hr.holdsConstant hc fun before after hmove hb => ((hrebinds before after hmove.1).constant_iff hb).2 hmove.2
  · intro id hsees name value hc last hr
    have hblock := hlater.isBlock_of_seesBlock hcode hsees
    exact hr.holdsConstant hc fun before after hmove hb => (hrebinds before after hmove).constant_of_isBlock hb hblock
  · intro ho name value? last hd
    have hin := hcode.resolve_left fun hglobal => ho (Environment.isGlobal_iff.1 hglobal).2
    exact Machine.holdsConstant_of_declare hin.sorts.innermost_lt hd
  · exact fun ho name value hc other mutable => Machine.declareLexical_constant ho hc other mutable
  · exact fun id name value hr other => Machine.assign_constant hr other
  · exact fun name value hc other hne => Machine.redeclares_declareVariable hc hne
  · exact fun definition name hname => Machine.evaluateFunction_named hname later

/-- A constant and the name of a function expression, after the module that makes them has failed. -/
theorem keepsConstants_of_assigned :
    ∃ later, serveAll 30 [.require ⟨0⟩ "/a" ⟨"/"⟩ none] (.ofSite .constants) = (.ok (), later) ∧
      later.heap.HoldsConstant ⟨1⟩ "x" (.string "a") ∧ later.heap.HoldsConstant ⟨2⟩ "g" (.host ⟨24⟩) ∧
        later.KeepsConstants ((serveAll 30 [.require ⟨0⟩ "/a" ⟨"/"⟩ none]).moves (.ofSite .constants)) := by
  have hrun : (serveAll 30 [.require ⟨0⟩ "/a" ⟨"/"⟩ none] (.ofSite .constants)).1 = .ok () := by
    decide +kernel
  obtain ⟨_, hkeeps⟩ :=
    keepsConstants_of_serveAll 30 [.require ⟨0⟩ "/a" ⟨"/"⟩ none] (Machine.rests_ofSite .constants)
  refine ⟨_, Prod.ext hrun rfl, ?_, ?_, hkeeps _ (passes_end _ _)⟩
  · unfold Heap.HoldsConstant
    decide +kernel
  · unfold Heap.HoldsConstant
    decide +kernel

/-! ## Variables that are constants -/

variable {α β : Type} {machine : Machine} {P : Machine → Machine → Prop}

private theorem moves_first {run : Run α} {next : α → Run β}
    (h : ∀ before after, (Run.bind run next).moves machine before after → P before after) :
    ∀ before after, run.moves machine before after → P before after :=
  fun before after hm => h before after (.inl hm)

private theorem moves_next {run : Run α} {next : α → Run β} {a : α} {middle : Machine}
    (h : ∀ before after, (Run.bind run next).moves machine before after → P before after)
    (hr : run machine = (.ok a, middle)) : ∀ before after, (next a).moves middle before after → P before after :=
  fun before after hm => h before after (.inr ⟨a, middle, hr, hm⟩)

/-- A constant becomes another value when a variable of its name is declared beside it. -/
theorem not_always_constant :
    ¬∀ (fuel : Nat) (requests : List Request) (machine : Machine), machine.Rests → ∀ before after,
      (serveAll fuel requests).moves machine before after → ∀ id name value,
        before.heap.HoldsConstant id name value → after.heap.HoldsConstant id name value := by
  intro h
  have hserve := moves_first (h 3 [.program Script.redeclared []] _ (Machine.rests_ofSite .constants))
  have hprogram : ∀ before after, ((steps 3).runProgram Script.redeclared []).moves (.ofSite .constants) before after →
      ∀ id name value, before.heap.HoldsConstant id name value → after.heap.HoldsConstant id name value := hserve
  unfold Steps.runProgram at hprogram
  have hcounted := moves_next hprogram rfl
  obtain ⟨global, later, hg⟩ : ∃ global later, Run.globals { Machine.ofSite .constants with
      runs := (Machine.ofSite .constants).runs + 1 } = (.ok global, later) := ⟨_, _, rfl⟩
  have hscopes : later.heap.scopes = #[] := by
    have hkept := ((Plain.globals : Plain false globals).scopes_and_runs { Machine.ofSite .constants with
      runs := (Machine.ofSite .constants).runs + 1 }).1
    rw [hg] at hkept
    exact hkept.trans (Array.eq_empty_of_size_eq_zero (by decide +kernel))
  have hglobals := moves_next hcounted hg
  -- Only the scopes of the machine matter from here on, and there are none so far.
  obtain ⟨⟨arrays, objects, hosts, scopes, caches⟩, _⟩ := later
  obtain rfl : scopes = #[] := hscopes
  have houter := moves_next hglobals rfl
  have hinner := moves_next houter rfl
  have hentered := fun before after hm => hinner before after (.inr (.inl hm))
  have hbound := moves_next hentered rfl
  have hhoisted := moves_next (moves_first hbound) rfl
  have hdeclared := moves_next hhoisted rfl
  have hvalue := moves_next (moves_first (moves_first hdeclared)) rfl
  have hvariable := moves_next (moves_first hvalue) rfl
  have hkept := hvariable _ _ ⟨rfl, rfl⟩ ⟨1⟩ "x" (.string "a") rfl
  have hsame := (Binding.mk.inj (Option.some.inj hkept)).1
  contradiction

end Run
end ScriptModules
