import ScriptModules.Proofs.Runs.Alike

/-!
# Who owns a scope

Each run of a program makes scopes of its own.  A machine is confined (`Machine.Confined`) when no function sees
scopes of two runs, and a change isolates the runs (`Machine.Isolates`) when it leaves the scopes of all runs alone
but of the one whose code makes it.
-/

namespace ScriptModules

/-- All scopes of the environment are there, and this run of a program has made them. -/
def Heap.Holds (heap : Heap) (run : Nat) (env : Environment) : Prop :=
  ∀ id ∈ env.scopes, ∃ scope, heap.scopes[id.index]? = some scope ∧ scope.owner = run

/-- Code of this run of a program is run.  Such code is always inside of some function scope, which has others
around it. -/
def Machine.Runs (machine : Machine) (run : Nat) : Prop :=
  machine.environment.outer ≠ [] ∧ machine.heap.Holds run machine.environment

/-- Every function sees the scopes of a single run, and those that have made scopes are counted. -/
structure Machine.Confined (machine : Machine) : Prop where
  functions : ∀ id definition closure properties,
    machine.heap.host id = .function definition closure properties → ∃ run, machine.heap.Holds run closure
  owners : ∀ (i : Nat) (scope : Scope), machine.heap.scopes[i]? = some scope → scope.owner < machine.runs

/-- What one change does to the scopes of runs. -/
structure Machine.Isolates (before after : Machine) : Prop where
  /-- A scope stays with its run, and only code of that run changes what it binds. -/
  scopes : ∀ (i : Nat) (scope : Scope), before.heap.scopes[i]? = some scope →
    ∃ later : Scope, after.heap.scopes[i]? = some later ∧ later.owner = scope.owner ∧
      (later = scope ∨ before.Runs scope.owner)
  /-- A new scope binds nothing yet, unless it is the first one of its run. -/
  fresh : ∀ (i : Nat) (scope : Scope), before.heap.scopes[i]? = none → after.heap.scopes[i]? = some scope →
    scope.bindings = [] ∨ ∀ (j : Nat) (other : Scope), before.heap.scopes[j]? = some other → other.owner ≠ scope.owner
  /-- A new function sees scopes of the run whose code makes it. -/
  functions : ∀ id definition closure properties,
    after.heap.host id = .function definition closure properties →
      before.heap.host id = .function definition closure properties ∨
        ∃ run, before.Runs run ∧ before.heap.Holds run closure
  /-- What code of other runs sees under a name stays what it is. -/
  lookup : ∀ run env name, before.heap.Holds run env → ¬before.Runs run →
    after.heap.lookup? env name = before.heap.lookup? env name

/-- Scopes are not lost, and stay with their runs. -/
def Heap.KeepsOwners (heap later : Heap) : Prop :=
  ∀ (i : Nat) (scope : Scope), heap.scopes[i]? = some scope →
    ∃ scope' : Scope, later.scopes[i]? = some scope' ∧ scope'.owner = scope.owner

namespace Heap

variable {heap later last : Heap} {run : Nat} {env : Environment}

theorem KeepsOwners.refl (heap : Heap) : heap.KeepsOwners heap := fun _ scope h => ⟨scope, h, rfl⟩

theorem KeepsOwners.trans (h : heap.KeepsOwners later) (h' : later.KeepsOwners last) : heap.KeepsOwners last := by
  intro i scope hs
  obtain ⟨middle, hm, ho⟩ := h i scope hs
  obtain ⟨scope', hs', ho'⟩ := h' i middle hm
  exact ⟨scope', hs', ho'.trans ho⟩

private theorem Holds.stays (h : heap.Holds run env) (hk : heap.KeepsOwners later) : later.Holds run env := by
  intro id hid
  obtain ⟨scope, hs, ho⟩ := h id hid
  obtain ⟨scope', hs', ho'⟩ := hk _ _ hs
  exact ⟨scope', hs', ho'.trans ho⟩

/-- Only one run can have made all of the scopes. -/
theorem Holds.owner (h : heap.Holds run env) {id : ScopeId} (hid : id ∈ env.scopes) :
    (heap.scope id).owner = run := by
  obtain ⟨scope, hs, ho⟩ := h id hid
  rw [Heap.scope, hs]
  exact ho

theorem function_mem_scopes (env : Environment) : env.function ∈ env.scopes := by
  simp [Environment.scopes]

private theorem innermost_mem_scopes (env : Environment) : env.innermost ∈ env.scopes := by
  unfold Environment.innermost Environment.scopes
  cases env.blocks <;> simp

/-! ## What declarations and assignments change -/

/-- The second heap has at most one more binding, in a scope that the environment shows. -/
def Binds (heap : Heap) (env : Environment) (later : Heap) : Prop :=
  later = heap ∨ ∃ id ∈ env.scopes, ∃ name binding, later = heap.bind id name binding

/-- A `var` declaration makes at most one binding, in the scope of the function. -/
theorem binds_declareVariable (env : Environment) (name : String) (value? : Option Value) :
    heap.Binds env (heap.declareVariable env name value?) := by
  unfold declareVariable
  split
  · exact .inr ⟨_, function_mem_scopes env, _, _, rfl⟩
  · exact .inl rfl
  · exact .inr ⟨_, function_mem_scopes env, _, _, rfl⟩

/-- A `let` or `const` declaration makes one binding, in the innermost scope. -/
theorem binds_declareLexical {name : String} {value : Value} {mutable : Bool}
    (h : heap.declareLexical env name value mutable = .ok later) : heap.Binds env later := by
  unfold declareLexical at h
  split at h
  · contradiction
  · exact .inr ⟨_, innermost_mem_scopes env, _, _, (Except.ok.inj h).symm⟩

private theorem mem_of_resolveName {scopes : List ScopeId} {name : String} {id : ScopeId} {binding : Binding}
    (h : heap.resolveName scopes name = some (id, binding)) : id ∈ scopes := by
  obtain ⟨_, hid, hb⟩ := List.exists_of_findSome?_eq_some h
  obtain ⟨_, _, he⟩ := Option.map_eq_some_iff.1 hb
  rwa [← (Prod.mk.inj he).1]

/-- An assignment binds a name anew in one of the scopes that can be seen. -/
theorem binds_assign {name : String} {value : Value} (h : heap.assign env name value = .ok later) :
    heap.Binds env later := by
  unfold assign at h
  split at h
  · contradiction
  · next id binding hr =>
    split at h
    · exact .inr ⟨id, mem_of_resolveName hr, _, _, (Except.ok.inj h).symm⟩
    · contradiction

/-- A scope that is not there cannot be bound in, and one that is stays where it is. -/
theorem scopes_bind (heap : Heap) (id : ScopeId) (name : String) (binding : Binding) (i : Nat) :
    (heap.bind id name binding).scopes[i]? =
      if id.index = i then (heap.scopes[i]?).map (·.bind name binding) else heap.scopes[i]? := by
  simp only [Heap.bind, Array.getElem?_modify]

theorem scopes_newScope (heap : Heap) (scope : Scope) (i : Nat) :
    (heap.newScope scope).2.scopes[i]? = if i = heap.scopes.size then some scope else heap.scopes[i]? := by
  simp only [newScope, Array.getElem?_push]

private theorem keepsOwners_newScope (heap : Heap) (scope : Scope) : heap.KeepsOwners (heap.newScope scope).2 := by
  intro i other ho
  refine ⟨other, ?_, rfl⟩
  rw [scopes_newScope, if_neg (Nat.ne_of_lt (Array.getElem?_eq_some_iff.1 ho).1)]
  exact ho

/-- A new scope is one of its run. -/
theorem holds_newScope (heap : Heap) (scope : Scope) :
    (heap.newScope scope).2.Holds scope.owner ⟨[], (heap.newScope scope).1, []⟩ := by
  intro id hid
  obtain rfl := List.mem_singleton.1 hid
  exact ⟨scope, by rw [scopes_newScope, newScope, if_pos rfl], rfl⟩

/-- A new scope of the same run may stand before the others. -/
theorem Holds.newScope (h : heap.Holds run env) (scope : Scope) (ho : scope.owner = run) {env' : Environment}
    (he : env'.scopes = ⟨heap.scopes.size⟩ :: env.scopes) : (heap.newScope scope).2.Holds run env' := by
  intro id hid
  rw [he] at hid
  rcases List.mem_cons.1 hid with rfl | hid
  · exact ⟨scope, by rw [scopes_newScope, if_pos rfl], ho⟩
  · exact h.stays (keepsOwners_newScope heap scope) id hid

/-! ## Lookups -/

/-- Names are looked up alike where the scopes are the same. -/
theorem lookup?_congr {name : String} (h : ∀ id ∈ env.scopes, later.scope id = heap.scope id) :
    later.lookup? env name = heap.lookup? env name := by
  have hresolve (scopes : List ScopeId) (h : ∀ id ∈ scopes, later.scope id = heap.scope id) :
      later.resolveName scopes name = heap.resolveName scopes name := by
    unfold resolveName
    induction scopes with
    | nil => rfl
    | cons id scopes ih =>
      rw [List.findSome?_cons, List.findSome?_cons, h id List.mem_cons_self,
        ih fun other ho => h other (List.mem_cons_of_mem _ ho)]
  rw [lookup?, lookup?, hresolve _ h]

end Heap

namespace Machine

variable {before after machine later : Machine} {run : Nat}

theorem Runs.stays (h : machine.Runs run) (he : later.environment = machine.environment)
    (hk : machine.heap.KeepsOwners later.heap) : later.Runs run := by
  refine ⟨by rw [he]; exact h.1, ?_⟩
  rw [he]
  exact h.2.stays hk

theorem Confined.of_heap_eq (h : machine.Confined) (hh : later.heap = machine.heap)
    (hr : machine.runs ≤ later.runs) : later.Confined := by
  refine ⟨fun id definition closure properties hf => ?_, fun i scope hs => ?_⟩
  · rw [hh] at hf ⊢
    exact h.functions id definition closure properties hf
  · rw [hh] at hs
    exact Nat.lt_of_lt_of_le (h.owners i scope hs) hr

/-- A run that has made scopes is counted. -/
theorem Confined.lt_runs (h : machine.Confined) {env : Environment} (hr : machine.heap.Holds run env) :
    run < machine.runs := by
  obtain ⟨scope, hs, rfl⟩ := hr _ (Heap.function_mem_scopes env)
  exact h.owners _ scope hs

namespace Isolates

/-- Changes that isolate runs do not lose scopes. -/
theorem keepsOwners (h : before.Isolates after) : before.heap.KeepsOwners after.heap := by
  intro i scope hs
  obtain ⟨later, hl, ho, _⟩ := h.scopes i scope hs
  exact ⟨later, hl, ho⟩

/-- A change that isolates runs keeps the machine confined, if it counts the runs. -/
theorem confined (h : before.Isolates after) (hb : before.Confined)
    (ho : ∀ (i : Nat) (scope : Scope), after.heap.scopes[i]? = some scope → scope.owner < after.runs) :
    after.Confined := by
  refine ⟨fun id definition closure properties hf => ?_, ho⟩
  rcases h.functions id definition closure properties hf with hf | ⟨run, _, hholds⟩
  · obtain ⟨run, hholds⟩ := hb.functions id definition closure properties hf
    exact ⟨run, hholds.stays h.keepsOwners⟩
  · exact ⟨run, hholds.stays h.keepsOwners⟩

/-- What is looked up by others stays the same because their scopes do. -/
theorem of_scopes
    (hs : ∀ (i : Nat) (scope : Scope), before.heap.scopes[i]? = some scope →
      ∃ later : Scope, after.heap.scopes[i]? = some later ∧ later.owner = scope.owner ∧
        (later = scope ∨ before.Runs scope.owner))
    (hn : ∀ (i : Nat) (scope : Scope), before.heap.scopes[i]? = none → after.heap.scopes[i]? = some scope →
      scope.bindings = [] ∨
        ∀ (j : Nat) (other : Scope), before.heap.scopes[j]? = some other → other.owner ≠ scope.owner)
    (hf : ∀ id definition closure properties,
      after.heap.host id = .function definition closure properties →
        before.heap.host id = .function definition closure properties ∨
          ∃ run, before.Runs run ∧ before.heap.Holds run closure) : before.Isolates after := by
  refine ⟨hs, hn, hf, fun run env name henv hrun => Heap.lookup?_congr fun id hid => ?_⟩
  obtain ⟨scope, hscope, rfl⟩ := henv id hid
  obtain ⟨later, hlater, _, hl⟩ := hs _ _ hscope
  rw [Heap.scope, Heap.scope, hscope, hlater, hl.resolve_right hrun]

/-- A change of other things. -/
theorem of_eq (hs : after.heap.scopes = before.heap.scopes)
    (hf : ∀ id definition closure properties,
      after.heap.host id = .function definition closure properties →
        before.heap.host id = .function definition closure properties ∨
          ∃ run, before.Runs run ∧ before.heap.Holds run closure) : before.Isolates after := by
  refine .of_scopes (fun i scope h => ⟨scope, by rwa [hs], rfl, .inl rfl⟩) (fun i scope h h' => ?_) hf
  rw [hs, h] at h'
  contradiction

theorem of_heap_eq (h : after.heap = before.heap) : before.Isolates after :=
  .of_eq (by rw [h]) fun id definition closure properties hf => .inl (by rwa [h] at hf)

/-- A new scope that binds nothing yet, or is the first one of its run. -/
theorem newScope {scope : Scope} (hh : after.heap = (before.heap.newScope scope).2)
    (hs : scope.bindings = [] ∨
      ∀ (j : Nat) (other : Scope), before.heap.scopes[j]? = some other → other.owner ≠ scope.owner) :
    before.Isolates after := by
  refine .of_scopes (fun i other ho => ⟨other, ?_, rfl, .inl rfl⟩) (fun i other hn ho => ?_)
    fun id definition closure properties hf => .inl (by rwa [hh] at hf)
  · rw [hh, Heap.scopes_newScope, if_neg (Nat.ne_of_lt (Array.getElem?_eq_some_iff.1 ho).1)]
    exact ho
  · rw [hh, Heap.scopes_newScope] at ho
    split at ho
    · obtain rfl := Option.some.inj ho
      exact hs
    · rw [hn] at ho
      contradiction

/-- A declaration or an assignment. -/
theorem binds (h : before.heap.Binds before.environment after.heap) (hr : before.Runs run) :
    before.Isolates after := by
  rcases h with h | ⟨id, hid, name, binding, h⟩
  · exact .of_heap_eq h
  · obtain ⟨scope, hscope, rfl⟩ := hr.2 id hid
    refine .of_scopes (fun i other ho => ?_) (fun i other hn ho => ?_)
      fun id definition closure properties hf => .inl (by rwa [h] at hf)
    · rw [h, Heap.scopes_bind]
      split
      · next hi =>
        obtain rfl := Option.some.inj ((hi ▸ hscope).symm.trans ho)
        exact ⟨scope.bind name binding, by rw [ho]; rfl, rfl, .inr hr⟩
      · exact ⟨other, ho, rfl, .inl rfl⟩
    · rw [h, Heap.scopes_bind, hn] at ho
      split at ho <;> contradiction

/-- A new host object.  Only a function matters, which sees what the code that makes it sees. -/
theorem newHost {host : Host} (hs : after.heap.scopes = before.heap.scopes)
    (hh : after.heap.hosts = before.heap.hosts.push host)
    (hf : ∀ definition closure properties, host = .function definition closure properties →
      ∃ run, before.Runs run ∧ before.heap.Holds run closure) : before.Isolates after := by
  refine .of_eq hs fun id definition closure properties hid => ?_
  rw [Heap.host, hh, Array.getElem?_push] at hid
  split at hid
  · exact .inr (hf definition closure properties hid)
  · exact .inl hid

end Isolates

/-- A change after which the same code goes on. -/
structure Keeps (before after : Machine) : Prop where
  isolates : before.Isolates after
  confined : after.Confined
  environment : after.environment = before.environment

namespace Keeps

/-- A change of what has no scopes. -/
theorem of_heap_eq (hb : before.Confined) (hh : after.heap = before.heap) (hr : before.runs ≤ after.runs)
    (he : after.environment = before.environment) : before.Keeps after :=
  ⟨.of_heap_eq hh, hb.of_heap_eq hh hr, he⟩

/-- A change that isolates runs, makes no scope and counts no run lets the same code go on. -/
theorem of_isolates (hb : before.Confined) (hi : before.Isolates after)
    (hs : after.heap.scopes = before.heap.scopes) (hr : after.runs = before.runs)
    (he : after.environment = before.environment) : before.Keeps after := by
  refine ⟨hi, hi.confined hb fun i scope h => ?_, he⟩
  rw [hs] at h
  rw [hr]
  exact hb.owners i scope h

/-- What does not concern scripts and modules does not concern scopes either. -/
theorem of_sameFrame (hb : before.Confined) (h : before.SameFrame after) : before.Keeps after := by
  rw [h.elsewhere]
  refine .of_isolates hb ?_ h.heap.scopes rfl rfl
  rcases h.heap.hosts with hh | ⟨host, hpassive, hh⟩
  · refine .of_eq h.heap.scopes fun id definition closure properties hf => .inl ?_
    rwa [Heap.host, hh] at hf
  · refine .newHost h.heap.scopes hh fun definition closure properties he => ?_
    rw [he] at hpassive
    contradiction

/-- A binding that the running code makes is one in a scope of its own run. -/
theorem binds (hb : before.Confined) (hr : before.Runs run) (h : before.heap.Binds before.environment after.heap)
    (hn : after.runs = before.runs) (he : after.environment = before.environment) : before.Keeps after := by
  have hi : before.Isolates after := .binds h hr
  refine ⟨hi, hi.confined hb fun i scope hs => ?_, he⟩
  rw [hn]
  rcases h with h | ⟨id, _, name, binding, h⟩
  · rw [h] at hs
    exact hb.owners i scope hs
  · rw [h, Heap.scopes_bind] at hs
    split at hs
    · obtain ⟨other, ho, rfl⟩ := Option.map_eq_some_iff.1 hs
      exact hb.owners i other ho
    · exact hb.owners i scope hs

/-- A new scope of a run that is counted. -/
theorem newScope (hb : before.Confined) {scope : Scope} (ho : scope.owner < before.runs)
    (hs : scope.bindings = [] ∨ ∀ (j : Nat) (other : Scope), before.heap.scopes[j]? = some other →
      other.owner ≠ scope.owner) :
    before.Keeps { before with heap := (before.heap.newScope scope).2 } := by
  have hi : before.Isolates { before with heap := (before.heap.newScope scope).2 } := .newScope rfl hs
  refine ⟨hi, hi.confined hb fun i other h => ?_, rfl⟩
  rw [Heap.scopes_newScope] at h
  split at h
  · exact Option.some.inj h ▸ ho
  · exact hb.owners i other h

/-- A new function of the code that is run. -/
theorem newFunction (hb : before.Confined) (hr : before.Runs run) (definition : Script.Function)
    (properties : ObjectId) : before.Keeps { before with
      heap := (before.heap.newHost (.function definition before.environment properties)).2 } := by
  refine .of_isolates hb (.newHost rfl rfl fun _ closure _ he => ?_) rfl rfl rfl
  obtain ⟨_, rfl, _⟩ := Host.function.inj he
  exact ⟨run, hr, hr.2⟩

end Keeps
end Machine
end ScriptModules
