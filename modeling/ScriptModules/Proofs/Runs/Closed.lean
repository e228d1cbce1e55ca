import ScriptModules.Proofs.Runs.Outcome
import ScriptModules.Proofs.Runs.Rules

/-!
# What all runs keep

What is kept when runs are put together (`Run.Composed`) is kept by `catch` and `finally`.
A load runs the program of a module between a few changes of the caches.  So whatever is kept by the ways in which
it is made (`Run.Closed`) holds of loads and requests as soon as it holds of programs (`Run.Closed.load`,
`Run.Closed.require`).  What is kept by the rules too (`Run.Kept`) holds of all programs and requests
(`Run.Kept.steps_runProgram`, `Run.Kept.steps_require`).

It is told of pairs of runs, so that runs with fewer and with more steps can be compared.
-/

namespace ScriptModules

/-- The second machine differs from the first one only in what its caches and objects hold, in the loads that go on,
and in what has happened. -/
structure Machine.SameCode (machine later : Machine) : Prop where
  arrays : later.heap.arrays = machine.heap.arrays
  scopes : later.heap.scopes = machine.heap.scopes
  hosts : later.heap.hosts = machine.heap.hosts
  caches : later.heap.caches.size = machine.heap.caches.size
  elsewhere : later = { machine with heap := later.heap, loading := later.loading, events := later.events }

/-- The second machine differs from the first one only in its scopes and in how many programs were run. -/
def Machine.SameButScopes (machine later : Machine) : Prop :=
  later = { machine with heap := { machine.heap with scopes := later.heap.scopes }, runs := later.runs }

/-- Some text parses to these statements. -/
def Script.IsProgram (body : List Script.Statement) : Prop := ∃ source, Script.parse source = .ok body

/-- What an engine runs as a program was parsed. -/
theorem Engine.isProgram_of_compile {engine : Engine} {source name : String} {body : List Script.Statement}
    (h : engine.compile source name = .ok (.program body)) : Script.IsProgram body := by
  cases engine with
  | interpreter =>
    unfold Engine.compile compileProgram at h
    cases hp : Script.parse source with
    | error fault =>
      rw [hp] at h
      contradiction
    | ok program =>
      rw [hp] at h
      obtain rfl := Compiled.program.inj (Except.ok.inj h)
      exact ⟨source, hp⟩
  | foreign engine =>
    unfold Engine.compile at h
    dsimp only at h
    split at h
    · contradiction
    · cases Except.ok.inj h

namespace Run

/-- What is kept when runs are put together, some of which may change sites with `writes`. -/
structure Composed (writes : Bool) (related : {α : Type} → Run α → Run α → Prop) : Prop where
  plain {α : Type} {run : Run α} : Plain writes run → related run run
  note (event : Event) : related (Run.note event) (Run.note event)
  bind {α β : Type} {run run' : Run α} {next next' : α → Run β} :
    related run run' → (∀ a, related (next a) (next' a)) → related (Run.bind run next) (Run.bind run' next')
  attempt {α : Type} {run run' : Run α} : related run run' → related (Run.attempt run) (Run.attempt run')

namespace Composed

variable {α : Type} {writes : Bool} {related : {α : Type} → Run α → Run α → Prop} (h : Composed writes @related)

include h

theorem onFailure {run run' : Run α} {last last' : Failure → Run Unit} (hr : related run run')
    (hl : ∀ failure, related (last failure) (last' failure)) :
    related (Run.onFailure run last) (Run.onFailure run' last') := by
  refine h.bind (h.attempt hr) fun result => ?_
  cases result with
  | ok a => exact h.plain (.pure a)
  | error failure => exact h.bind (hl failure) fun _ => h.plain (.fail failure)

theorem catching {run run' : Run α} {handler handler' : Failure → Run α} (hr : related run run')
    (hh : ∀ failure, related (handler failure) (handler' failure)) :
    related (Run.catching run handler) (Run.catching run' handler') := by
  unfold Run.catching
  refine h.bind (h.plain (.read _)) fun since => h.bind (h.attempt hr) fun result => ?_
  cases result with
  | ok a => exact h.plain (.pure a)
  | error failure => exact h.bind (h.plain (.read _)) fun till => h.bind (h.note _) fun _ => hh failure

theorem ensuring {run run' last last' : Run Completion} (hr : related run run') (hl : related last last') :
    related (Run.ensuring run last) (Run.ensuring run' last') := by
  unfold Run.ensuring
  refine h.bind (h.plain (.read _)) fun since => h.bind (h.attempt hr) fun outcome => ?_
  refine h.bind (h.plain (.read _)) fun till => h.bind (h.onFailure hl fun _ => h.note _) fun ending => ?_
  cases ending with
  | normal value => exact h.plain (.ofExcept outcome)
  | returned value => exact h.bind (h.note _) fun _ => h.plain (.pure _)

/-- What goes on with a result needs to be looked at only if there is one. -/
theorem ofExcept_bind {β : Type} {result : Except Failure α} {next next' : α → Run β}
    (hn : ∀ a, result = .ok a → related (next a) (next' a)) :
    related (Run.bind (Run.ofExcept result) next) (Run.bind (Run.ofExcept result) next') := by
  cases result with
  | ok a =>
    rw [Run.ofExcept, Run.pure_bind, Run.pure_bind]
    exact hn a rfl
  | error failure =>
    rw [Run.ofExcept, Run.fail_bind, Run.fail_bind]
    exact h.plain (.fail failure)

end Composed

/-- What is kept by the ways in which loads are made of other runs, with these loaders. -/
structure Closed (writes : Bool) (loads : LoaderId → Prop) (related : {α : Type} → Run α → Run α → Prop) : Prop
    extends Composed writes related where
  exhausted {α : Type} : related (Run.exhausted : Run α) Run.exhausted
  change {α : Type} {f : Machine → α × Machine} :
    (∀ machine, Machine.SameCode machine (f machine).2) → related (Run.update f) (Run.update f)
  newRequire {loader : LoaderId} (dir : Path) (parent : Option Path) : loads loader →
    related (Run.newRequire loader dir parent) (Run.newRequire loader dir parent)

namespace Closed

variable {writes : Bool} {loads : LoaderId → Prop} {related : {α : Type} → Run α → Run α → Prop}
  (h : Closed writes loads @related)

include h

private theorem changeCache (cache : CacheId) (f : Cache → Cache) :
    related (Run.changeCache cache f) (Run.changeCache cache f) := by
  unfold Run.changeCache Run.changeHeap Run.make
  exact h.change fun _ => ⟨rfl, rfl, rfl, Array.size_modify, rfl⟩

/-! ## Files of modules -/

variable {next next' : Steps} (hp : ∀ body, Script.IsProgram body → ∀ bindings,
  related (next.runProgram body bindings) (next'.runProgram body bindings))

include hp

private theorem runCompiled {engine : Engine} {source name : String} {compiled : Compiled}
    (hc : engine.compile source name = .ok compiled) (scope : ModuleScope) :
    related (next.runCompiled compiled scope) (next'.runCompiled compiled scope) := by
  cases compiled with
  | program body => exact hp body (Engine.isProgram_of_compile hc) scope.bindings
  | foreign engine source => exact h.plain (.runForeign next engine source scope)

private theorem handle {loaderId : LoaderId} (hl : loads loaderId) (loader : Loader) (record : Record)
    (handler : Handler) :
    related (next.handle loaderId loader record handler) (next'.handle loaderId loader record handler) := by
  have hread {rest rest' : String → Run Unit} (hr : ∀ text, related (rest text) (rest' text)) :
      related (Run.bind (Run.site loader.site) fun files =>
          Run.bind (Run.ofExcept (files.readText record.filename)) rest)
        (Run.bind (Run.site loader.site) fun files =>
          Run.bind (Run.ofExcept (files.readText record.filename)) rest') :=
    h.bind (h.plain (.read _)) fun files => h.bind (h.plain (.ofExcept _)) hr
  cases handler with
  | source =>
    refine hread fun source => h.ofExcept_bind fun compiled hc => ?_
    refine h.bind (h.newRequire _ _ hl) fun require => h.bind (h.plain (.newHost rfl)) fun module => ?_
    refine h.bind (h.note _) fun _ => ?_
    exact h.bind (h.runCompiled hp hc _) fun _ => h.plain (.pure _)
  | data =>
    refine hread fun text => ?_
    split
    · refine h.plain (.bind (.make fun heap => (Heap.sameButData_ofJson _ heap).sameFrame) fun value => ?_)
      exact .bind (.assignExports _ _ _) fun _ => .pure _
    · exact h.plain (.fail _)
  | nativeAddon => exact h.plain (.fail _)
  | sameAs path => exact h.exhausted
  | verbatim => exact hread fun text => h.plain (.bind (.assignExports _ _ _) fun _ => .pure _)
  | evict => exact h.changeCache _ _
  | reject text => exact h.plain (.fail _)
  | idle => exact h.plain (.pure _)

private theorem handleFile {loaderId : LoaderId} (hl : loads loaderId) (loader : Loader) (record : Record) :
    related (next.handleFile loaderId loader record) (next'.handleFile loaderId loader record) := by
  unfold Steps.handleFile
  refine h.bind (h.plain (.read _)) fun registry => ?_
  split
  · exact h.handle hp hl _ _ _
  · exact h.exhausted

/-! ## Loads and requests -/

/-- What programs keep is kept by loads. -/
theorem load {loaderId : LoaderId} (hl : loads loaderId) (id : Path) (parent : Option Path) :
    related (next.load loaderId id parent) (next'.load loaderId id parent) := by
  have henter (cache : CacheId) : related (enter cache id parent) (enter cache id parent) := by
    refine h.change fun machine => ?_
    split
    · exact ⟨rfl, rfl, rfl, Array.size_modify, rfl⟩
    · exact ⟨rfl, rfl, rfl, Array.size_modify, rfl⟩
  have hroll (cache : CacheId) (failure : Failure) :
      related (rollBack cache id failure) (rollBack cache id failure) := by
    unfold Run.rollBack Run.change
    exact h.change fun machine => ⟨rfl, rfl, rfl, Array.size_modify, rfl⟩
  have hfinish (cache : CacheId) : related (finish cache id) (finish cache id) := by
    unfold Run.finish
    exact h.change fun machine => ⟨rfl, rfl, rfl, Array.size_modify, rfl⟩
  unfold Steps.load
  refine h.bind (h.plain (.read _)) fun loader => h.bind (henter _) fun entry => ?_
  cases entry with
  | present exports => exact h.plain (.pure _)
  | reserved record =>
    rw [Steps.conclude, Steps.conclude]
    exact h.bind (h.onFailure (h.handleFile hp hl _ _) (hroll _)) fun _ => hfinish _

theorem require {loaderId : LoaderId} (hl : loads loaderId) (specifier : String) (dir : Path) (parent : Option Path) :
    related (next.require loaderId specifier dir parent) (next'.require loaderId specifier dir parent) := by
  unfold Steps.require
  refine h.bind (h.plain (.resolve _ _ _)) fun target => ?_
  cases target with
  | builtin name =>
    refine h.plain (.bind (.read _) fun loader => ?_)
    split
    · exact .pure _
    · exact .fail _
  | file id => exact h.load hp hl _ _

theorem runSnippet {loaderId : LoaderId} (hl : loads loaderId) (source : String) (dir : Path) :
    related (next.runSnippet loaderId source dir) (next'.runSnippet loaderId source dir) := by
  unfold Steps.runSnippet
  refine h.bind (h.plain (.read _)) fun loader => h.bind (h.plain (.read _)) fun site => ?_
  refine h.ofExcept_bind fun compiled hc => h.bind (h.plain (.newObject _)) fun exports => ?_
  refine h.bind (h.plain (.newObject _)) fun module => h.bind (h.newRequire _ _ hl) fun require => ?_
  exact h.runCompiled hp hc _

/-- A call of a load function. -/
theorem refusing {loaderId : LoaderId} (hl : loads loaderId) (dir : Path) (parent : Option Path) (args : List Value) :
    related (Run.onFailure (do next.require loaderId (← specifierArgument args) dir parent)
        fun failure => Run.note (.refused failure))
      (Run.onFailure (do next'.require loaderId (← specifierArgument args) dir parent)
        fun failure => Run.note (.refused failure)) :=
  h.onFailure (h.bind (h.plain (.specifierArgument args)) fun _ => h.require hp hl _ _ _) fun _ => h.note _

end Closed

/-- Whatever is called, what it does is kept if that of functions and programs is. -/
theorem Closed.callHost {loads : LoaderId → Prop} {related : {α : Type} → Run α → Run α → Prop}
    (h : Closed true loads @related) (hl : ∀ loader, loads loader) {next next' : Steps} (id : HostId)
    (args : List Value) (hf : ∀ definition closure,
      related (next.callFunction definition closure args) (next'.callFunction definition closure args))
    (hp : ∀ body bindings, related (next.runProgram body bindings) (next'.runProgram body bindings)) :
    related (next.callHost id args) (next'.callHost id args) := by
  unfold Steps.callHost
  refine h.bind (h.plain (.read _)) fun heap => ?_
  cases heap.host id with
  | native name action => exact h.plain (Plain.native action args).widen
  | embedded name respond => exact h.plain (.reply _)
  | function definition closure properties => exact hf definition closure
  | require loader dir parent => exact h.refusing (fun body _ => hp body) (hl loader) dir parent args
  | module cache record => exact h.plain (.fail _)
  | cacheView cache => exact h.plain (.fail _)

/-! ## Rules -/

/-- What is kept by the rules of the language as well. -/
structure Kept (writes : Bool) (loads : LoaderId → Prop) (related : {α : Type} → Run α → Run α → Prop) : Prop
    extends Closed writes loads related where
  spent {α : Type} {run' : Run α} : related Run.exhausted run'
  scopes {α : Type} {f : Machine → α × Machine} :
    (∀ machine, Machine.SameButScopes machine (f machine).2) → related (Run.update f) (Run.update f)
  newFunction (definition : Script.Function) : related (Run.newFunction definition) (Run.newFunction definition)
  within {α : Type} {run run' : Run α} (environment : Environment) :
    related run run' → related (Run.within environment run) (Run.within environment run')
  inBlock {α : Type} {run run' : Run α} : related run run' → related (Run.inBlock run) (Run.inBlock run')
  inCall {α : Type} {run run' : Run α} : related run run' → related (Steps.inCall run) (Steps.inCall run')
  callHost {next next' : Steps} (id : HostId) (args : List Value) :
    (∀ definition closure,
      related (next.callFunction definition closure args) (next'.callFunction definition closure args)) →
    (∀ body bindings, related (next.runProgram body bindings) (next'.runProgram body bindings)) →
    related (next.callHost id args) (next'.callHost id args)

namespace Kept

variable {α : Type} {writes : Bool} {loads : LoaderId → Prop} {related : {α : Type} → Run α → Run α → Prop}
  (h : Kept writes loads @related)

include h

private theorem make {f : Heap → α × Heap} (hf : ∀ heap, Heap.SameButScopes heap (f heap).2) :
    related (Run.make f) (Run.make f) := by
  refine h.scopes fun machine => ?_
  change { machine with heap := (f machine.heap).2 } = _
  rw [hf machine.heap]

private theorem tryHeap {f : Heap → Except Failure Heap}
    (hf : ∀ heap later, f heap = .ok later → Heap.SameButScopes heap later) :
    related (Run.tryHeap f) (Run.tryHeap f) := by
  unfold Run.tryHeap
  refine h.bind (h.make fun heap => ?_) fun result => h.plain (.ofExcept result)
  cases hr : f heap with
  | ok later => exact hf heap later hr
  | error failure => exact rfl

private theorem callFunction {next next' : Steps} {definition : Script.Function} {args : List Value}
    (hf : related (next.runFunction definition args) (next'.runFunction definition args)) (closure : Environment) :
    related (next.callFunction definition closure args) (next'.callFunction definition closure args) := by
  unfold Steps.callFunction
  exact h.inCall (h.bind (h.plain (.read _)) fun heap => h.bind (h.make fun _ => rfl) fun scope => h.within _ hf)

private theorem runProgram {next next' : Steps} {body : List Script.Statement} {bindings : List (String × Value)}
    (hp : related (next.runStatements body bindings) (next'.runStatements body bindings)) :
    related (next.runProgram body bindings) (next'.runProgram body bindings) := by
  unfold Steps.runProgram
  refine h.bind (h.scopes fun _ => rfl) fun owner => h.bind (h.plain .globals) fun global => ?_
  exact h.bind (h.make fun _ => rfl) fun outer => h.bind (h.make fun _ => rfl) fun inner => h.within _ hp

/-- What is kept by the rules holds of all that they make. -/
theorem alike {n : Nat} {run run' : Run α} (ha : Alike Spent n run run') : related run run' := by
  induction ha with
  | part hs =>
    rw [show _ = Run.exhausted from hs]
    exact h.spent
  | plain hr => exact h.plain hr.of_false
  | bind _ _ ih ihn => exact h.bind ih ihn
  | declareVariable name value? =>
    unfold Run.declareVariable
    exact h.bind (h.plain (.read _)) fun environment => h.make fun heap =>
      Heap.sameButScopes_declareVariable environment name value?
  | declareLexical name value mutable =>
    unfold Run.declareLexical
    exact h.bind (h.plain (.read _)) fun environment => h.tryHeap fun _ _ => Heap.sameButScopes_declareLexical
  | assign name value =>
    unfold Run.assign
    exact h.bind (h.plain (.read _)) fun environment => h.tryHeap fun _ _ => Heap.sameButScopes_assign
  | newFunction definition _ => exact h.newFunction definition
  | inBlock _ ih => exact h.inBlock ih
  | catching _ _ ih ihh => exact h.catching ih ihh
  | ensuring _ _ ih ihl => exact h.ensuring ih ihl
  | callHost id args _ _ ihf ihp =>
    exact h.callHost id args (fun definition => h.callFunction (ihf definition))
      fun body bindings => h.runProgram (ihp body bindings)

/-- So it holds of programs. -/
theorem steps_runProgram (fuel : Nat) (body : List Script.Statement) (bindings : List (String × Value)) :
    related ((steps fuel).runProgram body bindings) ((steps (fuel + 1)).runProgram body bindings) :=
  h.runProgram (h.alike ((steps_alike fuel _).runStatements body (Nat.le_refl _) bindings))

/-- And of requests for modules. -/
theorem steps_require (fuel : Nat) {loader : LoaderId} (hl : loads loader) (specifier : String) (dir : Path)
    (parent : Option Path) :
    related ((steps fuel).require loader specifier dir parent)
      ((steps (fuel + 1)).require loader specifier dir parent) :=
  h.require (fun body _ => h.steps_runProgram fuel body) hl specifier dir parent

end Kept
end Run
end ScriptModules
