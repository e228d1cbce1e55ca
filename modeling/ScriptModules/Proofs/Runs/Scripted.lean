import ScriptModules.Proofs.Runs.Rules

/-!
# The runs that scripts cause

Whatever a script does, it changes the module graph and says so in few ways: it loads modules, and it assigns
what a module exports.  All else that it does leaves the graph alone (`Machine.Agrees`).  `Run.Scripted` looks at
the runs of scripts (`steps_scripted`) from this side, so that what concerns modules alone is proved by induction
on it.
-/

namespace ScriptModules

/-- The second machine differs from the first one in nothing that concerns modules: the caches and which
loaders use them, the registries, the loads that go on, and what has happened. -/
structure Machine.Agrees (machine later : Machine) : Prop where
  caches : later.heap.caches = machine.heap.caches
  loaders : ∀ id, (later.loader id).cache = (machine.loader id).cache
  registries : later.registries = machine.registries
  loading : later.loading = machine.loading
  events : later.events = machine.events

namespace Run

/-- The runs that scripts cause. -/
inductive Scripted : {α : Type} → Run α → Prop
  | pure {α : Type} (a : α) : Scripted (Run.pure a)
  | fail {α : Type} (failure : Failure) : Scripted (Run.fail failure : Run α)
  | exhausted {α : Type} : Scripted (Run.exhausted : Run α)
  | bind {α β : Type} {run : Run α} {next : α → Run β} :
      Scripted run → (∀ a, Scripted (next a)) → Scripted (Run.bind run next)
  /-- A change that does not concern modules. -/
  | update {α : Type} {f : Machine → α × Machine} :
      (∀ machine, Machine.Agrees machine (f machine).2) → Scripted (Run.update f)
  | bracket {α σ : Type} {keep : Machine → σ} {enter : Machine → Machine} {leave : σ → Machine → Machine}
      {run : Run α} : (∀ machine, Machine.Agrees machine (enter machine)) →
      (∀ kept machine, Machine.Agrees machine (leave kept machine)) → Scripted run →
      Scripted (Run.bracket keep enter leave run)
  | note {event : Event} : event.isSign = true → Scripted (Run.note event)
  | assignExports (cache : CacheId) (id : Path) (exports : Value) :
      Scripted (Run.assignExports cache id exports)
  | catching {α : Type} {run : Run α} {handler : Failure → Run α} :
      Scripted run → (∀ failure, Scripted (handler failure)) → Scripted (Run.catching run handler)
  | ensuring {run last : Run Completion} :
      Scripted run → Scripted last → Scripted (Run.ensuring run last)
  /-- A call of a load function from a script. -/
  | refusing {α : Type} {run : Run α} : Scripted run →
      Scripted (Run.onFailure run fun failure => Run.note (.refused failure))
  | load {next : Steps} (loader : LoaderId) (id : Path) (parent : Option Path) :
      (∀ compiled scope, Scripted (next.runCompiled compiled scope)) →
      Scripted (next.load loader id parent)

namespace Scripted

variable {α : Type}

theorem read (f : Machine → α) : Scripted (Run.read f) :=
  .update fun _ => ⟨rfl, fun _ => rfl, rfl, rfl, rfl⟩

private theorem make {f : Heap → α × Heap} (h : ∀ heap, (f heap).2.caches = heap.caches) : Scripted (Run.make f) :=
  .update fun m => ⟨h m.heap, fun _ => rfl, rfl, rfl, rfl⟩

theorem ofExcept (result : Except Failure α) : Scripted (Run.ofExcept result) := by
  cases result with
  | ok a => exact .pure a
  | error failure => exact .fail failure

private theorem tryHeap {f : Heap → Except Failure Heap}
    (h : ∀ heap later, f heap = .ok later → later.caches = heap.caches) : Scripted (Run.tryHeap f) := by
  unfold Run.tryHeap
  refine .bind (.make fun heap => ?_) fun result => .ofExcept result
  cases hf : f heap with
  | ok later => exact h heap later hf
  | error failure => rfl

theorem newHost (host : Host) : Scripted (Run.newHost host) := by
  unfold Run.newHost
  exact .bind (.make fun _ => rfl) fun _ => .pure _

private theorem within {run : Run α} (environment : Environment) (h : Scripted run) :
    Scripted (Run.within environment run) := by
  unfold Run.within
  exact .bracket (fun _ => ⟨rfl, fun _ => rfl, rfl, rfl, rfl⟩) (fun _ _ => ⟨rfl, fun _ => rfl, rfl, rfl, rfl⟩) h

theorem of_plain {run : Run α} (h : run.Plain true) : Scripted run := by
  induction h with
  | pure a => exact .pure a
  | fail failure => exact .fail failure
  | bind _ _ ih ihn => exact .bind ih ihn
  | update h =>
    refine .update fun machine => ?_
    rw [(h machine).elsewhere]
    exact ⟨(h machine).heap.caches, fun _ => rfl, rfl, rfl, rfl⟩
  | note h => exact .note h
  | changeSite id f _ =>
    unfold Run.changeSite Run.change
    exact .update fun _ => ⟨rfl, fun _ => rfl, rfl, rfl, rfl⟩
  | assignExports cache id exports => exact .assignExports cache id exports

theorem resolve (loader : LoaderId) (specifier : String) (dir : Path) :
    Scripted (Run.resolve loader specifier dir) :=
  of_plain (.resolve loader specifier dir)

/-- What an engine has accepted runs as programs do. -/
theorem runCompiled {next : Steps} (h : ∀ body bindings, Scripted (next.runProgram body bindings))
    (compiled : Compiled) (scope : ModuleScope) : Scripted (next.runCompiled compiled scope) := by
  cases compiled with
  | program body => exact h body scope.bindings
  | foreign engine source => exact of_plain (.runForeign next engine source scope)

private theorem callFunction {next : Steps} {definition : Script.Function} {args : List Value}
    (h : Scripted (next.runFunction definition args)) (closure : Environment) :
    Scripted (next.callFunction definition closure args) := by
  unfold Steps.callFunction Steps.inCall
  refine .bind (.read _) fun depth => ?_
  split
  · exact .of_plain (.throwNamed _ _)
  · refine .bracket (fun _ => ⟨rfl, fun _ => rfl, rfl, rfl, rfl⟩)
      (fun _ _ => ⟨rfl, fun _ => rfl, rfl, rfl, rfl⟩) ?_
    exact .bind (.read _) fun heap => .bind (.make fun _ => rfl) fun scope => .within _ h

private theorem runProgram {next : Steps} {body : List Script.Statement} {bindings : List (String × Value)}
    (h : Scripted (next.runStatements body bindings)) : Scripted (next.runProgram body bindings) := by
  unfold Steps.runProgram
  refine .bind (.update fun _ => ⟨rfl, fun _ => rfl, rfl, rfl, rfl⟩) fun owner => ?_
  refine .bind (.of_plain .globals) fun global => ?_
  exact .bind (.make fun _ => rfl) fun outer => .bind (.make fun _ => rfl) fun inner => .within _ h

private theorem require {next : Steps} (h : ∀ body bindings, Scripted (next.runProgram body bindings))
    (loader : LoaderId)
    (specifier : String) (dir : Path) (parent : Option Path) :
    Scripted (next.require loader specifier dir parent) := by
  unfold Steps.require
  refine .bind (.resolve _ _ _) fun target => ?_
  cases target with
  | builtin name =>
    refine .bind (.read _) fun loader => ?_
    split
    · exact .pure _
    · exact .fail _
  | file id => exact .load _ _ _ (.runCompiled h)

private theorem callHost {next : Steps} {id : HostId} {args : List Value}
    (hf : ∀ definition, Scripted (next.runFunction definition args))
    (hp : ∀ body bindings, Scripted (next.runProgram body bindings)) : Scripted (next.callHost id args) := by
  unfold Steps.callHost
  refine .bind (.read _) fun heap => ?_
  cases heap.host id with
  | native name action => exact .of_plain (Plain.native action args).widen
  | embedded name respond => exact .of_plain (.reply _)
  | function definition closure properties => exact .callFunction (hf definition) closure
  | require loader dir parent =>
    exact .refusing (.bind (.of_plain (.specifierArgument args)) fun specifier => .require hp _ _ _ _)
  | module cache record => exact .fail _
  | cacheView cache => exact .fail _

end Scripted

/-- Runs that the rules make are caused by scripts, or their steps are used up. -/
theorem Alike.scripted {n : Nat} {α : Type} {run run' : Run α} (h : Alike Spent n run run') : Scripted run := by
  induction h with
  | part h => exact h ▸ .exhausted
  | plain h => exact .of_plain h.widen
  | bind _ _ ih ihn => exact .bind ih ihn
  | declareVariable name value? =>
    unfold Run.declareVariable
    exact .bind (.read _) fun environment => .make fun heap =>
      (Heap.sameButScopes_declareVariable _ _ _).caches
  | declareLexical name value mutable =>
    unfold Run.declareLexical
    exact .bind (.read _) fun environment => .tryHeap fun heap later h =>
      (Heap.sameButScopes_declareLexical h).caches
  | assign name value =>
    unfold Run.assign
    exact .bind (.read _) fun environment => .tryHeap fun heap later h =>
      (Heap.sameButScopes_assign h).caches
  | newFunction definition _ =>
    unfold Run.newFunction
    exact .bind (.make fun _ => rfl) fun properties => .bind (.read _) fun environment => .newHost _
  | inBlock _ ih =>
    unfold Run.inBlock
    exact .bracket (fun _ => ⟨rfl, fun _ => rfl, rfl, rfl, rfl⟩) (fun _ _ => ⟨rfl, fun _ => rfl, rfl, rfl, rfl⟩) ih
  | catching _ _ ih ihh => exact .catching ih ihh
  | ensuring _ _ ih ihl => exact .ensuring ih ihl
  | callHost id args _ _ ihf ihp => exact .callHost ihf fun body bindings => .runProgram (ihp body bindings)

end Run

namespace Steps

variable {next : Steps}

/-- What may be done inside of a rule is caused by scripts. -/
def Scripted (next : Steps) : Prop := ∃ next', ∀ n, next.Alike Run.Spent n next'

theorem Scripted.runProgram (h : next.Scripted) (body : List Script.Statement)
    (bindings : List (String × Value)) : Run.Scripted (next.runProgram body bindings) := by
  obtain ⟨next', h⟩ := h
  exact .runProgram ((h _).runStatements body (Nat.le_refl _) bindings).scripted

theorem Scripted.runCompiled (h : next.Scripted) (compiled : Compiled) (scope : ModuleScope) :
    Run.Scripted (next.runCompiled compiled scope) :=
  .runCompiled h.runProgram _ _

theorem Scripted.load (h : next.Scripted) (loader : LoaderId) (id : Path) (parent : Option Path) :
    Run.Scripted (next.load loader id parent) :=
  .load loader id parent h.runCompiled

theorem Scripted.require (h : next.Scripted) (loader : LoaderId) (specifier : String) (dir : Path)
    (parent : Option Path) : Run.Scripted (next.require loader specifier dir parent) :=
  .require h.runProgram loader specifier dir parent

theorem Scripted.callHost (h : next.Scripted) (id : HostId) (args : List Value) :
    Run.Scripted (next.callHost id args) := by
  obtain ⟨next', h⟩ := h
  exact (alike_callHost (n := 0) h id args).scripted

end Steps

/-- Whatever programs do is caused by scripts. -/
theorem steps_scripted (fuel : Nat) : (steps fuel).Scripted := ⟨_, steps_alike fuel⟩

end ScriptModules
