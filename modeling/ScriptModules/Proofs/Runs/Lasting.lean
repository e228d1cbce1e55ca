import ScriptModules.Machine.Embedding
import ScriptModules.Proofs.Graph.Basic
import ScriptModules.Proofs.Runs.Scripted

/-!
# What lasts through loads

Of all that scripts do only loads and assignments of exports concern modules.  So a property of runs that is kept when
they are put together, and by loads as soon as what their modules do has it, holds of whatever scripts do
(`Run.Lasting.scripted`) and of requests (`Run.Lasting.serveAll`).  That it is kept by the handling of files follows
from a few of the ways in which runs are made (`Run.Handling.handleFile`).
-/

namespace ScriptModules

theorem Machine.Agrees.refl (machine : Machine) : machine.Agrees machine := ⟨rfl, fun _ => rfl, rfl, rfl, rfl⟩

theorem Machine.Agrees.graph {machine later : Machine} (h : machine.Agrees later) : later.graph = machine.graph := by
  rw [Machine.graph, h.caches, h.loading]
  rfl

namespace Run

/-- A property of runs that is kept when runs come one after the other, by all that does not concern modules, and by
assignments of exports. -/
structure Sequential (lasts : {α : Type} → Run α → Prop) : Prop where
  pure {α : Type} (a : α) : lasts (Run.pure a)
  fail {α : Type} (failure : Failure) : lasts (Run.fail failure : Run α)
  exhausted {α : Type} : lasts (Run.exhausted : Run α)
  bind {α β : Type} {run : Run α} {next : α → Run β} :
    lasts run → (∀ a, lasts (next a)) → lasts (Run.bind run next)
  update {α : Type} {f : Machine → α × Machine} :
    (∀ machine, Machine.Agrees machine (f machine).2) → lasts (Run.update f)
  assignExports (cache : CacheId) (id : Path) (exports : Value) : lasts (Run.assignExports cache id exports)

namespace Sequential

variable {α : Type} {lasts : {α : Type} → Run α → Prop} (h : Sequential @lasts)

include h

theorem read (f : Machine → α) : lasts (Run.read f) := h.update .refl

private theorem ofExcept (result : Except Failure α) : lasts (Run.ofExcept result) := by
  cases result with
  | ok a => exact h.pure a
  | error failure => exact h.fail failure

theorem onFailure {run : Run α} {last : Failure → Run Unit} (hr : lasts (Run.attempt run))
    (hl : ∀ failure, lasts (last failure)) : lasts (Run.onFailure run last) := by
  refine h.bind hr fun result => ?_
  cases result with
  | ok a => exact h.pure a
  | error failure => exact h.bind (hl failure) fun _ => h.fail failure

private theorem newHost (host : Host) : lasts (Run.newHost host) := by
  have hmake : lasts (Run.make fun heap => heap.newHost host) := h.update fun _ => ⟨rfl, fun _ => rfl, rfl, rfl, rfl⟩
  unfold Run.newHost
  exact h.bind hmake fun _ => h.pure _

end Sequential

/-- It is also kept by what handlers do to the caches. -/
structure Handling (lasts : {α : Type} → Run α → Prop) : Prop extends Sequential lasts where
  entered (cache : CacheId) (id : Path) (exports : Value) : lasts (Run.note (.entered cache id exports))
  evict (cache : CacheId) (id : Path) : lasts (Run.changeCache cache (·.erase id))

namespace Handling

variable {lasts : {α : Type} → Run α → Prop} (h : Handling @lasts) {next : Steps}
  (hc : ∀ compiled scope, lasts (next.runCompiled compiled scope))

include h hc

private theorem handle (loaderId : LoaderId) (loader : Loader) (record : Record) (handler : Handler) :
    lasts (next.handle loaderId loader record handler) := by
  have hread {rest : String → Run Unit} (hr : ∀ text, lasts (rest text)) :
      lasts (Run.bind (Run.site loader.site) fun files =>
        Run.bind (Run.ofExcept (files.readText record.filename)) rest) :=
    h.bind (h.read _) fun files => h.bind (h.ofExcept _) hr
  cases handler with
  | source =>
    refine hread fun source => h.bind (h.ofExcept _) fun compiled => h.bind (h.newHost _) fun require => ?_
    exact h.bind (h.newHost _) fun module => h.bind (h.entered _ _ _) fun _ => h.bind (hc _ _) fun _ => h.pure _
  | data =>
    refine hread fun text => ?_
    split
    · refine h.bind (h.update fun machine => ?_) fun value => h.bind (h.assignExports _ _ _) fun _ => h.pure _
      exact ⟨(Heap.sameButData_ofJson _ machine.heap).sameFrame.caches, fun _ => rfl, rfl, rfl, rfl⟩
    · exact h.fail _
  | nativeAddon => exact h.fail _
  | verbatim => exact hread fun text => h.bind (h.assignExports _ _ _) fun _ => h.pure _
  | evict => exact h.evict _ _
  | reject text => exact h.fail _
  | idle => exact h.pure _
  | sameAs path => exact h.exhausted

/-- Whatever handlers there are, files are handled with the property. -/
theorem handleFile (loaderId : LoaderId) (loader : Loader) (record : Record) :
    lasts (next.handleFile loaderId loader record) := by
  unfold Steps.handleFile
  refine h.bind (h.read _) fun registry => ?_
  split
  · exact h.handle hc _ _ _ _
  · exact h.exhausted

end Handling

/-- It is also kept when failures are caught, inside of changes that do not concern modules, and by loads. -/
structure Lasting (lasts : {α : Type} → Run α → Prop) : Prop extends Sequential lasts where
  attempt {α : Type} {run : Run α} : lasts run → lasts (Run.attempt run)
  bracket {α σ : Type} {keep : Machine → σ} {enter : Machine → Machine} {leave : σ → Machine → Machine}
    {run : Run α} : (∀ machine, Machine.Agrees machine (enter machine)) →
    (∀ kept machine, Machine.Agrees machine (leave kept machine)) → lasts run →
    lasts (Run.bracket keep enter leave run)
  /-- A note that does not concern modules. -/
  note {event : Event} : (∀ graph : Graph, graph.Allows event) → (∀ graph : Graph, graph.after event = graph) →
    lasts (Run.note event)
  load {next : Steps} (loader : LoaderId) (id : Path) (parent : Option Path) :
    (∀ compiled scope, lasts (next.runCompiled compiled scope)) → lasts (next.load loader id parent)

namespace Lasting

variable {α : Type} {lasts : {α : Type} → Run α → Prop} (h : Lasting @lasts)

include h

private theorem catching {run : Run α} {handler : Failure → Run α} (hr : lasts run)
    (hh : ∀ failure, lasts (handler failure)) : lasts (Run.catching run handler) := by
  have hnote (since till : Nat) : lasts (Run.note (.dropped since till)) := h.note (fun _ => trivial) fun _ => rfl
  unfold Run.catching
  refine h.bind (h.read _) fun since => h.bind (h.attempt hr) fun result => ?_
  cases result with
  | ok a => exact h.pure a
  | error failure => exact h.bind (h.read _) fun till => h.bind (hnote _ _) fun _ => hh failure

private theorem ensuring {run last : Run Completion} (hr : lasts run) (hl : lasts last) :
    lasts (Run.ensuring run last) := by
  have hnote (since till : Nat) : lasts (Run.note (.dropped since till)) := h.note (fun _ => trivial) fun _ => rfl
  unfold Run.ensuring
  refine h.bind (h.read _) fun since => h.bind (h.attempt hr) fun outcome => ?_
  refine h.bind (h.read _) fun till => h.bind (h.onFailure (h.attempt hl) fun _ => hnote _ _) fun ending => ?_
  cases ending with
  | normal value => exact h.ofExcept outcome
  | returned value => exact h.bind (hnote _ _) fun _ => h.pure _

/-- Whatever a script does has the property. -/
theorem scripted {run : Run α} (hr : run.Scripted) : lasts run := by
  induction hr with
  | pure a => exact h.pure a
  | fail failure => exact h.fail failure
  | exhausted => exact h.exhausted
  | bind _ _ ih ihn => exact h.bind ih ihn
  | update hf => exact h.update hf
  | bracket he hl _ ih => exact h.bracket he hl ih
  | note hs =>
    next event =>
    cases event with
    | printed stream line => exact h.note (fun _ => trivial) fun _ => rfl
    | warned failure => exact h.note (fun _ => trivial) fun _ => rfl
    | _ => cases hs
  | assignExports cache id exports => exact h.assignExports cache id exports
  | catching _ _ ih ihh => exact h.catching ih ihh
  | ensuring _ _ ih ihl => exact h.ensuring ih ihl
  | refusing _ ih => exact h.onFailure (h.attempt ih) fun _ => h.note (fun _ => trivial) fun _ => rfl
  | load loader id parent _ ih => exact h.load loader id parent ih

/-! ## Requests -/

/-- The entry module of a loader does not concern the caches. -/
private theorem changeMain (loaderId : LoaderId) (main : Option Path) :
    lasts (changeLoader loaderId fun loader => { loader with main }) := by
  unfold Run.changeLoader Run.change
  refine h.update fun machine => ⟨rfl, fun id => ?_, rfl, rfl, rfl⟩
  simp only [Machine.loader, Array.getElem?_modify]
  split
  · cases machine.loaders[id.index]? <;> rfl
  · rfl

private theorem runMain (fuel : Nat) (loaderId : LoaderId) (path : Path) :
    lasts ((steps fuel).runMain loaderId path) := by
  unfold Steps.runMain
  refine h.bind (h.read _) fun loader => h.bind (h.read _) fun site => ?_
  refine h.bind (h.scripted (.resolve _ _ _)) fun target => ?_
  cases target with
  | builtin name => exact h.fail _
  | file id =>
    have hload : lasts ((steps fuel).load loaderId id none) := h.scripted ((steps_scripted fuel).load _ _ _)
    exact h.bind (h.changeMain _ _) fun _ => h.onFailure (h.attempt hload) fun _ => h.changeMain _ _

private theorem runSnippet (fuel : Nat) (loaderId : LoaderId) (source : String) (dir : Path) :
    lasts ((steps fuel).runSnippet loaderId source dir) := by
  refine h.scripted ?_
  unfold Steps.runSnippet
  refine .bind (.read _) fun loader => .bind (.read _) fun site => .bind (.ofExcept _) fun compiled => ?_
  refine .bind (.of_plain (.newObject _)) fun exports => .bind (.of_plain (.newObject _)) fun module => ?_
  exact .bind (.newHost _) fun require => (steps_scripted fuel).runCompiled _ _

/-- What lasts through loads lasts through a request. -/
theorem serve (fuel : Nat) (request : Request) : lasts (Run.serve fuel request) := by
  cases request with
  | require loader specifier dir parent => exact h.scripted ((steps_scripted fuel).require _ _ _ _)
  | runMain loader path => exact h.runMain fuel _ _
  | snippet loader source dir => exact h.runSnippet fuel _ _ _
  | call id args => exact h.scripted ((steps_scripted fuel).callHost _ _)
  | program body bindings => exact h.scripted ((steps_scripted fuel).runProgram _ _)
  | edit site change => exact h.scripted (.of_plain (.bind (.changeSite _ _ rfl) fun _ => .pure _))

theorem serveAll (fuel : Nat) (requests : List Request) : lasts (Run.serveAll fuel requests) := by
  induction requests with
  | nil => exact h.pure _
  | cons request requests ih => exact h.bind (h.attempt (h.serve fuel request)) fun _ => ih

end Lasting
end Run
end ScriptModules
