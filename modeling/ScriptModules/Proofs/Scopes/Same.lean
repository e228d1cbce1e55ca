import ScriptModules.Proofs.Runs.HostKinds
import ScriptModules.Proofs.Runs.Serving
import ScriptModules.Proofs.Scopes.Bindings

/-!
# Runs that do the same

Two ways to take steps do the same if they differ only in what no run comes to.  Runs may rest on what holds of each
machine that they get to (`Machine.Stands`): functions are as in `made`, and code has a scope to declare variables in.
This lasts, because scopes are only added to, and a run comes back to the environment that it began in
(`Machine.GoesOn`).  So what is the same from machines that stand (`Run.Same`) is kept by the rules, as long as these
make such functions only (`Run.Same.ruled`), and holds of calls and requests as soon as it holds of the bodies of
programs and functions (`Steps.SameBodies`).
-/

namespace ScriptModules

/-- The function that the object is, if it is one that is written in a script. -/
def Host.function? : Host → Option Script.Function
  | .function definition _ _ => some definition
  | _ => none

/-- The object is as in `made`, if it is a function that is written in a script. -/
def Host.MadeAs (made : Script.Function → Prop) (host : Host) : Prop := ∀ f ∈ host.function?, made f

/-- The scope binds the name. -/
def Heap.HasBound (heap : Heap) (id : ScopeId) (name : String) : Prop := ((heap.scope id).find? name).isSome = true

/-- There may be more scopes in the second heap, and more names in each. -/
structure Heap.Extends (heap later : Heap) : Prop where
  size : heap.scopes.size ≤ later.scopes.size
  bound : ∀ id name, heap.HasBound id name → later.HasBound id name

namespace Heap.Extends

variable {heap later last : Heap}

private theorem of_scopes (h : later.scopes = heap.scopes) : heap.Extends later := by
  refine ⟨Nat.le_of_eq (by rw [h]), fun id name hb => ?_⟩
  unfold Heap.HasBound Heap.scope at *
  rwa [h]

private theorem trans (h : heap.Extends later) (h' : later.Extends last) : heap.Extends last :=
  ⟨Nat.le_trans h.size h'.size, fun id name hb => h'.bound id name (h.bound id name hb)⟩

private theorem newScope (heap : Heap) (scope : Scope) : heap.Extends (heap.newScope scope).2 := by
  refine ⟨?_, fun id name hb => ?_⟩
  · rw [Heap.newScope, Array.size_push]
    exact Nat.le_succ _
  · obtain ⟨binding, hfind⟩ := Option.isSome_iff_exists.1 hb
    unfold Heap.HasBound Heap.scope
    rw [Heap.scopes_newScope, if_neg (Nat.ne_of_lt (Heap.lt_of_find? hfind))]
    exact hb

private theorem bind (heap : Heap) (id : ScopeId) (name : String) (binding : Binding) :
    heap.Extends (heap.bind id name binding) := by
  refine ⟨Nat.le_of_eq Array.size_modify.symm, fun other name' hb => ?_⟩
  unfold Heap.HasBound
  obtain ⟨found, hfind⟩ := Option.isSome_iff_exists.1 hb
  by_cases hid : id.index < heap.scopes.size
  · rw [Heap.scope_bind _ _ _ _ _ hid]
    split
    · next heq =>
      subst heq
      rw [Scope.find?_bind]
      split
      · rfl
      · exact hb
    · exact hb
  · unfold Heap.scope
    rw [Heap.scopes_bind, if_neg fun heq : id.index = other.index => hid (heq ▸ Heap.lt_of_find? hfind)]
    exact hb

private theorem of_binds {env : Environment} (h : heap.Binds env later) : heap.Extends later := by
  obtain rfl | ⟨id, _, name, binding, rfl⟩ := h
  · exact .of_scopes rfl
  · exact .bind heap id name binding

end Heap.Extends

namespace Machine

/-- Functions are as in `made`, and code has a scope that receives `var` declarations. -/
structure Stands (made : Script.Function → Prop) (inCode : Bool) (machine : Machine) : Prop where
  functions : machine.HostsAre (Host.MadeAs made)
  code : inCode = true → machine.environment.function.index < machine.heap.scopes.size

/-- What the first machine may rest on the second one may rest on too. -/
structure GoesOn (made : Script.Function → Prop) (machine later : Machine) : Prop where
  scopes : machine.heap.Extends later.heap
  environment : later.environment = machine.environment
  functions : machine.HostsAre (Host.MadeAs made) → later.HostsAre (Host.MadeAs made)

variable {made : Script.Function → Prop} {inCode : Bool} {machine later last : Machine}

/-- What is asked of a machine holds where it goes on. -/
theorem Stands.goesOn (h : machine.Stands made inCode) (hg : machine.GoesOn made later) : later.Stands made inCode := by
  refine ⟨hg.functions h.functions, fun hc => ?_⟩
  rw [hg.environment]
  exact Nat.lt_of_lt_of_le (h.code hc) hg.scopes.size

namespace GoesOn

private theorem trans (h : machine.GoesOn made later) (h' : later.GoesOn made last) : machine.GoesOn made last :=
  ⟨h.scopes.trans h'.scopes, h'.environment.trans h.environment, fun hf => h'.functions (h.functions hf)⟩

/-- The host objects are the same. -/
theorem of_hosts (hs : machine.heap.Extends later.heap) (he : later.environment = machine.environment)
    (hh : later.heap.hosts = machine.heap.hosts) : machine.GoesOn made later :=
  ⟨hs, he, fun hf => hf.of_hosts hh⟩

/-- There is one more host object. -/
theorem of_push {host : Host} (hs : later.heap.scopes = machine.heap.scopes)
    (he : later.environment = machine.environment) (hh : later.heap.hosts = machine.heap.hosts.push host)
    (hm : host.MadeAs made) : machine.GoesOn made later :=
  ⟨.of_scopes hs, he, fun hf => hf.of_push hm hh⟩

theorem refl (machine : Machine) : machine.GoesOn made machine := .of_hosts (.of_scopes rfl) rfl rfl

end GoesOn
end Machine

namespace Run

variable {α β σ : Type} {made : Script.Function → Prop} {inCode : Bool} {machine : Machine}

/-- From this machine the runs do the same, and the machine goes on. -/
structure SameAt (made : Script.Function → Prop) (run run' : Run α) (machine : Machine) : Prop where
  eq : run' machine = run machine
  goesOn : machine.GoesOn made (run machine).2

/-- From machines that stand the runs do the same, and the machines go on. -/
def Same (made : Script.Function → Prop) (inCode : Bool) (run run' : Run α) : Prop :=
  ∀ machine : Machine, machine.Stands made inCode → run.SameAt made run' machine

/-! ## From one machine -/

namespace SameAt

theorem goesOn_of_eq {run run' : Run α} {outcome : Outcome α} {later : Machine} (h : run.SameAt made run' machine)
    (hr : run machine = (outcome, later)) : machine.GoesOn made later := by
  have hgoes := h.goesOn
  rwa [hr] at hgoes

theorem bind {run run' : Run α} {next next' : α → Run β} (h : run.SameAt made run' machine)
    (hn : ∀ a later, run machine = (.ok a, later) → (next a).SameAt made (next' a) later) :
    (Run.bind run next).SameAt made (Run.bind run' next') machine := by
  obtain ⟨heq, hgoes⟩ := h
  cases hr : run machine with
  | mk outcome later =>
    rw [hr] at heq hgoes
    cases outcome with
    | ok a =>
      have hnext := hn a later hr
      exact ⟨by rw [bind_ok hr, bind_ok heq]; exact hnext.eq, by rw [bind_ok hr]; exact hgoes.trans hnext.goesOn⟩
    | failed failure => exact ⟨by rw [bind_failed hr, bind_failed heq], by rw [bind_failed hr]; exact hgoes⟩
    | exhausted => exact ⟨by rw [bind_exhausted hr, bind_exhausted heq], by rw [bind_exhausted hr]; exact hgoes⟩

private theorem update {f : Machine → α × Machine} (h : machine.GoesOn made (f machine).2) :
    (Run.update f).SameAt made (Run.update f) machine := ⟨rfl, h⟩

/-- A run that begins with a change, or with a look at the machine. -/
theorem update_bind {f : Machine → α × Machine} {next next' : α → Run β} (h : machine.GoesOn made (f machine).2)
    (hn : (next (f machine).1).SameAt made (next' (f machine).1) (f machine).2) :
    (Run.bind (Run.update f) next).SameAt made (Run.bind (Run.update f) next') machine := by
  refine bind (update h) fun a later hr => ?_
  obtain ⟨hvalue, rfl⟩ := Prod.mk.inj hr
  exact Outcome.ok.inj hvalue ▸ hn

private theorem read_bind {f : Machine → α} {next next' : α → Run β}
    (hn : (next (f machine)).SameAt made (next' (f machine)) machine) :
    (Run.bind (Run.read f) next).SameAt made (Run.bind (Run.read f) next') machine :=
  update_bind (.refl machine) hn

private theorem ofExcept (result : Except Failure α) :
    (Run.ofExcept result).SameAt made (Run.ofExcept result) machine := by
  cases result with
  | ok a => exact ⟨rfl, .refl machine⟩
  | error failure => exact ⟨rfl, .refl machine⟩

/-- A run that enters something and leaves it. -/
theorem bracket {keep : Machine → σ} {enter : Machine → Machine} {leave : σ → Machine → Machine} {run run' : Run α}
    (h : run.SameAt made run' (enter machine))
    (hl : ∀ later, (enter machine).GoesOn made later → machine.GoesOn made (leave (keep machine) later)) :
    (Run.bracket keep enter leave run).SameAt made (Run.bracket keep enter leave run') machine :=
  ⟨by simp only [Run.bracket, h.eq], hl _ h.goesOn⟩

private theorem tryHeap {f : Heap → Except Failure Heap}
    (h : ∀ later, f machine.heap = .ok later → machine.GoesOn made { machine with heap := later }) :
    (Run.tryHeap f).SameAt made (Run.tryHeap f) machine := by
  unfold Run.tryHeap Run.make
  refine update_bind ?_ (ofExcept _)
  dsimp only
  cases hf : f machine.heap with
  | ok later => exact h later hf
  | error failure => exact .refl machine

end SameAt

/-! ## From every machine -/

namespace Same

private theorem update {f : Machine → α × Machine} (h : ∀ machine : Machine, machine.GoesOn made (f machine).2) :
    (Run.update f).Same made inCode (Run.update f) :=
  fun machine _ => .update (h machine)

private theorem bind {run run' : Run α} {next next' : α → Run β} (h : run.Same made inCode run')
    (hn : ∀ a, (next a).Same made inCode (next' a)) :
    (Run.bind run next).Same made inCode (Run.bind run' next') := by
  intro machine hm
  exact (h machine hm).bind fun a later hr => hn a later (hm.goesOn ((h machine hm).goesOn_of_eq hr))

private theorem attempt {run run' : Run α} (h : run.Same made inCode run') :
    (Run.attempt run).Same made inCode (Run.attempt run') := by
  intro machine hm
  obtain ⟨heq, hgoes⟩ := h machine hm
  refine ⟨by simp only [Run.attempt, heq], ?_⟩
  rwa [Run.attempt_snd]

/-- What has to do neither with scopes nor with functions. -/
theorem outside : Outside fun run => run.Same made inCode run where
  pure a := fun machine _ => ⟨rfl, .refl machine⟩
  fail failure := fun machine _ => ⟨rfl, .refl machine⟩
  exhausted := fun machine _ => ⟨rfl, .refl machine⟩
  bind := .bind
  attempt := .attempt
  sameFrame {_ f} h := .update fun machine => by
    have henv : (f machine).2.environment = machine.environment := by rw [(h machine).elsewhere]
    obtain hh | ⟨host, hpassive, hh⟩ := (h machine).heap.hosts
    · exact .of_hosts (.of_scopes (h machine).heap.scopes) henv hh
    · refine .of_push (h machine).heap.scopes henv hh fun f hf => ?_
      cases host <;> contradiction
  elsewhere h := .update fun machine =>
    .of_hosts (.of_scopes (h machine).scopes) (h machine).environment (h machine).hosts
  newHost {host} hn := by
    unfold Run.newHost Run.make
    have hmade : host.MadeAs made := by
      intro f hf
      cases host with
      | function definition closure properties => exact absurd rfl (hn definition closure properties)
      | _ => contradiction
    exact .bind (.update fun machine => .of_push rfl rfl rfl hmade) fun id machine _ => ⟨rfl, .refl machine⟩

/-- Requests do the same if programs and calls do. -/
theorem served : Served fun run run' => run.Same made inCode run' where
  plain h := outside.plain h
  note := outside.note
  bind := .bind
  attempt := .attempt
  exhausted := outside.exhausted
  change := outside.closed.change
  newRequire := outside.closed.newRequire
  changeLoader := outside.served.changeLoader

/-! ## Code -/

private theorem goesOn_of_binds {later : Heap} (h : machine.heap.Binds machine.environment later)
    (hs : machine.heap.SameButScopes later) : machine.GoesOn made { machine with heap := later } :=
  .of_hosts (.of_binds h) rfl hs.hosts

/-- A block is entered with a new scope, and left. -/
private theorem inBlock {run run' : Run α} (h : run.Same made true run') :
    (Run.inBlock run).Same made true (Run.inBlock run') := by
  intro machine hm
  unfold Run.inBlock
  have hgrows (scope : Scope) := Heap.Extends.newScope machine.heap scope
  refine .bracket (h _ ⟨hm.functions.of_hosts rfl, fun hc => ?_⟩) fun later hl => ?_
  · exact Nat.lt_of_lt_of_le (hm.code hc) (hgrows _).size
  · refine ⟨(hgrows _).trans hl.scopes, ?_, fun hf => (hl.functions (hf.of_hosts rfl)).of_hosts rfl⟩
    exact congrArg Environment.pop hl.environment

/-- What the rules are made of is the same in code. -/
theorem ruled : Ruled made fun run run' => run.Same made true run' where
  plain h := served.plain h.widen
  bind := .bind
  declareVariable name value? := by
    intro machine _
    unfold Run.declareVariable Run.changeHeap Run.make
    exact .read_bind (.update (goesOn_of_binds (Heap.binds_declareVariable _ _ _)
      (Heap.sameButScopes_declareVariable _ _ _)))
  declareLexical name value mutable := by
    intro machine _
    unfold Run.declareLexical
    exact .read_bind (.tryHeap fun later h => goesOn_of_binds (Heap.binds_declareLexical h)
      (Heap.sameButScopes_declareLexical h))
  assign name value := by
    intro machine _
    unfold Run.assign
    exact .read_bind (.tryHeap fun later h => goesOn_of_binds (Heap.binds_assign h) (Heap.sameButScopes_assign h))
  newFunction definition hf := by
    unfold Run.newFunction Run.newHost Run.make
    refine .bind (.update fun machine => .of_hosts (.of_scopes rfl) rfl rfl) fun properties machine _ => ?_
    refine .read_bind (.update_bind (.of_push rfl rfl rfl fun f h => ?_) ⟨rfl, .refl _⟩)
    exact Option.some.inj h ▸ hf
  inBlock := .inBlock
  catching := served.catching
  ensuring := served.ensuring

/-! ## Calls and programs -/

/-- A function is entered with a new scope, and left. -/
private theorem enterFunction {run run' : Run α} (h : run.Same made true run') (scope : Scope) (closure : Environment) :
    (Run.bind (Run.make fun heap => heap.newScope scope) fun id => Run.within (closure.pushFunction id) run).Same made
      inCode (Run.bind (Run.make fun heap => heap.newScope scope) fun id =>
        Run.within (closure.pushFunction id) run') := by
  intro machine hm
  unfold Run.make Run.within
  have hgrows := Heap.Extends.newScope machine.heap scope
  refine .update_bind (.of_hosts hgrows rfl rfl) ?_
  refine .bracket (h _ ⟨hm.functions.of_hosts rfl, fun _ => ?_⟩) fun later hl => ?_
  · exact Nat.lt_of_lt_of_eq (Nat.lt_succ_self _) (Array.size_push _).symm
  · exact ⟨hl.scopes, rfl, fun hf => (hl.functions (hf.of_hosts rfl)).of_hosts rfl⟩

private theorem inCall {run run' : Run α} (h : run.Same made inCode run') :
    (Steps.inCall run).Same made inCode (Steps.inCall run') := by
  unfold Steps.inCall
  refine served.bind (served.plain (.read _)) fun depth => ?_
  split
  · exact served.plain (.throwNamed _ _)
  · intro machine hm
    refine .bracket (h _ ⟨hm.functions.of_hosts rfl, hm.code⟩) fun later hl => ?_
    exact ⟨hl.scopes, hl.environment, fun hf => (hl.functions (hf.of_hosts rfl)).of_hosts rfl⟩

end Same
end Run

/-- The steps do the same with the bodies of programs and of functions as in `made`. -/
structure Steps.SameBodies (made : Script.Function → Prop) (next next' : Steps) : Prop where
  program : ∀ body, Script.IsProgram body → (next.executeBody body).Same made true (next'.executeBody body)
  function : ∀ f, made f → (next.executeBody f.body).Same made true (next'.executeBody f.body)

namespace Steps.SameBodies

open Run.Same

variable {made : Script.Function → Prop} {inCode : Bool} {next next' : Steps} {body : List Script.Statement}

/-- A program has a scope of its own, whatever it is run in. -/
private theorem runProgram (h : (next.executeBody body).Same made true (next'.executeBody body))
    (bindings : List (String × Value)) :
    (next.runProgram body bindings).Same made inCode (next'.runProgram body bindings) := by
  unfold Steps.runProgram
  refine .bind (.update fun machine => .of_hosts (.of_scopes rfl) rfl rfl) fun owner => ?_
  refine .bind (served.plain .globals) fun global => .bind (.update fun machine => ?_) fun outer => ?_
  · exact .of_hosts (.newScope _ _) rfl rfl
  · exact enterFunction (ruled.runStatements h bindings) _ _

variable (h : Steps.SameBodies made next next')

include h

/-- Whatever is called, the functions that are written in scripts are as in `made`. -/
theorem callHost (id : HostId) (args : List Value) :
    (next.callHost id args).Same made inCode (next'.callHost id args) := by
  intro machine hm
  unfold Steps.callHost
  refine .read_bind ?_
  cases hid : machine.heap.host id with
  | native name action => exact served.plain (Run.Plain.native action args).widen machine hm
  | embedded name respond => exact served.plain (.reply _) machine hm
  | function definition closure properties =>
    have hmade : made definition := by
      have hhost := hm.functions id
      rw [hid] at hhost
      exact hhost definition rfl
    have hcalled : (next.callFunction definition closure args).Same made inCode
        (next'.callFunction definition closure args) := by
      unfold Steps.callFunction
      refine Run.Same.inCall (.bind (served.plain .heap) fun heap => enterFunction ?_ _ _)
      exact ruled.runFunction (h.function definition hmade) args
    exact hcalled machine hm
  | require loader dir parent =>
    exact served.refusing (fun _ hb => runProgram (h.program _ hb)) trivial dir parent args machine hm
  | module cache record => exact ⟨rfl, .refl machine⟩
  | cacheView cache => exact ⟨rfl, .refl machine⟩

/-- Requests are served alike, if the bodies of programs are run alike. -/
theorem serveAll (requests : List Request) (hr : ∀ body bindings, .program body bindings ∈ requests →
    (next.executeBody body).Same made true (next'.executeBody body)) :
    (next.serveAll requests).Same made inCode (next'.serveAll requests) :=
  served.serveAll (fun _ hb => runProgram (h.program _ hb)) h.callHost requests
    fun body bindings hm => runProgram (hr body bindings hm) bindings

end Steps.SameBodies

/-- At the start there are native functions only. -/
theorem Machine.functions_ofSite {made : Script.Function → Prop} (site : Site) :
    (Machine.ofSite site).HostsAre (Host.MadeAs made) := by
  have houtside : Run.Outside fun run => run.Same made false run := Run.Same.outside
  exact (houtside.setUp site .empty ⟨fun _ _ => nofun, nofun⟩).goesOn.functions fun _ _ => nofun

end ScriptModules
