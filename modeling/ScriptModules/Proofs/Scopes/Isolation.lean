import ScriptModules.Proofs.Runs.Serving
import ScriptModules.Proofs.Scopes.Ownership

/-!
# Scopes are isolated

Every rule keeps the scopes of different runs of programs apart (`Run.Alike.isolated`): each change isolates the runs,
and where code is run all scopes that it sees belong to one of them.  Functions and programs begin in scopes of the
run that they belong to, so this is the run of the code itself.
-/

namespace ScriptModules

/-- A machine at which such a run may begin: it is confined, and inside of code it runs that of some run. -/
structure Machine.Ready (inCode : Bool) (machine : Machine) : Prop where
  confined : machine.Confined
  runs : inCode = true → ∃ number, machine.Runs number

private theorem Machine.Reaches.keepsOwners {moves : Machine → Machine → Prop} {machine later : Machine}
    (h : Machine.Reaches moves machine later) (hm : ∀ before after, moves before after → before.Isolates after) :
    machine.heap.KeepsOwners later.heap := by
  induction h with
  | refl => exact .refl _
  | step _ h ih => exact ih.trans (hm _ _ h).keepsOwners

namespace Run

variable {α β σ : Type} {machine : Machine} {inCode : Bool}

/-- From this machine the run keeps the scopes of runs of programs apart, and comes back to the code it began in. -/
structure IsolatedFrom (run : Run α) (machine : Machine) : Prop where
  confined : ∀ later, run.passes machine later → later.Confined
  within : ∀ later, run.passes machine later →
    later.environment = machine.environment ∨ ∃ number, later.Runs number
  isolates : ∀ before after, run.moves machine before after → before.Isolates after
  environment : (run machine).2.environment = machine.environment

/-- The run keeps the scopes of runs of programs apart. -/
def Isolated (inCode : Bool) (run : Run α) : Prop :=
  ∀ machine : Machine, machine.Ready inCode → run.IsolatedFrom machine

/-! ## From one machine -/

namespace IsolatedFrom

private theorem keepsOwners {run : Run α} (h : run.IsolatedFrom machine) :
    machine.heap.KeepsOwners (run machine).2.heap :=
  (run.passes_moves machine _ (run.passes_end machine)).keepsOwners h.isolates

/-- After the run the same code can go on. -/
theorem ready {run : Run α} (h : run.IsolatedFrom machine) (hm : machine.Ready inCode) :
    (run machine).2.Ready inCode := by
  refine ⟨h.confined _ (run.passes_end machine), fun hc => ?_⟩
  obtain ⟨number, hr⟩ := hm.runs hc
  exact ⟨number, hr.stays h.environment h.keepsOwners⟩

private theorem pure (a : α) (hm : machine.Confined) : (Run.pure a).IsolatedFrom machine :=
  ⟨fun _ h => h ▸ hm, fun _ h => .inl (h ▸ rfl), nofun, rfl⟩

private theorem fail (failure : Failure) (hm : machine.Confined) : (Run.fail failure : Run α).IsolatedFrom machine :=
  ⟨fun _ h => h ▸ hm, fun _ h => .inl (h ▸ rfl), nofun, rfl⟩

private theorem exhausted (hm : machine.Confined) : (Run.exhausted : Run α).IsolatedFrom machine :=
  ⟨fun _ h => h ▸ hm, fun _ h => .inl (h ▸ rfl), nofun, rfl⟩

private theorem update {f : Machine → α × Machine} (hm : machine.Confined) (h : machine.Keeps (f machine).2) :
    (Run.update f).IsolatedFrom machine := by
  refine ⟨fun later hp => ?_, fun later hp => ?_, fun before after hm => ?_, h.environment⟩
  · rcases hp with rfl | rfl
    · exact hm
    · exact h.confined
  · rcases hp with rfl | rfl
    · exact .inl rfl
    · exact .inl h.environment
  · obtain ⟨rfl, rfl⟩ := hm
    exact h.isolates

private theorem bind {run : Run α} {next : α → Run β} (h : run.IsolatedFrom machine)
    (hn : ∀ a later, run machine = (.ok a, later) → (next a).IsolatedFrom later) :
    (Run.bind run next).IsolatedFrom machine := by
  have hmiddle {a : α} {later : Machine} (hr : run machine = (.ok a, later)) :
      later.environment = machine.environment := by
    have he := h.environment
    rwa [hr] at he
  refine ⟨fun later hp => ?_, fun later hp => ?_, fun before after hm => ?_, ?_⟩
  · rcases hp with hp | ⟨a, middle, hr, hp⟩
    · exact h.confined later hp
    · exact (hn a middle hr).confined later hp
  · rcases hp with hp | ⟨a, middle, hr, hp⟩
    · exact h.within later hp
    · exact hmiddle hr ▸ (hn a middle hr).within later hp
  · rcases hm with hm | ⟨a, middle, hr, hm⟩
    · exact h.isolates before after hm
    · exact (hn a middle hr).isolates before after hm
  · have he := h.environment
    simp only [Run.bind]
    split
    · next a middle hr => exact (hn a middle hr).environment.trans (hmiddle hr)
    · next hr => rwa [hr] at he
    · next hr => rwa [hr] at he

/-- A run that begins with a change, or with a look at the machine. -/
theorem update_bind {f : Machine → α × Machine} {next : α → Run β} (hm : machine.Confined)
    (h : machine.Keeps (f machine).2) (hn : (next (f machine).1).IsolatedFrom (f machine).2) :
    (Run.bind (Run.update f) next).IsolatedFrom machine := by
  refine (update hm h).bind fun a later hr => ?_
  obtain ⟨ha, rfl⟩ := Prod.mk.inj hr
  exact Outcome.ok.inj ha ▸ hn

private theorem read_bind {f : Machine → α} {next : α → Run β} (hm : machine.Confined)
    (hn : (next (f machine)).IsolatedFrom machine) : (Run.bind (Run.read f) next).IsolatedFrom machine :=
  update_bind hm (.of_heap_eq hm rfl (Nat.le_refl _) rfl) hn

private theorem make {f : Heap → α × Heap} (hm : machine.Confined)
    (h : machine.Keeps { machine with heap := (f machine.heap).2 }) : (Run.make f).IsolatedFrom machine :=
  update hm h

private theorem ofExcept (result : Except Failure α) (hm : machine.Confined) :
    (Run.ofExcept result).IsolatedFrom machine := by
  cases result with
  | ok a => exact pure a hm
  | error failure => exact fail failure hm

private theorem tryHeap {f : Heap → Except Failure Heap} (hm : machine.Confined)
    (h : ∀ later, f machine.heap = .ok later → machine.Keeps { machine with heap := later }) :
    (Run.tryHeap f).IsolatedFrom machine := by
  unfold Run.tryHeap Run.make
  refine (fun hkeeps => update_bind hm hkeeps (ofExcept _ hkeeps.confined)) ?_
  dsimp only
  cases hf : f machine.heap with
  | ok later => exact h later hf
  | error failure => exact .of_heap_eq hm rfl (Nat.le_refl _) rfl

private theorem attempt {run : Run α} (h : run.IsolatedFrom machine) : (Run.attempt run).IsolatedFrom machine := by
  refine ⟨h.confined, h.within, h.isolates, ?_⟩
  have he := h.environment
  simp only [Run.attempt]
  split <;> next hr => rwa [hr] at he

/-- A run that enters something and leaves it.  Either it stays in the same environment, or it enters code. -/
theorem bracket {keep : Machine → σ} {enter : Machine → Machine} {leave : σ → Machine → Machine} {run : Run α}
    (hm : machine.Confined) (he : machine.Isolates (enter machine))
    (hcode : (enter machine).environment = machine.environment ∨ ∃ number, (enter machine).Runs number)
    (hr : run.IsolatedFrom (enter machine))
    (hl : ∀ later : Machine, later.environment = (enter machine).environment →
      (leave (keep machine) later).heap = later.heap ∧ (leave (keep machine) later).runs = later.runs ∧
        (leave (keep machine) later).environment = machine.environment) :
    (Run.bracket keep enter leave run).IsolatedFrom machine := by
  obtain ⟨hheap, hruns, henv⟩ := hl _ hr.environment
  refine ⟨fun later hp => ?_, fun later hp => ?_, fun before after hm => ?_, henv⟩
  · rcases hp with rfl | hp | rfl
    · exact hm
    · exact hr.confined later hp
    · exact (hr.confined _ (run.passes_end _)).of_heap_eq hheap (Nat.le_of_eq hruns.symm)
  · rcases hp with rfl | hp | rfl
    · exact .inl rfl
    · rcases hr.within later hp with hsame | hnumber
      · refine hcode.imp hsame.trans fun ⟨number, hn⟩ => ⟨number, hn.stays hsame ?_⟩
        exact (run.passes_moves _ later hp).keepsOwners hr.isolates
      · exact .inr hnumber
    · exact .inl henv
  · rcases hm with ⟨rfl, rfl⟩ | hm | ⟨rfl, rfl⟩
    · exact he
    · exact hr.isolates before after hm
    · exact .of_heap_eq hheap

end IsolatedFrom

/-! ## From every machine -/

namespace Isolated

private theorem bind {run : Run α} {next : α → Run β} (h : run.Isolated inCode) (hn : ∀ a, (next a).Isolated inCode) :
    (Run.bind run next).Isolated inCode := by
  intro machine hm
  refine (h machine hm).bind fun a later hr => hn a later ?_
  have hready := (h machine hm).ready hm
  rwa [hr] at hready

private theorem update {f : Machine → α × Machine}
    (h : ∀ machine : Machine, machine.Ready inCode → machine.Keeps (f machine).2) : (Run.update f).Isolated inCode :=
  fun machine hm => .update hm.confined (h machine hm)

private theorem pure (a : α) : (Run.pure a).Isolated inCode := fun _ hm => .pure a hm.confined

private theorem fail (failure : Failure) : (Run.fail failure : Run α).Isolated inCode :=
  fun _ hm => .fail failure hm.confined

private theorem exhausted : (Run.exhausted : Run α).Isolated inCode := fun _ hm => .exhausted hm.confined

private theorem attempt {run : Run α} (h : run.Isolated inCode) : (Run.attempt run).Isolated inCode :=
  fun machine hm => (h machine hm).attempt

/-- A change elsewhere than in scopes and host objects. -/
theorem elsewhere {f : Machine → α × Machine} (h : ∀ machine, Machine.SameScopes machine (f machine).2) :
    (Run.update f).Isolated inCode := by
  refine .update fun machine hm => ?_
  have hsame := h machine
  refine .of_isolates hm.confined (.of_eq hsame.scopes fun id definition closure properties hf => .inl ?_) hsame.scopes
    hsame.runs hsame.environment
  rwa [Heap.host, hsame.hosts] at hf

/-- All that has to do neither with scopes nor with functions keeps the scopes of runs apart. -/
theorem outside (inCode : Bool) : Outside fun run => run.Isolated inCode where
  pure := .pure
  fail := .fail
  exhausted := .exhausted
  bind := .bind
  attempt := .attempt
  sameFrame h := .update fun machine hm => .of_sameFrame hm.confined (h machine)
  elsewhere := .elsewhere
  newHost hf := by
    unfold Run.newHost Run.make
    refine .bind (.update fun machine hm => .of_isolates hm.confined ?_ rfl rfl rfl) fun id => .pure _
    exact .newHost rfl rfl fun definition closure properties he => absurd he (hf definition closure properties)

private theorem of_plain {writes : Bool} {run : Run α} (h : run.Plain writes) : run.Isolated inCode :=
  (outside inCode).plain h.widen

/-! ## Code -/

private theorem declareVariable (name : String) (value? : Option Value) :
    (Run.declareVariable name value?).Isolated true := by
  intro machine hm
  obtain ⟨number, hr⟩ := hm.runs rfl
  unfold Run.declareVariable Run.changeHeap
  exact .read_bind hm.confined (.make hm.confined
    (.binds hm.confined hr (Heap.binds_declareVariable _ _ _) rfl rfl))

private theorem declareLexical (name : String) (value : Value) (mutable : Bool) :
    (Run.declareLexical name value mutable).Isolated true := by
  intro machine hm
  obtain ⟨number, hr⟩ := hm.runs rfl
  unfold Run.declareLexical
  exact .read_bind hm.confined (.tryHeap hm.confined fun later h =>
    .binds hm.confined hr (Heap.binds_declareLexical h) rfl rfl)

private theorem assign (name : String) (value : Value) : (Run.assign name value).Isolated true := by
  intro machine hm
  obtain ⟨number, hr⟩ := hm.runs rfl
  unfold Run.assign
  exact .read_bind hm.confined (.tryHeap hm.confined fun later h =>
    .binds hm.confined hr (Heap.binds_assign h) rfl rfl)

/-- A new function sees what the code sees that makes it. -/
theorem newFunction (definition : Script.Function) : (Run.newFunction definition).Isolated true := by
  unfold Run.newFunction
  refine .bind (.of_plain (.makeObject [] : Plain false _)) fun properties machine hm => ?_
  obtain ⟨number, hr⟩ := hm.runs rfl
  unfold Run.newHost
  have hkeeps := Machine.Keeps.newFunction hm.confined hr definition properties
  exact .read_bind hm.confined (.update_bind hm.confined hkeeps (.pure _ hkeeps.confined))

/-- A new block belongs to the run whose code enters it. -/
theorem inBlock {run : Run α} (h : run.Isolated true) : (Run.inBlock run).Isolated true := by
  intro machine hm
  obtain ⟨number, hr⟩ := hm.runs rfl
  have howner : (machine.heap.scope machine.environment.function).owner = number :=
    hr.2.owner (Heap.function_mem_scopes _)
  have hkeeps : machine.Keeps { machine with heap := (machine.heap.newScope
      ⟨(machine.heap.scope machine.environment.function).owner, []⟩).2 } :=
    .newScope hm.confined (howner ▸ hm.confined.lt_runs hr.2) (.inl rfl)
  let entered : Machine := { machine with
    heap := (machine.heap.newScope ⟨(machine.heap.scope machine.environment.function).owner, []⟩).2
    environment := machine.environment.push ⟨machine.heap.scopes.size⟩ }
  have hentered : entered.Runs number := ⟨hr.1, hr.2.newScope ⟨_, []⟩ howner rfl⟩
  have hconfined : entered.Confined := hkeeps.confined.of_heap_eq rfl (Nat.le_refl _)
  unfold Run.inBlock
  exact .bracket hm.confined (.newScope rfl (.inl rfl)) (.inr ⟨number, hentered⟩)
    (h entered ⟨hconfined, fun _ => ⟨number, hentered⟩⟩) fun later he => ⟨rfl, rfl, congrArg Environment.pop he⟩

end Isolated

/-- Code is entered in scopes of a single run. -/
theorem isolatedFrom_within {run : Run α} {environment : Environment} {number : Nat} (hm : machine.Confined)
    (hr : { machine with environment }.Runs number) (h : run.Isolated true) :
    (Run.within environment run).IsolatedFrom machine := by
  unfold Run.within
  exact .bracket hm (.of_heap_eq rfl) (.inr ⟨number, hr⟩)
    (h _ ⟨hm.of_heap_eq rfl (Nat.le_refl _), fun _ => ⟨number, hr⟩⟩) fun later he => ⟨rfl, rfl, rfl⟩

end Run

/-! ## Calls and programs -/

namespace Steps

open Run

variable {next : Steps} {machine : Machine} {inCode : Bool} {number : Nat}

/-- The body of a function runs in a new scope of the run that has made the function. -/
theorem isolatedFrom_callFunction {definition : Script.Function} {closure : Environment} {args : List Value}
    (hm : machine.Confined) (hc : machine.heap.Holds number closure)
    (h : (next.runFunction definition args).Isolated true) :
    (next.callFunction definition closure args).IsolatedFrom machine := by
  have howner : (machine.heap.scope closure.function).owner = number := hc.owner (Heap.function_mem_scopes _)
  unfold Steps.callFunction Steps.inCall
  refine .read_bind hm ?_
  split
  · have hthrow (name message : String) : (throwNamed name message : Run Value).Isolated false :=
      .of_plain (.throwNamed name message : Plain false _)
    exact hthrow _ _ machine ⟨hm, nofun⟩
  · let called : Machine := { machine with callDepth := machine.callDepth + 1 }
    have hcalled : called.Confined := hm.of_heap_eq rfl (Nat.le_refl _)
    have hkeeps : called.Keeps { called with heap := (called.heap.newScope
        ⟨(machine.heap.scope closure.function).owner, []⟩).2 } :=
      .newScope hcalled (howner ▸ hm.lt_runs hc) (.inl rfl)
    refine .bracket hm (.of_heap_eq rfl) (.inl rfl) (.read_bind hcalled (.update_bind hcalled hkeeps ?_))
      fun later he => ⟨rfl, rfl, he⟩
    refine isolatedFrom_within hkeeps.confined (show Machine.Runs _ number from ⟨?_, ?_⟩) h
    · simp [Environment.pushFunction, Environment.scopes]
    · exact hc.newScope ⟨_, []⟩ howner rfl

/-- A program runs in scopes of a new run. -/
theorem isolated_runProgram {body : List Script.Statement} {bindings : List (String × Value)}
    (h : (next.runStatements body bindings).Isolated true) : (next.runProgram body bindings).Isolated inCode := by
  intro machine hm
  let counted : Machine := { machine with runs := machine.runs + 1 }
  have hcounted : machine.Keeps counted := .of_heap_eq hm.confined rfl (Nat.le_succ _) rfl
  unfold Steps.runProgram
  refine .update_bind hm.confined hcounted ?_
  have hplain : globals.Isolated false := .of_plain (.globals : Plain false _)
  have hglobals := hplain counted ⟨hcounted.confined, nofun⟩
  refine hglobals.bind fun global later hr => ?_
  have hlater := hglobals.confined later (passes_of_eq hr)
  obtain ⟨hscopes, hruns⟩ := (.globals : Plain false _).scopes_and_runs counted
  rw [hr] at hscopes hruns
  -- No scope belongs to the new run so far, so the scope of the globals is its first one.
  have hfirst : ∀ (j : Nat) (other : Scope), later.heap.scopes[j]? = some other → other.owner ≠ machine.runs := by
    intro j other ho
    rw [hscopes] at ho
    exact Nat.ne_of_lt (hm.confined.owners j other ho)
  have howner : machine.runs < later.runs := hruns ▸ Nat.lt_succ_self _
  let outer : Scope := ⟨machine.runs, global.map fun binding => (binding.1, ⟨binding.2, true⟩)⟩
  have houter : later.Keeps { later with heap := (later.heap.newScope outer).2 } :=
    .newScope hlater howner (.inr hfirst)
  have hinner := @Machine.Keeps.newScope _ houter.confined ⟨machine.runs, []⟩ howner (.inl rfl)
  have hholds := Heap.holds_newScope later.heap outer
  refine .update_bind hlater houter (.update_bind houter.confined hinner ?_)
  exact isolatedFrom_within hinner.confined ⟨List.cons_ne_nil _ _, hholds.newScope ⟨_, []⟩ rfl rfl⟩ h

/-- Whatever is called, a function written in a script runs in scopes of the run that has made it. -/
theorem isolated_callHost {id : HostId} {args : List Value}
    (hf : ∀ definition, (next.runFunction definition args).Isolated true)
    (hp : ∀ body bindings, (next.runProgram body bindings).Isolated inCode) :
    (next.callHost id args).Isolated inCode := by
  intro machine hm
  unfold Steps.callHost
  refine .read_bind hm.confined ?_
  cases hid : machine.heap.host id with
  | native name action => exact Isolated.of_plain (.native action args) machine hm
  | embedded name respond => exact Isolated.of_plain (.reply _ : Plain false _) machine hm
  | function definition closure properties =>
    obtain ⟨number, hholds⟩ := hm.confined.functions id definition closure properties hid
    exact isolatedFrom_callFunction hm.confined hholds (hf definition)
  | require loader dir parent =>
    exact @Closed.refusing _ _ _ (Isolated.outside inCode).closed _ .none (fun body _ => hp body) loader trivial dir parent
      args machine hm
  | module cache record => exact .fail _ hm.confined
  | cacheView cache => exact .fail _ hm.confined

end Steps

/-- Whatever the rules make keeps the scopes of runs of programs apart. -/
theorem Run.Alike.isolated {n : Nat} {α : Type} {run run' : Run α} (h : Run.Alike Run.Spent n run run') :
    run.Isolated true := by
  induction h with
  | part h =>
    rw [show _ = Run.exhausted from h]
    exact .exhausted
  | plain h => exact .of_plain h
  | bind _ _ ih ihn => exact .bind ih ihn
  | declareVariable name value? => exact .declareVariable name value?
  | declareLexical name value mutable => exact .declareLexical name value mutable
  | assign name value => exact .assign name value
  | newFunction definition _ => exact .newFunction definition
  | inBlock _ ih => exact .inBlock ih
  | @catching _ _ run run' handler handler' _ _ ih ihh =>
    exact @Composed.catching _ _ _ (Isolated.outside true).closed.toComposed run run' handler handler' ih ihh
  | @ensuring _ run run' last last' _ _ ih ihl =>
    exact @Composed.ensuring _ _ (Isolated.outside true).closed.toComposed run run' last last' ih ihl
  | callHost id args _ _ ihf ihp =>
    exact Steps.isolated_callHost ihf fun body bindings => Steps.isolated_runProgram (ihp body bindings)

end ScriptModules
