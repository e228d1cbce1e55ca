import ScriptModules.Proofs.Runs.Resuming

/-!
# The stack of scopes

Read from the outermost scope to the innermost one, an environment is a stack of scopes (`Environment.stack`), and
the scope that receives `var` declarations has a place in it (`Environment.functionIndex`).

Every block and every call that a piece of code enters is left again, however it ends: its run comes back to the
same stack and to the same depth of calls, and on its way it is never deeper than the limit (`Run.Restoring`).
-/

namespace ScriptModules

namespace Environment

variable (env : Environment)

/-- All scopes, the innermost last. -/
def stack (env : Environment) : List ScopeId := env.scopes.reverse

/-- The place of the scope that receives `var` declarations. -/
def functionIndex (env : Environment) : Nat := env.outer.length

/-- The stack of an environment has its function scopes and its blocks. -/
@[simp] theorem length_stack : env.stack.length = env.functionIndex + 1 + env.blocks.length := by
  simp only [stack, scopes, functionIndex, List.length_reverse, List.length_append, List.length_cons]
  omega

/-- The scope that receives `var` declarations is one of the stack. -/
theorem functionIndex_lt : env.functionIndex < env.stack.length := by
  rw [length_stack]
  omega

/-- It is the scope of the innermost function. -/
theorem getElem?_functionIndex : env.stack[env.functionIndex]? = some env.function := by
  have hsplit : env.stack = env.outer.reverse ++ env.function :: env.blocks.reverse := by
    simp [stack, scopes]
  rw [hsplit, List.getElem?_append_right (by simp [functionIndex])]
  simp [functionIndex]

end Environment

/-- The stack of scopes and the depth of calls are those of the first machine again. -/
structure Machine.Restores (machine later : Machine) : Prop where
  stack : later.environment.stack = machine.environment.stack
  functionIndex : later.environment.functionIndex = machine.environment.functionIndex
  callDepth : later.callDepth = machine.callDepth

/-- What holds at each moment of a run that began at the first machine. -/
structure Machine.Bounds (machine later : Machine) : Prop where
  /-- There is a scope at the place where `var` declarations go. -/
  functionIndex : later.environment.functionIndex < later.environment.stack.length
  function : later.environment.stack[later.environment.functionIndex]? = some later.environment.function
  le_callDepth : machine.callDepth ≤ later.callDepth
  /-- Only a run that begins beyond the limit is beyond it. -/
  callDepth_le : later.callDepth ≤ max machine.callDepth callLimit

namespace Machine.Bounds

variable {machine middle later : Machine}

private theorem of_callDepth_eq (h : later.callDepth = machine.callDepth) : machine.Bounds later :=
  ⟨later.environment.functionIndex_lt, later.environment.getElem?_functionIndex, Nat.le_of_eq h.symm,
    h ▸ Nat.le_max_left _ _⟩

private theorem of_start (h : middle.Bounds later) (hd : middle.callDepth = machine.callDepth) : machine.Bounds later :=
  ⟨h.functionIndex, h.function, hd ▸ h.le_callDepth, hd ▸ h.callDepth_le⟩

end Machine.Bounds

namespace Run

variable {α β σ : Type}

/-- The run leaves all blocks and calls that it enters, whatever its outcome. -/
structure Restoring (run : Run α) : Prop where
  ends : ∀ machine : Machine, machine.Restores (run machine).2
  throughout : ∀ machine later : Machine, run.passes machine later → machine.Bounds later

/-- The run comes back to where it began, and is never deeper in calls than the limit. -/
structure Counting (run : Run α) : Prop where
  resuming : run.Resuming
  bounds : ∀ machine later : Machine, run.passes machine later → machine.Bounds later

namespace Counting

private theorem restoring {run : Run α} (h : run.Counting) : run.Restoring where
  ends machine := by
    have hend := h.resuming machine
    exact ⟨congrArg _ hend.environment, congrArg _ hend.environment, hend.callDepth⟩
  throughout := h.bounds

/-! ## Steps -/

/-- A run that is one change of the machine, or none. -/
theorem of_step {run : Run α} (hr : run.Resuming)
    (h : ∀ machine later, run.passes machine later → later = machine ∨ later = (run machine).2) : run.Counting where
  resuming := hr
  bounds machine later hp := by
    rcases h machine later hp with rfl | rfl
    · exact .of_callDepth_eq rfl
    · exact .of_callDepth_eq (hr machine).callDepth

private theorem bind {run : Run α} {next : α → Run β} (h : run.Counting) (hn : ∀ a, (next a).Counting) :
    (Run.bind run next).Counting where
  resuming := .bind h.resuming fun a => (hn a).resuming
  bounds machine later hp := by
    rcases hp with hp | ⟨a, middle, hr, hp⟩
    · exact h.bounds machine later hp
    · have hdepth := (h.resuming machine).callDepth
      rw [hr] at hdepth
      exact ((hn a).bounds middle later hp).of_start hdepth

private theorem newHost (host : Host) : (Run.newHost host).Counting := by
  unfold Run.newHost
  exact .bind (.of_step (.make fun _ => rfl) fun _ _ h => h) fun id => .of_step (.pure _) fun _ _ => .inl

private theorem of_plain {writes : Bool} {run : Run α} (h : run.Plain writes) : run.Counting where
  resuming := .of_plain h
  bounds machine later hp := .of_callDepth_eq (by rw [h.eq_of_passes hp])

/-! ## Runs of runs -/

/-- A run that enters a block or other scopes, and leaves them. -/
theorem bracket {keep : Machine → σ} {enter : Machine → Machine} {leave : σ → Machine → Machine} {run : Run α}
    (hr : (Run.bracket keep enter leave run).Resuming) (he : ∀ machine, (enter machine).callDepth = machine.callDepth)
    (h : run.Counting) : (Run.bracket keep enter leave run).Counting where
  resuming := hr
  bounds machine later hp := by
    rcases hp with rfl | hp | rfl
    · exact .of_callDepth_eq rfl
    · exact (h.bounds _ later hp).of_start (he machine)
    · exact .of_callDepth_eq (hr machine).callDepth

/-- A call begins only below the limit, so that it is inside of it. -/
theorem inCall {run : Run α} (h : run.Counting) : (Steps.inCall run).Counting where
  resuming := .inCall h.resuming
  bounds machine later hp := by
    unfold Steps.inCall at hp
    rcases hp with (rfl | rfl) | ⟨depth, start, hread, hp⟩
    · exact .of_callDepth_eq rfl
    · exact .of_callDepth_eq rfl
    · obtain ⟨hdepth, rfl⟩ := Prod.mk.inj hread
      obtain rfl := Outcome.ok.inj hdepth
      dsimp only at hp
      split at hp
      · exact (of_plain (.throwNamed _ _ : Plain true _)).bounds machine later hp
      · next hlimit =>
        rcases hp with rfl | hp | rfl
        · exact .of_callDepth_eq rfl
        · obtain ⟨hindex, hfunction, hle, hle'⟩ := h.bounds _ later hp
          have hlimit : machine.callDepth + 1 ≤ callLimit := Nat.lt_of_not_le hlimit
          refine ⟨hindex, hfunction, Nat.le_of_succ_le hle, Nat.le_trans hle' ?_⟩
          exact Nat.max_le.2 ⟨Nat.le_trans hlimit (Nat.le_max_right _ _), Nat.le_max_right _ _⟩
        · exact .of_callDepth_eq (Nat.sub_eq_of_eq_add (h.resuming _).callDepth)

private theorem closed : Closed true (fun _ => True) fun run _ => run.Counting where
  plain := .of_plain
  note event := .of_step (Resuming.kept.note event) fun _ _ h => h
  exhausted := .of_step (fun machine => .refl machine) fun _ _ => .inl
  bind := .bind
  attempt h := ⟨.attempt h.resuming, h.bounds⟩
  change h := .of_step (Resuming.kept.change h) fun _ _ h => h
  newRequire _ _ _ := .newHost _

/-- Whatever the rules make comes back, and is never deeper in calls than the limit. -/
theorem kept : Kept true (fun _ => True) fun run _ => run.Counting where
  toClosed := closed
  spent := closed.exhausted
  scopes h := .of_step (Resuming.kept.scopes h) fun _ _ h => h
  newFunction definition := by
    unfold Run.newFunction
    refine .bind (.of_step (.make fun _ => rfl) fun _ _ h => h) fun properties => ?_
    exact .bind (.of_step (.read _) fun _ _ h => h) fun environment => .newHost _
  within environment h := .bracket (.within environment h.resuming) (fun _ => rfl) h
  inBlock h := .bracket (.inBlock h.resuming) (fun _ => rfl) h
  inCall := .inCall
  callHost := @fun next next' => @Closed.callHost _ _ closed (fun _ => trivial) next next'

end Counting
end Run

namespace Steps

open Run

/-- Whatever a statement or an expression does and however it ends, with a value, with a return, with a failure that
comes up at any depth or because its steps are used up, it comes back to the scopes and the depth of calls that it
began in.  On its way there is always a scope for `var` declarations, and it is never deeper in calls than the
limit. -/
theorem restoring_steps (fuel : Nat) :
    (∀ statement, ((steps fuel).execute statement).Restoring) ∧
      ∀ expression, ((steps fuel).evaluate expression).Restoring := by
  constructor
  · intro statement
    have hsteps := steps_alike fuel (sizeOf statement + 1)
    exact (Counting.kept.alike (hsteps.execute statement (Nat.lt_succ_self _))).restoring
  · intro expression
    have hsteps := steps_alike fuel (sizeOf expression + 1)
    exact (Counting.kept.alike (hsteps.evaluate expression (Nat.lt_succ_self _))).restoring

end Steps
end ScriptModules
