import ScriptModules.Proofs.Runs.Closed
import ScriptModules.Proofs.Runs.Outcome

/-!
# What runs come back to

Whatever a script does and however it ends, the code around it goes on in the same scopes and inside of the same
calls, with the same loaders, registries and number of caches (`Run.Resuming.kept`).
-/

namespace ScriptModules

/-- Code that was run at the first machine can go on at the second one. -/
structure Machine.Resumes (machine later : Machine) : Prop where
  environment : later.environment = machine.environment
  callDepth : later.callDepth = machine.callDepth
  loaders : later.loaders = machine.loaders
  registries : later.registries = machine.registries
  caches : later.heap.caches.size = machine.heap.caches.size

namespace Machine.Resumes

variable {machine later last : Machine}

theorem refl (machine : Machine) : machine.Resumes machine := ⟨rfl, rfl, rfl, rfl, rfl⟩

private theorem trans (h : machine.Resumes later) (h' : later.Resumes last) : machine.Resumes last :=
  ⟨h'.environment.trans h.environment, h'.callDepth.trans h.callDepth, h'.loaders.trans h.loaders,
    h'.registries.trans h.registries, h'.caches.trans h.caches⟩

theorem loader (h : machine.Resumes later) (id : LoaderId) : later.loader id = machine.loader id := by
  rw [Machine.loader, h.loaders]
  rfl

end Machine.Resumes

namespace Run

/-- The run comes back to where it began. -/
def Resuming {α : Type} (run : Run α) : Prop := ∀ machine : Machine, machine.Resumes (run machine).2

namespace Resuming

variable {α β σ : Type}

/-! ## Steps -/

theorem pure (a : α) : (Run.pure a).Resuming := fun machine => .refl machine

private theorem fail (failure : Failure) : (Run.fail failure : Run α).Resuming := fun machine => .refl machine

private theorem update {f : Machine → α × Machine} (h : ∀ machine, Machine.Resumes machine (f machine).2) :
    (Run.update f).Resuming := h

theorem read (f : Machine → α) : (Run.read f).Resuming := fun machine => .refl machine

theorem make {f : Heap → α × Heap} (h : ∀ heap, (f heap).2.caches.size = heap.caches.size) :
    (Run.make f).Resuming :=
  fun machine => ⟨rfl, rfl, rfl, rfl, h machine.heap⟩

theorem bind {run : Run α} {next : α → Run β} (h : run.Resuming) (hn : ∀ a, (next a).Resuming) :
    (Run.bind run next).Resuming := by
  intro machine
  have hrun := h machine
  cases hr : run machine with
  | mk outcome later =>
    rw [hr] at hrun
    cases outcome with
    | ok a =>
      rw [bind_ok hr]
      exact hrun.trans (hn a later)
    | failed failure => rwa [bind_failed hr]
    | exhausted => rwa [bind_exhausted hr]

theorem attempt {run : Run α} (h : run.Resuming) : (Run.attempt run).Resuming := by
  intro machine
  have hrun := h machine
  simp only [Run.attempt]
  split <;> next heq => rwa [heq] at hrun

private theorem newHost (host : Host) : (Run.newHost host).Resuming := by
  unfold Run.newHost
  exact .bind (.make fun _ => rfl) fun _ => .pure _

theorem of_plain {writes : Bool} {run : Run α} (h : run.Plain writes) : run.Resuming := by
  induction h with
  | pure a => exact .pure a
  | fail failure => exact .fail failure
  | bind _ _ ih ihn => exact .bind ih ihn
  | update h =>
    intro machine
    have hs := h machine
    rw [Run.update, hs.elsewhere]
    exact ⟨rfl, rfl, rfl, rfl, congrArg Array.size hs.heap.caches⟩
  | note _ => exact fun _ => ⟨rfl, rfl, rfl, rfl, rfl⟩
  | changeSite id f _ => exact fun _ => ⟨rfl, rfl, rfl, rfl, rfl⟩
  | assignExports cache id exports =>
    refine .update fun machine => ?_
    split
    · exact ⟨rfl, rfl, rfl, rfl, Array.size_modify⟩
    · exact .refl machine

/-! ## Runs of runs -/

/-- A run that leaves what it has entered. -/
theorem bracket {keep : Machine → σ} {enter : Machine → Machine} {leave : σ → Machine → Machine} {run : Run α}
    (h : ∀ machine later : Machine, (enter machine).Resumes later →
      machine.Resumes (leave (keep machine) later)) (hr : run.Resuming) :
    (Run.bracket keep enter leave run).Resuming :=
  fun machine => h machine _ (hr (enter machine))

theorem within {run : Run α} (environment : Environment) (h : run.Resuming) :
    (Run.within environment run).Resuming :=
  .bracket (fun _ _ hs => ⟨rfl, hs.callDepth, hs.loaders, hs.registries, hs.caches⟩) h

theorem inBlock {run : Run α} (h : run.Resuming) : (Run.inBlock run).Resuming := by
  refine .bracket (fun machine later hs => ⟨?_, hs.callDepth, hs.loaders, hs.registries, hs.caches⟩) h
  change later.environment.pop = _
  rw [hs.environment]
  rfl

theorem inCall {run : Run α} (h : run.Resuming) : (Steps.inCall run).Resuming := by
  unfold Steps.inCall
  refine .bind (.read _) fun depth => ?_
  split
  · exact .of_plain (.throwNamed _ _ : Plain false _)
  · exact .bracket (fun _ _ hs =>
      ⟨hs.environment, Nat.sub_eq_of_eq_add hs.callDepth, hs.loaders, hs.registries, hs.caches⟩) h

/-- Loads come back when programs do. -/
private theorem closed : Closed true (fun _ => True) fun run _ => run.Resuming where
  plain := .of_plain
  note _ _ := ⟨rfl, rfl, rfl, rfl, rfl⟩
  exhausted machine := .refl machine
  bind := .bind
  attempt := .attempt
  change h := .update fun machine => by
    rw [(h machine).elsewhere]
    exact ⟨rfl, rfl, rfl, rfl, (h machine).caches⟩
  newRequire _ _ _ := .newHost _

/-- Whatever the rules make comes back to where it began. -/
theorem kept : Kept true (fun _ => True) fun run _ => run.Resuming where
  toClosed := closed
  spent := closed.exhausted
  scopes h := .update fun machine => by
    rw [h machine]
    exact ⟨rfl, rfl, rfl, rfl, rfl⟩
  newFunction definition := by
    unfold Run.newFunction
    exact .bind (.make fun _ => rfl) fun properties => .bind (.read _) fun environment => .newHost _
  within := .within
  inBlock := .inBlock
  inCall := .inCall
  callHost := @fun next next' => @Closed.callHost _ _ closed (fun _ => trivial) next next'

end Resuming
end Run

/-- Whatever a request does comes back to where it began. -/
theorem resuming_require (fuel : Nat) (loader : LoaderId) (specifier : String) (dir : Path) (parent : Option Path) :
    ((steps fuel).require loader specifier dir parent).Resuming :=
  Run.Resuming.kept.steps_require fuel trivial specifier dir parent

end ScriptModules
