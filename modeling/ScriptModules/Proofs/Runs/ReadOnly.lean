import ScriptModules.Proofs.Runs.HostKinds

/-!
# Who changes files

Modules change files only through the function of the builtin module that writes them.  Where there is no such
function, files are the same at each moment of a run (`Run.leavesFiles_require`).
-/

namespace ScriptModules

/-- Is the object a native function that writes files? -/
def Host.writes : Host → Bool
  | .native _ action => action.writes
  | _ => false

/-- There is no function that writes files. -/
def Machine.ReadOnly (machine : Machine) : Prop := ∀ id, (machine.heap.host id).writes = false

/-- Code makes no function that writes files. -/
theorem Host.isKind_readOnly : Host.IsKind false (fun _ => True) fun host => host.writes = false where
  passive host h := by
    cases host with
    | native name action => exact Bool.not_eq_true' _ ▸ h
    | _ => rfl
  function _ _ _ := rfl
  require _ _ _ := iff_of_true rfl trivial
  native _ _ h _ := h

namespace Run

variable {α : Type}

/-- From this machine on the run makes no function that writes files, and files stay as they are. -/
def LeavesFilesAt (run : Run α) (machine : Machine) : Prop :=
  ∀ later, run.passes machine later → later.ReadOnly ∧ later.sites = machine.sites

/-- Where there is no function that writes files, the run leaves them as they are. -/
def LeavesFiles (run : Run α) : Prop := ∀ machine : Machine, machine.ReadOnly → run.LeavesFilesAt machine

private theorem KeepsTo.leavesFiles {run : Run α} (h : run.KeepsTo false fun host => host.writes = false) :
    run.LeavesFiles := by
  intro machine hm later hp
  obtain ⟨hlater, hs⟩ := h machine hm later hp
  exact ⟨hlater, hs.sites rfl⟩

/-- Where no function writes files, requiring a module leaves them as they are. -/
theorem leavesFiles_require (fuel : Nat) (loader : LoaderId) (specifier : String) (dir : Path) (parent : Option Path) :
    ((steps fuel).require loader specifier dir parent).LeavesFiles :=
  ((KeepsTo.kept Host.isKind_readOnly).steps_require fuel trivial specifier dir parent).leavesFiles

end Run
end ScriptModules
