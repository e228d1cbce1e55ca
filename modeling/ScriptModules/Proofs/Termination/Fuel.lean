import ScriptModules.Proofs.Runs.Closed
import ScriptModules.Proofs.Runs.Outcome

/-!
# More steps change nothing

A run that comes to its end does the same when it may take more steps (`Run.Refines`).  So it is enough to find some
number of steps that are not used up (`Run.Settles.of_ne_exhausted`).
-/

namespace ScriptModules

namespace Run

variable {α β σ : Type}

/-- The second run does what the first one does, unless the steps of that are used up. -/
def Refines (run run' : Run α) : Prop :=
  ∀ machine : Machine, (run machine).1 = .exhausted ∨ run' machine = run machine

/-- From some number of steps on the run comes to the same end. -/
def Settles (run : Nat → Run α) (machine : Machine) : Prop :=
  ∃ enough outcome later, outcome ≠ .exhausted ∧ ∀ fuel, enough ≤ fuel → run fuel machine = (outcome, later)

/-- If one more step never changes an end, it is enough that the run ends with some number of steps. -/
theorem Settles.of_ne_exhausted {run : Nat → Run α} {machine : Machine} {enough : Nat}
    (h : ∀ fuel, (run fuel).Refines (run (fuel + 1))) (hr : (run enough machine).1 ≠ .exhausted) :
    Settles run machine := by
  refine ⟨enough, _, (run enough machine).2, hr, fun fuel hf => ?_⟩
  change run fuel machine = run enough machine
  induction hf with
  | refl => rfl
  | step _ ih => exact ((h _ machine).resolve_left (ih ▸ hr)).trans ih

namespace Refines

variable {machine : Machine}

private theorem refl (run : Run α) : run.Refines run := fun _ => .inr rfl

private theorem bind {run run' : Run α} {next next' : α → Run β} (h : run.Refines run')
    (hn : ∀ a, (next a).Refines (next' a)) : (Run.bind run next).Refines (Run.bind run' next') := by
  intro machine
  cases hr : run machine with
  | mk outcome later =>
    have hr' := h machine
    rw [hr] at hr'
    cases outcome with
    | ok a =>
      rw [bind_ok hr, bind_ok (hr'.resolve_left nofun)]
      exact hn a later
    | failed failure =>
      rw [bind_failed hr, bind_failed (hr'.resolve_left nofun)]
      exact .inr rfl
    | exhausted =>
      rw [bind_exhausted hr]
      exact .inl rfl

private theorem attempt {run run' : Run α} (h : run.Refines run') : (Run.attempt run).Refines (Run.attempt run') := by
  intro machine
  rcases h machine with h | h
  · left
    cases hr : run machine with
    | mk outcome later =>
      rw [hr] at h
      obtain rfl : outcome = .exhausted := h
      simp only [Run.attempt, hr]
  · right
    simp only [Run.attempt, h]

private theorem bracket {keep : Machine → σ} {enter : Machine → Machine} {leave : σ → Machine → Machine}
    {run run' : Run α}
    (h : run.Refines run') : (Run.bracket keep enter leave run).Refines (Run.bracket keep enter leave run') := by
  intro machine
  rcases h (enter machine) with h | h
  · exact .inl h
  · right
    simp only [Run.bracket, h]

/-- Loads do the same with more steps when programs do. -/
private theorem closed : Closed true (fun _ => True) @Refines where
  plain _ := .refl _
  note _ := .refl _
  exhausted := .refl _
  bind := .bind
  attempt := .attempt
  change _ := .refl _
  newRequire _ _ _ := .refl _

/-- Whatever the rules make does the same with more steps. -/
theorem kept : Kept true (fun _ => True) @Refines where
  toClosed := closed
  spent _ := .inl rfl
  scopes _ := .refl _
  newFunction _ := .refl _
  within _ := .bracket
  inBlock := .bracket
  inCall h := by
    unfold Steps.inCall
    refine .bind (.refl _) fun depth => ?_
    split
    · exact .refl _
    · exact .bracket h
  callHost := closed.callHost fun _ => trivial

end Refines
end Run
end ScriptModules
