import ScriptModules.Machine.Evaluation

/-!
# How composed runs end

The outcome of a run that is made of others, told from the outcomes of its parts (`Run.bind_inv`,
`Run.onFailure_inv`, `Run.catching_inv`, `Run.ensuring_inv`).
-/

namespace ScriptModules

theorem Outcome.ok_ne_exhausted {α : Type} (a : α) : Outcome.ok a ≠ .exhausted := by simp

theorem Outcome.failed_ne_exhausted {α : Type} (failure : Failure) :
    (Outcome.failed failure : Outcome α) ≠ .exhausted := by simp

namespace Run

variable {α β : Type} {machine later last : Machine}

/-- A run goes through the machine that it ends at. -/
theorem passes_of_eq {run : Run α} {outcome : Outcome α} (h : run machine = (outcome, later)) :
    run.passes machine later := by
  have hend := run.passes_end machine
  rwa [h] at hend

/-- A run is known by what it does, and by the machines and the changes on its way. -/
theorem ext {run run' : Run α} (happly : run.apply = run'.apply)
    (hpasses : ∀ machine other, run.passes machine other ↔ run'.passes machine other)
    (hmoves : ∀ machine before after, run.moves machine before after ↔ run'.moves machine before after) :
    run = run' := by
  obtain ⟨apply, passes, moves, _, _, _⟩ := run
  obtain ⟨apply', passes', moves', _, _, _⟩ := run'
  obtain rfl : apply = apply' := happly
  obtain rfl : passes = passes' := funext fun machine => funext fun other => propext (hpasses machine other)
  obtain rfl : moves = moves' :=
    funext fun machine => funext fun before => funext fun after => propext (hmoves machine before after)
  rfl

/-- From this machine the run is a single step, to this result and this machine. -/
structure IsStep (run : Run α) (machine : Machine) (a : α) (later : Machine) : Prop where
  eq : run machine = (.ok a, later)
  passes : ∀ other, run.passes machine other → other = machine ∨ other = later

theorem IsStep.update {f : Machine → α × Machine} {a : α} (h : f machine = (a, later)) :
    (update f).IsStep machine a later := by
  refine ⟨?_, fun other hp => ?_⟩
  · simp only [Run.update, h]
  · rcases hp with hp | hp
    · exact .inl hp
    · rw [h] at hp
      exact .inr hp

section

variable {run : Run α} {next : α → Run β}

theorem bind_ok {a : α} (h : run machine = (.ok a, later)) : Run.bind run next machine = next a later := by
  simp only [Run.bind, h]

/-- What begins with a look at the machine goes on with what is seen. -/
theorem read_bind (f : Machine → α) (next : α → Run β) (machine : Machine) :
    (read f >>= next) machine = next (f machine) machine :=
  bind_ok rfl

theorem heap_bind (next : Heap → Run β) (machine : Machine) : (heap >>= next) machine = next machine.heap machine :=
  bind_ok rfl

theorem bind_failed {failure : Failure} (h : run machine = (.failed failure, later)) :
    Run.bind run next machine = (.failed failure, later) := by
  simp only [Run.bind, h]

theorem bind_exhausted (h : run machine = (.exhausted, later)) :
    Run.bind run next machine = (.exhausted, later) := by
  simp only [Run.bind, h]

/-- An attempt ends where the run that it is of ends. -/
theorem attempt_snd (run : Run α) (machine : Machine) : (attempt run machine).2 = (run machine).2 := by
  simp only [attempt]
  split <;> next hr => rw [show run machine = _ from hr]

/-- What goes on with a result begins at once. -/
theorem pure_bind (a : α) : Run.bind (Run.pure a) next = next a := by
  have hpasses (machine other : Machine) :
      (Run.bind (Run.pure a) next).passes machine other ↔ (next a).passes machine other := by
    constructor
    · rintro (rfl | ⟨b, middle, hb, hp⟩)
      · exact (next a).passes_start _
      · obtain ⟨he, rfl⟩ := Prod.mk.inj hb
        exact Outcome.ok.inj he ▸ hp
    · exact fun hp => .inr ⟨a, machine, rfl, hp⟩
  have hmoves (machine before after : Machine) :
      (Run.bind (Run.pure a) next).moves machine before after ↔ (next a).moves machine before after := by
    constructor
    · rintro (hm | ⟨b, middle, hb, hm⟩)
      · exact hm.elim
      · obtain ⟨he, rfl⟩ := Prod.mk.inj hb
        exact Outcome.ok.inj he ▸ hm
    · exact fun hm => .inr ⟨a, machine, rfl, hm⟩
  exact ext rfl hpasses hmoves

theorem fail_bind (failure : Failure) : Run.bind (Run.fail failure) next = Run.fail failure := by
  refine ext rfl (fun machine other => ⟨?_, .inl⟩) fun machine before after => ⟨?_, .inl⟩
  · rintro (h | ⟨b, middle, hb, _⟩)
    · exact h
    · cases (Prod.mk.inj hb).1
  · rintro (h | ⟨b, middle, hb, _⟩)
    · exact h
    · cases (Prod.mk.inj hb).1

/-- What a run goes through that begins with a single step. -/
theorem IsStep.bind_passes {a : α} (h : run.IsStep machine a later)
    (hp : (Run.bind run next).passes machine last) : last = machine ∨ (next a).passes later last := by
  rcases hp with hp | ⟨b, middle, hrun, hp⟩
  · rcases h.passes last hp with rfl | rfl
    · exact .inl rfl
    · exact .inr ((next a).passes_start _)
  · rw [h.eq] at hrun
    obtain ⟨he, rfl⟩ := Prod.mk.inj hrun
    obtain rfl := Outcome.ok.inj he
    exact .inr hp

/-- A run that goes on with what another one results in ends where that one ends, or goes on. -/
theorem bind_inv {outcome : Outcome β} (h : Run.bind run next machine = (outcome, last)) :
    (∃ a later, run machine = (.ok a, later) ∧ next a later = (outcome, last)) ∨
      (∃ failure, run machine = (.failed failure, last) ∧ outcome = .failed failure) ∨
      run machine = (.exhausted, last) ∧ outcome = .exhausted := by
  cases hrun : run machine with
  | mk first later =>
    cases first with
    | ok a =>
      rw [bind_ok hrun] at h
      exact .inl ⟨a, later, rfl, h⟩
    | failed failure =>
      rw [bind_failed hrun] at h
      obtain ⟨rfl, rfl⟩ := Prod.mk.inj h
      exact .inr (.inl ⟨failure, rfl, rfl⟩)
    | exhausted =>
      rw [bind_exhausted hrun] at h
      obtain ⟨rfl, rfl⟩ := Prod.mk.inj h
      exact .inr (.inr ⟨rfl, rfl⟩)

end

/-- A result leaves the machine as it is, and fails as it says. -/
theorem ofExcept_inv {result : Except Failure α} {outcome : Outcome α}
    (h : ofExcept result machine = (outcome, later)) :
    later = machine ∧ (∀ failure, result = .error failure ↔ outcome = .failed failure) ∧
      outcome ≠ .exhausted := by
  cases result with
  | ok a =>
    obtain ⟨rfl, rfl⟩ := Prod.mk.inj h
    simp
  | error failure =>
    obtain ⟨rfl, rfl⟩ := Prod.mk.inj h
    simp

/-- A change of the heap that can be made is made. -/
theorem tryHeap_ok {f : Heap → Except Failure Heap} {heap : Heap} (h : f machine.heap = .ok heap) :
    tryHeap f machine = (.ok (), { machine with heap }) := by
  unfold tryHeap
  refine (bind_ok (show _ = (Outcome.ok (Except.ok ()), _) from ?_)).trans rfl
  simp only [make, update, h]

/-- A change of the heap that cannot be made fails, and changes nothing. -/
theorem tryHeap_error {f : Heap → Except Failure Heap} {failure : Failure} (h : f machine.heap = .error failure) :
    tryHeap f machine = (.failed failure, machine) := by
  unfold tryHeap
  refine (bind_ok (show _ = (Outcome.ok (Except.error failure), _) from ?_)).trans rfl
  simp only [make, update, h]

section

variable {run : Run α}

/-- How a run ends whose failure is caught. -/
theorem attempt_inv {outcome : Outcome (Except Failure α)} (h : attempt run machine = (outcome, later)) :
    (∃ a, run machine = (.ok a, later) ∧ outcome = .ok (.ok a)) ∨
      (∃ failure, run machine = (.failed failure, later) ∧ outcome = .ok (.error failure)) ∨
      run machine = (.exhausted, later) ∧ outcome = .exhausted := by
  simp only [attempt] at h
  split at h <;> next hrun =>
    obtain ⟨rfl, rfl⟩ := Prod.mk.inj h
    simp [hrun]

/-- A run that goes on with the reported outcome of another one goes on with its result or with its failure. -/
theorem attempt_bind_inv {next : Except Failure α → Run β} {outcome : Outcome β}
    (h : Run.bind (attempt run) next machine = (outcome, last)) :
    (∃ a later, run machine = (.ok a, later) ∧ next (.ok a) later = (outcome, last)) ∨
      (∃ failure later, run machine = (.failed failure, later) ∧
        next (.error failure) later = (outcome, last)) ∨
      run machine = (.exhausted, last) ∧ outcome = .exhausted := by
  rcases bind_inv h with ⟨result, later, hrun, h⟩ | ⟨failure, hrun, rfl⟩ | ⟨hrun, rfl⟩
  · rcases attempt_inv hrun with ⟨a, hfirst, hr⟩ | ⟨failure, hfirst, hr⟩ | ⟨_, hr⟩
    · obtain rfl := Outcome.ok.inj hr
      exact .inl ⟨a, later, hfirst, h⟩
    · obtain rfl := Outcome.ok.inj hr
      exact .inr (.inl ⟨failure, later, hfirst, h⟩)
    · contradiction
  · -- What is attempted does not fail.
    rcases attempt_inv hrun with ⟨_, _, hr⟩ | ⟨_, _, hr⟩ | ⟨_, hr⟩ <;> contradiction
  · rcases attempt_inv hrun with ⟨_, _, hr⟩ | ⟨_, _, hr⟩ | ⟨hrun, _⟩
    · contradiction
    · contradiction
    · exact .inr (.inr ⟨hrun, rfl⟩)

theorem onFailure_ok {after : Failure → Run Unit} {a : α} (h : run machine = (.ok a, later)) :
    onFailure run after machine = (.ok a, later) := by
  have hattempt : attempt run machine = (.ok (.ok a), later) := by simp only [attempt, h]
  exact bind_ok hattempt

theorem onFailure_failed {after : Failure → Run Unit} {failure : Failure} (h : run machine = (.failed failure, later))
    (ha : after failure later = (.ok (), last)) : onFailure run after machine = (.failed failure, last) := by
  have hattempt : attempt run machine = (.ok (.error failure), later) := by simp only [attempt, h]
  exact (bind_ok hattempt).trans (bind_ok ha)

/-- What is done on a failure is done only then, and the failure goes on. -/
theorem onFailure_inv {after : Failure → Run Unit} {outcome : Outcome α}
    (ha : ∀ failure m, (after failure m).1 = .ok ()) (h : onFailure run after machine = (outcome, last)) :
    (∃ a, run machine = (.ok a, last) ∧ outcome = .ok a) ∨
      (∃ failure later, run machine = (.failed failure, later) ∧ outcome = .failed failure ∧
        last = (after failure later).2) ∨
      run machine = (.exhausted, last) ∧ outcome = .exhausted := by
  rcases attempt_bind_inv h with ⟨a, later, hrun, h⟩ | ⟨failure, later, hrun, h⟩ | hrun
  · obtain ⟨rfl, rfl⟩ := Prod.mk.inj h
    exact .inl ⟨a, hrun, rfl⟩
  · have hafter : after failure later = (.ok (), (after failure later).2) := Prod.ext (ha failure later) rfl
    have hfail : Run.bind (after failure) (fun _ => fail failure) later = (outcome, last) := h
    rw [bind_ok hafter] at hfail
    obtain ⟨rfl, rfl⟩ := Prod.mk.inj hfail
    exact .inr (.inl ⟨failure, later, hrun, rfl, rfl⟩)
  · exact .inr (.inr hrun)

/-- What a run goes through that does something on a failure. -/
theorem onFailure_passes {after : Failure → Run Unit} (h : (onFailure run after).passes machine last) :
    run.passes machine last ∨
      ∃ failure later, run machine = (.failed failure, later) ∧ (after failure).passes later last := by
  rcases h with h | ⟨result, later, hrun, h⟩
  · exact .inl h
  · rcases attempt_inv hrun with ⟨a, hfirst, ha⟩ | ⟨failure, hfirst, ha⟩ | ⟨_, ha⟩
    · obtain rfl := Outcome.ok.inj ha
      rw [show last = later from h]
      exact .inl (passes_of_eq hfirst)
    · obtain rfl := Outcome.ok.inj ha
      refine .inr ⟨failure, later, hfirst, ?_⟩
      rcases h with h | ⟨_, end', hafter, h⟩
      · exact h
      · rw [show last = end' from h]
        exact passes_of_eq hafter
    · contradiction

/-- A failure that is caught is dropped, and its handler runs. -/
theorem catching_inv {handler : Failure → Run α} {outcome : Outcome α}
    (h : catching run handler machine = (outcome, last)) :
    (∃ a, run machine = (.ok a, last) ∧ outcome = .ok a) ∨
      (∃ failure later, run machine = (.failed failure, later) ∧
        handler failure { later with
          events := .dropped machine.events.length later.events.length :: later.events } = (outcome, last)) ∨
      run machine = (.exhausted, last) ∧ outcome = .exhausted := by
  unfold catching at h
  rw [show (bind now _ : Run α) machine = _ from bind_ok rfl] at h
  rcases attempt_bind_inv h with ⟨a, later, hrun, h⟩ | ⟨failure, later, hrun, h⟩ | hrun
  · obtain ⟨rfl, rfl⟩ := Prod.mk.inj h
    exact .inl ⟨a, hrun, rfl⟩
  · exact .inr (.inl ⟨failure, later, hrun, h⟩)
  · exact .inr (.inr hrun)

/-- How `ensuring` goes on after its first part has ended with this result, between these two points. -/
private theorem ensuring_last_inv {second : Run Completion} {result : Except Failure Completion}
    {first outcome : Outcome Completion} {since till : Nat} (hr : ∀ m, ofExcept result m = (first, m))
    (h : Run.bind (onFailure second fun _ => note (.dropped since till)) (fun
      | .returned value => do
        note (.dropped since till)
        return .returned value
      | .normal _ => ofExcept result) machine = (outcome, last)) :
    (∃ value, second machine = (.ok (.normal value), last) ∧ outcome = first) ∨
      (∃ done, second machine = (outcome, done) ∧ (∀ value, outcome ≠ .ok (.normal value)) ∧
        last = { done with events := .dropped since till :: done.events }) ∨
      second machine = (.exhausted, last) ∧ outcome = .exhausted := by
  have hnote (failure : Failure) (m : Machine) :
      ((fun _ => note (.dropped since till) : Failure → Run Unit) failure m).1 = .ok () := rfl
  rcases bind_inv h with ⟨completion, done, hlast, h⟩ | ⟨failure, hlast, rfl⟩ | ⟨hlast, rfl⟩
  · rcases onFailure_inv hnote hlast with ⟨_, hsecond, ha⟩ | ⟨_, _, _, ha, _⟩ | ⟨_, ha⟩
    · obtain rfl := Outcome.ok.inj ha
      cases completion with
      | normal value =>
        obtain ⟨rfl, rfl⟩ := Prod.mk.inj ((hr done).symm.trans h)
        exact .inl ⟨value, hsecond, rfl⟩
      | returned value =>
        obtain ⟨rfl, rfl⟩ := Prod.mk.inj h
        exact .inr (.inl ⟨done, hsecond, nofun, rfl⟩)
    · cases ha
    · cases ha
  · rcases onFailure_inv hnote hlast with ⟨_, _, ha⟩ | ⟨raised, done, hsecond, ha, rfl⟩ | ⟨_, ha⟩
    · cases ha
    · obtain rfl := Outcome.failed.inj ha
      exact .inr (.inl ⟨done, hsecond, nofun, rfl⟩)
    · cases ha
  · rcases onFailure_inv hnote hlast with ⟨_, _, ha⟩ | ⟨_, _, _, ha, _⟩ | ⟨hsecond, _⟩
    · cases ha
    · cases ha
    · exact .inr (.inr ⟨hsecond, rfl⟩)

/-- What runs last keeps the first outcome if it comes to its end.  If it fails or returns, the first outcome is
dropped. -/
theorem ensuring_inv {run second : Run Completion} {outcome : Outcome Completion}
    (h : ensuring run second machine = (outcome, last)) :
    (∃ first middle, run machine = (first, middle) ∧ first ≠ .exhausted ∧
      ((∃ value, second middle = (.ok (.normal value), last) ∧ outcome = first) ∨
        (∃ done, second middle = (outcome, done) ∧ (∀ value, outcome ≠ .ok (.normal value)) ∧ last = { done with
          events := .dropped machine.events.length middle.events.length :: done.events }) ∨
        second middle = (.exhausted, last) ∧ outcome = .exhausted)) ∨
      run machine = (.exhausted, last) ∧ outcome = .exhausted := by
  unfold ensuring at h
  rw [show (bind now _ : Run Completion) machine = _ from bind_ok rfl] at h
  rcases attempt_bind_inv h with ⟨a, middle, hrun, h⟩ | ⟨failure, middle, hrun, h⟩ | hrun
  · rw [show (bind now _ : Run Completion) middle = _ from bind_ok rfl] at h
    exact .inl ⟨_, middle, hrun, nofun, ensuring_last_inv (fun _ => rfl) h⟩
  · rw [show (bind now _ : Run Completion) middle = _ from bind_ok rfl] at h
    exact .inl ⟨_, middle, hrun, nofun, ensuring_last_inv (fun _ => rfl) h⟩
  · exact .inr hrun

end

end Run
end ScriptModules
