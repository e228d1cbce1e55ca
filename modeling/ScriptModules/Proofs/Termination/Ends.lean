import ScriptModules.Proofs.Runs.Closed
import ScriptModules.Proofs.Termination.Budget

/-!
# Code comes to an end

As long as files stay as they are, what is put together of runs that come to an end comes to an end itself
(`Run.EndsAt` from one machine, `Run.Ends` from all that have less than some bound to spend).  A call of a function
takes something of what is left (`Steps.ends_callFunction`).
-/

namespace ScriptModules

namespace Run

variable {α β σ : Type} {realm : Realm} {machine : Machine} {b : Nat}

/-- The run does not change files, if anything is loaded at all. -/
def Unchanging (realm : Realm) (run : Run α) (machine : Machine) : Prop :=
  realm.loads = true → ∀ later, run.passes machine later → later.sites = realm.start.sites

/-- From this machine the run comes to an end, unless it changes files, and leaves as much to spend as it found. -/
def EndsAt (realm : Realm) (run : Run α) (machine : Machine) : Prop :=
  run.Unchanging realm machine → (run machine).1 ≠ .exhausted ∧ machine.Stays realm (run machine).2

/-- The run comes to an end wherever there is less than this to spend. -/
def Ends (realm : Realm) (b : Nat) (run : Run α) : Prop :=
  ∀ machine : Machine, machine.Tame realm → machine.budget realm < b → run.EndsAt realm machine

/-! ## From one machine -/

namespace EndsAt

/-- At the machine that the run begins at, files are what they were at the start. -/
theorem of_sites {run : Run α}
    (h : (realm.loads = true → machine.sites = realm.start.sites) → run.EndsAt realm machine) :
    run.EndsAt realm machine :=
  fun hu => h (fun hl => hu hl machine (run.passes_start machine)) hu

theorem pure (a : α) (hm : machine.Tame realm) : (Run.pure a).EndsAt realm machine :=
  fun _ => ⟨Outcome.ok_ne_exhausted a, .refl hm⟩

theorem fail (failure : Failure) (hm : machine.Tame realm) : (Run.fail failure : Run α).EndsAt realm machine :=
  fun _ => ⟨Outcome.failed_ne_exhausted failure, .refl hm⟩

private theorem update {f : Machine → α × Machine} (h : machine.Stays realm (f machine).2) :
    (Run.update f).EndsAt realm machine :=
  fun _ => ⟨Outcome.ok_ne_exhausted _, h⟩

/-- One run after the other, where the first one leaves as much to spend as it found. -/
theorem bind {run : Run α} {next : α → Run β} (h : run.EndsAt realm machine)
    (hn : ∀ a later, run machine = (.ok a, later) → machine.Stays realm later → (next a).EndsAt realm later) :
    (Run.bind run next).EndsAt realm machine := by
  intro hu
  obtain ⟨hends, hstays⟩ := h fun hl later hp => hu hl later (.inl hp)
  cases hr : run machine with
  | mk outcome later =>
    rw [hr] at hends hstays
    cases outcome with
    | ok a =>
      rw [bind_ok hr]
      obtain ⟨hlast, hs⟩ := hn a later hr hstays fun hl last hp => hu hl last (.inr ⟨a, later, hr, hp⟩)
      exact ⟨hlast, hstays.trans hs⟩
    | failed failure =>
      rw [bind_failed hr]
      exact ⟨Outcome.failed_ne_exhausted failure, hstays⟩
    | exhausted => exact absurd rfl hends

/-- A run that begins with a change, or with a look at the machine. -/
theorem update_bind {f : Machine → α × Machine} {next : α → Run β} (h : machine.Stays realm (f machine).2)
    (hn : (next (f machine).1).EndsAt realm (f machine).2) : (Run.bind (Run.update f) next).EndsAt realm machine := by
  refine (update h).bind fun a later hr _ => ?_
  obtain ⟨ha, rfl⟩ := Prod.mk.inj hr
  exact Outcome.ok.inj ha ▸ hn

theorem read_bind {f : Machine → α} {next : α → Run β} (hm : machine.Tame realm)
    (hn : (next (f machine)).EndsAt realm machine) : (Run.bind (Run.read f) next).EndsAt realm machine :=
  update_bind (.refl hm) hn

private theorem ofExcept (result : Except Failure α) (hm : machine.Tame realm) :
    (Run.ofExcept result).EndsAt realm machine := by
  cases result with
  | ok a => exact pure a hm
  | error failure => exact fail failure hm

private theorem attempt {run : Run α} (h : run.EndsAt realm machine) : (Run.attempt run).EndsAt realm machine := by
  intro hu
  obtain ⟨hends, hstays⟩ := h hu
  cases hr : run machine with
  | mk outcome later =>
    rw [hr] at hends hstays
    cases outcome with
    | ok a =>
      simp only [Run.attempt, hr]
      exact ⟨Outcome.ok_ne_exhausted _, hstays⟩
    | failed failure =>
      simp only [Run.attempt, hr]
      exact ⟨Outcome.ok_ne_exhausted _, hstays⟩
    | exhausted => exact absurd rfl hends

private theorem bracket {keep : Machine → σ} {enter : Machine → Machine} {leave : σ → Machine → Machine} {run : Run α}
    (hr : run.EndsAt realm (enter machine)) (hl : ∀ later : Machine, (enter machine).Stays realm later →
      machine.Stays realm (leave (keep machine) later)) :
    (Run.bracket keep enter leave run).EndsAt realm machine := by
  intro hu
  obtain ⟨hends, hstays⟩ := hr fun hl later hp => hu hl later (.inr (.inl hp))
  exact ⟨hends, hl _ hstays⟩

end EndsAt

/-! ## From all machines -/

namespace Ends

/-- What ends with more to spend ends with less. -/
theorem mono {run : Run α} (h : run.Ends realm (b + 1)) : run.Ends realm b :=
  fun machine hm hb => h machine hm (Nat.lt_succ_of_lt hb)

theorem bind {run : Run α} {next : α → Run β} (h : run.Ends realm b) (hn : ∀ a, (next a).Ends realm b) :
    (Run.bind run next).Ends realm b :=
  fun machine hm hb => (h machine hm hb).bind fun a later _ hs => hn a later hs.tame (hs.budget ▸ hb)

private theorem update {f : Machine → α × Machine}
    (h : ∀ machine : Machine, machine.Tame realm → machine.Stays realm (f machine).2) : (Run.update f).Ends realm b :=
  fun machine hm _ => .update (h machine hm)

theorem pure (a : α) : (Run.pure a).Ends realm b := fun _ hm _ => .pure a hm

theorem fail (failure : Failure) : (Run.fail failure : Run α).Ends realm b := fun _ hm _ => .fail failure hm

theorem read (f : Machine → α) : (Run.read f).Ends realm b := .update fun _ hm => .refl hm

private theorem attempt {run : Run α} (h : run.Ends realm b) : (Run.attempt run).Ends realm b :=
  fun machine hm hb => (h machine hm hb).attempt

theorem ofExcept (result : Except Failure α) : (Run.ofExcept result).Ends realm b := fun _ hm _ => .ofExcept result hm

theorem note (event : Event) : (Run.note event).Ends realm b := by
  unfold Run.note Run.change
  exact .update fun _ hm => .of_eq hm rfl rfl rfl

/-- A change of scopes. -/
theorem make {f : Heap → α × Heap} (hh : ∀ heap, (f heap).2.hosts = heap.hosts)
    (hc : ∀ heap, (f heap).2.caches = heap.caches) : (Run.make f).Ends realm b :=
  .update fun machine hm => .of_eq hm (hh machine.heap) (hc machine.heap) rfl

theorem newHost {host : Host} (h : realm.Allows host) : (Run.newHost host).Ends realm b := by
  unfold Run.newHost Run.make
  exact .bind (.update fun machine hm => .newHost hm h) fun id => .pure _

/-- What runs no script comes to an end. -/
theorem of_plain {writes : Bool} {run : Run α} (h : run.Plain writes) : run.Ends realm b := by
  induction h with
  | pure a => exact .pure a
  | fail failure => exact .fail failure
  | bind _ _ ih ihn => exact .bind ih ihn
  | update h => exact .update fun machine hm => .of_sameFrame hm (h machine)
  | note _ => exact .note _
  | changeSite id f _ =>
    unfold Run.changeSite Run.change
    exact .update fun machine hm => .of_eq hm rfl rfl rfl
  | assignExports cache id exports =>
    refine .update fun machine hm => ?_
    split
    · refine .of_heap hm hm.hosts (fun a ha => ?_) Array.size_modify rfl
      refine Heap.contains_updateCache ha fun _ modules hc => ?_
      rwa [Cache.setExports, Cache.contains_update]
    · exact .refl hm

/-- What is put together of runs that come to an end comes to an end. -/
theorem composed : Composed true fun run _ => run.Ends realm b where
  plain := .of_plain
  note := .note
  bind := .bind
  attempt := .attempt

theorem onFailure {run : Run α} {last : Failure → Run Unit} (h : run.Ends realm b)
    (hl : ∀ failure, (last failure).Ends realm b) : (Run.onFailure run last).Ends realm b :=
  @Composed.onFailure _ _ _ composed run run last last h hl

/-- A change of scopes that may fail. -/
theorem tryHeap {f : Heap → Except Failure Heap}
    (h : ∀ heap later, f heap = .ok later → heap.SameButScopes later) : (Run.tryHeap f).Ends realm b := by
  unfold Run.tryHeap
  refine .bind (.make (fun heap => ?_) fun heap => ?_) fun result => .ofExcept result
  · cases hf : f heap with
    | ok later =>
      rw [h heap later hf]
    | error failure => rfl
  · cases hf : f heap with
    | ok later => exact (h heap later hf).caches
    | error failure => rfl

/-- A run that enters something and leaves it. -/
theorem bracket {keep : Machine → σ} {enter : Machine → Machine} {leave : σ → Machine → Machine} {run : Run α}
    (h : run.Ends realm b) (he : ∀ machine : Machine, machine.Tame realm → machine.Stays realm (enter machine))
    (hl : ∀ kept, ∀ machine : Machine, machine.Tame realm → machine.Stays realm (leave kept machine)) :
    (Run.bracket keep enter leave run).Ends realm b := by
  intro machine hm hb
  have hentered := he machine hm
  refine .bracket (h _ hentered.tame (hentered.budget ▸ hb)) fun later hs => ?_
  exact (hentered.trans hs).trans (hl _ later hs.tame)

private theorem within {run : Run α} (environment : Environment) (h : run.Ends realm b) :
    (Run.within environment run).Ends realm b := by
  unfold Run.within
  exact .bracket h (fun _ hm => .of_eq hm rfl rfl rfl) fun _ _ hm => .of_eq hm rfl rfl rfl

theorem inBlock {run : Run α} (h : run.Ends realm b) : (Run.inBlock run).Ends realm b := by
  unfold Run.inBlock
  exact .bracket h (fun _ hm => .of_eq hm rfl rfl rfl) fun _ _ hm => .of_eq hm rfl rfl rfl

end Ends
end Run

/-! ## Calls and programs -/

namespace Steps

open Run

variable {realm : Realm} {machine : Machine} {next : Steps} {b : Nat}

/-- A call takes something of what is left to spend, so a bit more of that is enough than for the body. -/
theorem ends_callFunction {definition : Script.Function} {args : List Value}
    (h : (next.runFunction definition args).Ends realm b) (closure : Environment) :
    (next.callFunction definition closure args).Ends realm (b + 1) := by
  intro machine hm hb
  unfold Steps.callFunction Steps.inCall
  refine .read_bind hm ?_
  split
  · exact Ends.of_plain (.throwNamed _ _ : Plain false _) machine hm hb
  · next hd =>
    let called : Machine := { machine with callDepth := machine.callDepth + 1 }
    have hcalled : called.Tame realm := ⟨hm.hosts, hm.cached, hm.caches, hm.loaders, hm.registries⟩
    -- The limit has not been reached, so one call less is left than before.
    have hbudget : called.budget realm < b := by
      have hless : callLimit - (machine.callDepth + 1) + (machine.unloaded realm).length <
        machine.budget realm := by unfold Machine.budget; omega
      exact Nat.lt_of_lt_of_le hless (Nat.le_of_lt_succ hb)
    refine .bracket (Ends.bind (.read _) (fun heap => .bind (.make (fun _ => rfl) fun _ => rfl) fun scope =>
      h.within _) called hcalled hbudget) fun later hs => ?_
    exact ⟨⟨hs.tame.hosts, hs.tame.cached, hs.tame.caches, hs.tame.loaders, hs.tame.registries⟩,
      Nat.sub_eq_of_eq_add hs.callDepth, hs.loading⟩

/-- A program comes to an end, if its statements do. -/
theorem ends_runProgram {body : List Script.Statement} {bindings : List (String × Value)}
    (h : (next.runStatements body bindings).Ends realm b) : (next.runProgram body bindings).Ends realm b := by
  unfold Steps.runProgram
  refine .bind (.update fun _ hm => .of_eq hm rfl rfl rfl) fun owner => ?_
  refine .bind (.of_plain (.globals : Plain false _)) fun global => ?_
  exact .bind (.make (fun _ => rfl) fun _ => rfl) fun outer => .bind (.make (fun _ => rfl) fun _ => rfl) fun inner =>
    h.within _

end Steps
end ScriptModules
