import ScriptModules.Proofs.Runs.Lasting
import ScriptModules.Proofs.Runs.Outcome

/-!
# Failures that no script catches

A load function that a script calls may fail, and then the script may catch the failure or replace it in a
`finally`.  If it does neither, the run ends with that failure, the same one (`Run.Scripted.escapes`).
-/

namespace ScriptModules

/-- Among the events after the first `n`, the latest first, a call of a load function has failed this way, and no
later event drops that failure. -/
def Stands (n : Nat) (failure : Failure) (events : List Event) : Prop :=
  ∃ later earlier, events = later ++ .refused failure :: earlier ∧
    ∀ since till, .dropped since till ∈ later → ¬(since ≤ n + earlier.length ∧ n + earlier.length < till)

/-- Is it the failure of a call of a load function? -/
def Event.isRefusal : Event → Bool
  | refused _ => true
  | _ => false

variable {n : Nat} {failure : Failure} {events events' : List Event}

private theorem not_stands_nil : ¬Stands n failure [] := by
  rintro ⟨later, earlier, h, _⟩
  cases later <;> cases h

private theorem event_of_stands {event : Event} (h : Stands n failure [event]) : event = .refused failure := by
  obtain ⟨later, earlier, he, _⟩ := h
  cases later with
  | nil => exact (List.cons.inj he).1
  | cons _ later => cases later <;> cases he

private theorem not_stands_singleton {event : Event} (h : event.isRefusal = false) : ¬Stands n failure [event] := by
  intro hs
  rw [event_of_stands hs] at h
  contradiction

/-- A failure that stands after some more events stood before them, and none of them drops all before them, or it
came with them. -/
theorem stands_append (h : Stands n failure (events' ++ events)) :
    (Stands n failure events ∧ ∀ since till, .dropped since till ∈ events' →
        ¬(since ≤ n ∧ n + events.length ≤ till)) ∨
      Stands (n + events.length) failure events' := by
  obtain ⟨later, earlier, he, hd⟩ := h
  -- The call that failed stands on one side of the cut or on the other.
  rcases List.append_eq_append_iff.1 he with ⟨between, hl, hr⟩ | ⟨between, hl, hr⟩
  · refine .inl ⟨⟨between, earlier, hr, fun since till hm => ?_⟩, fun since till hm ⟨hs, ht⟩ => ?_⟩
    · exact hd since till (by rw [hl]; exact List.mem_append_right _ hm)
    · refine hd since till (by rw [hl]; exact List.mem_append_left _ hm) ⟨by omega, ?_⟩
      rw [hr, List.length_append, List.length_cons] at ht
      omega
  · cases between with
    | nil =>
      refine .inl ⟨⟨[], earlier, by simpa using hr.symm, nofun⟩, fun since till hm ⟨hs, ht⟩ => ?_⟩
      refine hd since till (by simpa [hl] using hm) ⟨by omega, ?_⟩
      rw [show events = .refused failure :: earlier by simpa using hr.symm, List.length_cons] at ht
      omega
    | cons event between =>
      obtain ⟨rfl, rfl⟩ := List.cons.inj hr
      refine .inr ⟨later, between, hl, fun since till hm hc => hd since till hm ?_⟩
      simp only [List.append_eq, List.length_append]
      omega

namespace Run

/-- These are the events that the run adds, and what stands of them is the failure that it ends with. -/
structure EscapesBy {α : Type} (machine : Machine) (outcome : Outcome α) (later : Machine)
    (added : List Event) : Prop where
  events : later.events = added ++ machine.events
  stands : ∀ failure, Stands machine.events.length failure added →
    outcome = .failed failure ∨ outcome = .exhausted

/-- A failure of a load function that the run does not drop is the one that it ends with. -/
def Escapes {α : Type} (run : Run α) : Prop :=
  ∀ machine outcome later, run machine = (outcome, later) →
    ∃ added, EscapesBy machine outcome later added

variable {α β σ : Type}

namespace Escapes

/-- A single step that adds no failure of a load function. -/
theorem of_step {run : Run α}
    (h : ∀ machine outcome later, run machine = (outcome, later) → later.events = machine.events ∨
      ∃ event, event.isRefusal = false ∧ later.events = event :: machine.events) : run.Escapes := by
  intro machine outcome later he
  rcases h machine outcome later he with hev | ⟨event, hn, hev⟩
  · exact ⟨[], hev, fun _ hs => absurd hs not_stands_nil⟩
  · exact ⟨[event], hev, fun _ hs => absurd hs (not_stands_singleton hn)⟩

private theorem pure (a : α) : (Run.pure a).Escapes :=
  .of_step fun _ _ _ he => .inl (by rw [← (Prod.mk.inj he).2])

private theorem fail (failure : Failure) : (Run.fail failure : Run α).Escapes :=
  .of_step fun _ _ _ he => .inl (by rw [← (Prod.mk.inj he).2])

private theorem exhausted : (Run.exhausted : Run α).Escapes :=
  .of_step fun _ _ _ he => .inl (by rw [← (Prod.mk.inj he).2])

private theorem update {f : Machine → α × Machine}
    (h : ∀ machine, (f machine).2.events = machine.events ∨
      ∃ event, event.isRefusal = false ∧ (f machine).2.events = event :: machine.events) :
    (Run.update f).Escapes := by
  refine .of_step fun machine outcome later he => ?_
  obtain ⟨_, rfl⟩ := Prod.mk.inj he
  exact h machine

private theorem read (f : Machine → α) : (Run.read f).Escapes := .update fun _ => .inl rfl

private theorem make (f : Heap → α × Heap) : (Run.make f).Escapes := .update fun _ => .inl rfl

private theorem bind {run : Run α} {next : α → Run β} (h : run.Escapes) (hn : ∀ a, (next a).Escapes) :
    (Run.bind run next).Escapes := by
  intro machine outcome last he
  rcases bind_inv he with ⟨a, later, hrun, hnext⟩ | ⟨failure, hrun, rfl⟩ | ⟨hrun, rfl⟩
  · obtain ⟨events, hev, hs⟩ := h machine _ later hrun
    obtain ⟨events', hev', hs'⟩ := hn a later outcome last hnext
    refine ⟨events' ++ events, by rw [hev', hev, List.append_assoc], fun failure hstands => ?_⟩
    rcases stands_append hstands with ⟨hstands, _⟩ | hstands
    · rcases hs failure hstands with hf | hf <;> cases hf
    · refine hs' failure ?_
      rw [hev, List.length_append, Nat.add_comm]
      exact hstands
  · obtain ⟨events, hev, hs⟩ := h machine _ last hrun
    refine ⟨events, hev, fun other hstands => ?_⟩
    rcases hs other hstands with hf | hf
    · obtain rfl := Outcome.failed.inj hf
      exact .inl rfl
    · cases hf
  · obtain ⟨events, hev, _⟩ := h machine _ last hrun
    exact ⟨events, hev, fun _ _ => .inr rfl⟩

private theorem bracket {keep : Machine → σ} {enter : Machine → Machine} {leave : σ → Machine → Machine}
    {run : Run α} (henter : ∀ machine, Machine.Agrees machine (enter machine))
    (hleave : ∀ kept machine, Machine.Agrees machine (leave kept machine)) (h : run.Escapes) :
    (Run.bracket keep enter leave run).Escapes := by
  intro machine outcome later he
  obtain ⟨rfl, rfl⟩ := Prod.mk.inj he
  obtain ⟨events, hev, hs⟩ := h (enter machine) _ _ rfl
  rw [(henter machine).events] at hev hs
  exact ⟨events, by rw [(hleave _ _).events, hev], hs⟩

private theorem note {event : Event} (h : event.isRefusal = false) : (Run.note event).Escapes := by
  unfold Run.note Run.change
  exact .update fun _ => .inr ⟨event, h, rfl⟩

private theorem assignExports (cache : CacheId) (id : Path) (exports : Value) :
    (Run.assignExports cache id exports).Escapes := by
  refine .update fun machine => ?_
  split
  · exact .inr ⟨_, rfl, rfl⟩
  · exact .inl rfl

private theorem sequential : Sequential @Escapes where
  pure := .pure
  fail := .fail
  exhausted := .exhausted
  bind := .bind
  update h := .update fun machine => .inl (h machine).events
  assignExports := .assignExports

/-- What is done on a failure may note no failure of a load function but that one. -/
theorem onFailure {run : Run α} {after : Failure → Run Unit} (h : run.Escapes)
    (ha : ∀ failure m, (after failure m).1 = .ok ())
    (he : ∀ failure m, ∃ event, (after failure m).2.events = event :: m.events ∧
      (event.isRefusal = true → event = .refused failure)) : (Run.onFailure run after).Escapes := by
  intro machine outcome last hlast
  rcases onFailure_inv ha hlast with ⟨a, hrun, rfl⟩ | ⟨failure, middle, hrun, rfl, rfl⟩ | ⟨hrun, rfl⟩
  · exact h machine _ last hrun
  · obtain ⟨added, hev, hs⟩ := h machine _ middle hrun
    obtain ⟨event, hevent, hrefusal⟩ := he failure middle
    refine ⟨[event] ++ added, by rw [hevent, hev]; rfl, fun other hstands => ?_⟩
    rcases stands_append hstands with ⟨hstands, _⟩ | hstands
    · exact hs other hstands
    · have hother := event_of_stands hstands
      obtain rfl := Event.refused.inj (hother.symm.trans (hrefusal (by rw [hother]; rfl)))
      exact .inl rfl
  · exact h machine _ last hrun

private theorem catching {run : Run α} {handler : Failure → Run α} (h : run.Escapes)
    (hh : ∀ failure, (handler failure).Escapes) : (Run.catching run handler).Escapes := by
  intro machine outcome last he
  rcases catching_inv he with ⟨a, hrun, rfl⟩ | ⟨failure, middle, hrun, hhandler⟩ | ⟨hrun, rfl⟩
  · exact h machine _ last hrun
  · obtain ⟨added, hev, _⟩ := h machine _ middle hrun
    obtain ⟨added', hev', hs'⟩ := hh failure _ outcome last hhandler
    have hlength : middle.events.length = machine.events.length + added.length := by
      rw [hev, List.length_append, Nat.add_comm]
    refine ⟨(added' ++ [.dropped machine.events.length middle.events.length]) ++ added, ?_, ?_⟩
    · rw [hev', hev]
      simp
    · intro other hstands
      rcases stands_append hstands with ⟨_, hd⟩ | hstands
      · -- All that stood before the failure was caught is dropped.
        exact absurd ⟨Nat.le_refl _, Nat.le_of_eq hlength.symm⟩ (hd _ _ (List.mem_append_right _ (List.mem_singleton.2 rfl)))
      · rcases stands_append hstands with ⟨hstands, _⟩ | hstands
        · exact absurd hstands (not_stands_singleton rfl)
        · refine hs' other ?_
          rw [List.length_cons, hlength]
          exact hstands
  · exact h machine _ last hrun |>.imp fun _ hadded => ⟨hadded.events, fun _ _ => .inr rfl⟩

private theorem ensuring {run second : Run Completion} (h : run.Escapes) (hl : second.Escapes) :
    (Run.ensuring run second).Escapes := by
  intro machine outcome last he
  rcases ensuring_inv he with ⟨first, middle, hrun, hne, hsecond⟩ | ⟨hrun, rfl⟩
  · obtain ⟨added, hev, hs⟩ := h machine _ middle hrun
    have hlength : middle.events.length = machine.events.length + added.length := by
      rw [hev, List.length_append, Nat.add_comm]
    rcases hsecond with ⟨value, hsecond, rfl⟩ | ⟨done, hsecond, hnormal, rfl⟩ | ⟨hsecond, rfl⟩
    · obtain ⟨added', hev', hs'⟩ := hl middle _ last hsecond
      refine ⟨added' ++ added, by rw [hev', hev, List.append_assoc], fun other hstands => ?_⟩
      rcases stands_append hstands with ⟨hstands, _⟩ | hstands
      · exact hs other hstands
      · rw [← hlength] at hstands
        rcases hs' other hstands with hf | hf <;> cases hf
    · obtain ⟨added', hev', hs'⟩ := hl middle _ done hsecond
      refine ⟨(.dropped machine.events.length middle.events.length :: added') ++ added, ?_, ?_⟩
      · rw [hev', hev]
        simp
      · intro other hstands
        rcases stands_append hstands with ⟨_, hd⟩ | hstands
        · exact absurd ⟨Nat.le_refl _, Nat.le_of_eq hlength.symm⟩ (hd _ _ List.mem_cons_self)
        · rw [← hlength, ← List.singleton_append] at hstands
          rcases stands_append hstands with ⟨hstands, _⟩ | hstands
          · exact hs' other hstands
          · exact absurd hstands (not_stands_singleton rfl)
    · obtain ⟨added', hev', _⟩ := hl middle _ last hsecond
      exact ⟨added' ++ added, by rw [hev', hev, List.append_assoc], fun _ _ => .inr rfl⟩
  · exact h machine _ last hrun |>.imp fun _ hadded => ⟨hadded.events, fun _ _ => .inr rfl⟩

end Escapes
end Run

namespace Steps

open Run

variable {next : Steps}

private theorem load_escapes (hc : ∀ compiled scope, (next.runCompiled compiled scope).Escapes)
    (loaderId : LoaderId) (id : Path) (parent : Option Path) : (next.load loaderId id parent).Escapes := by
  have henter (cache : CacheId) : (enter cache id parent).Escapes := by
    refine .update fun machine => .inr ?_
    split
    · exact ⟨_, rfl, rfl⟩
    · exact ⟨_, rfl, rfl⟩
  have hevict (cache : CacheId) (id : Path) : (changeCache cache (·.erase id)).Escapes := by
    unfold Run.changeCache Run.changeHeap
    exact .make _
  have hhandling : Handling @Escapes := ⟨Escapes.sequential, fun _ _ _ => .note rfl, hevict⟩
  have hfinish (cache : CacheId) : (finish cache id).Escapes := .update fun machine => .inr ⟨_, rfl, rfl⟩
  unfold Steps.load
  refine .bind (.read _) fun loader => .bind (henter _) fun entry => ?_
  cases entry with
  | present exports => exact .pure _
  | reserved record =>
    have hroll : (onFailure (next.handleFile loaderId loader record) (rollBack loader.cache id)).Escapes :=
      .onFailure (hhandling.handleFile hc _ _ _) (fun _ _ => rfl) fun failure _ => ⟨.failed loader.cache id failure, rfl, nofun⟩
    rw [Steps.conclude]
    exact .bind hroll fun _ => hfinish _

end Steps

/-- Whatever a script does, a failure of a load function that it neither catches nor replaces is the one that the
run ends with. -/
theorem Run.Scripted.escapes {α : Type} {run : Run α} (h : run.Scripted) : run.Escapes := by
  induction h with
  | pure a => exact .pure a
  | fail failure => exact .fail failure
  | exhausted => exact .exhausted
  | bind _ _ ih ihn => exact .bind ih ihn
  | update h => exact .update fun machine => .inl (h machine).events
  | bracket he hl _ ih => exact .bracket he hl ih
  | @note event h =>
    cases event with
    | printed stream line => exact .note rfl
    | warned failure => exact .note rfl
    | _ => cases h
  | assignExports cache id exports => exact .assignExports cache id exports
  | catching _ _ ih ihh => exact .catching ih ihh
  | ensuring _ _ ih ihl => exact .ensuring ih ihl
  | refusing _ ih => exact .onFailure ih (fun _ _ => rfl) fun failure _ => ⟨_, rfl, fun _ => rfl⟩
  | load loader id parent _ ih => exact Steps.load_escapes ih loader id parent

end ScriptModules
