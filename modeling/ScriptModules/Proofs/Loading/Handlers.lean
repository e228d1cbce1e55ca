import ScriptModules.Proofs.Graph.Lifetime
import ScriptModules.Proofs.Runs.Lasting

/-!
# Whatever handlers there are

The handlers that are there from the start leave the caches to the loads (`Run.Traced`), and others need not.  But
whatever a handler does, only the start of a load puts a module into a cache, and a load that fails takes it out.  So a
module whose load has failed is in no cache before the next one starts (`Run.records_of_serveAll`).
-/

namespace ScriptModules

/-- The second machine comes after the first one with these events, the latest first.  What has come into a cache since
has started since, and what has failed since is in none unless it has started again. -/
structure Machine.Records (machine : Machine) (added : List Event) (later : Machine) : Prop where
  events : later.events = added ++ machine.events
  started : ∀ a, machine.graph.find? a = none → (∀ event ∈ added, event.starts a = false) →
    later.graph.find? a = none
  failed : ∀ a after failed before, added = after ++ failed :: before → failed.fails a = true →
    (∀ event ∈ after, event.starts a = false) → later.graph.find? a = none

namespace Machine.Records

variable {machine later last : Machine} {added added' : List Event}

/-- A change that nothing tells of, and that puts no module into a cache. -/
theorem of_silent (he : later.events = machine.events)
    (hn : ∀ a, machine.graph.find? a = none → later.graph.find? a = none) : machine.Records [] later where
  events := he
  started a h _ := hn a h
  failed _ after _ _ h := absurd h (List.append_ne_nil_of_right_ne_nil after (List.cons_ne_nil _ _)).symm

private theorem refl (machine : Machine) : machine.Records [] machine := .of_silent rfl fun _ h => h

private theorem of_agrees (h : machine.Agrees later) : machine.Records [] later := by
  refine .of_silent h.events fun a hn => ?_
  rw [h.graph]
  exact hn

/-- A change that is what an event does to the graph. -/
theorem of_event {event : Event} (he : later.events = event :: machine.events)
    (hg : later.graph = machine.graph.after event) : machine.Records [event] later where
  events := he
  started a hn hs := by
    rw [hg]
    exact Graph.find?_after_of_none hn (hs event List.mem_cons_self)
  failed a after failed before hadded hfails _ := by
    -- There is only the one event, so that it is this one that tells of the failure.
    obtain ⟨rfl, rfl⟩ : after = [] ∧ failed = event := by
      rcases List.append_eq_cons_iff.1 hadded.symm with ⟨rfl, h⟩ | ⟨rest, _, h⟩
      · exact ⟨rfl, (List.cons.inj h).1⟩
      · exact absurd h.symm (List.append_ne_nil_of_right_ne_nil rest (List.cons_ne_nil _ _))
    rw [hg]
    cases failed with
    | failed cache id failure =>
      rw [Graph.find?_failed]
      exact if_pos hfails
    | _ => cases hfails

private theorem trans (h : machine.Records added later) (h' : later.Records added' last) :
    machine.Records (added' ++ added) last where
  events := by rw [h'.events, h.events, List.append_assoc]
  started a hn hs := by
    rw [List.forall_mem_append] at hs
    exact h'.started a (h.started a hn hs.2) hs.1
  failed a after failed before hadded hfails hs := by
    -- The load has failed before the machine in between, or after it.
    rcases List.append_eq_append_iff.1 hadded with ⟨between, rfl, hright⟩ | ⟨between, hleft, hright⟩
    · rw [List.forall_mem_append] at hs
      exact h'.started a (h.failed a between failed before hright hfails hs.2) hs.1
    · cases between with
      | nil =>
        rw [List.append_nil] at hleft
        exact h'.started a (h.failed a [] failed before hright.symm hfails fun _ h => absurd h List.not_mem_nil)
          (hleft ▸ hs)
      | cons first between =>
        obtain ⟨rfl, _⟩ := List.cons.inj hright
        exact h'.failed a after failed between hleft hfails hs

/-- Changes one after the other. -/
theorem of_reaches {moves : Machine → Machine → Prop} (h : Reaches moves machine later)
    (hm : ∀ before after, moves before after → ∃ added, before.Records added after) :
    ∃ added, machine.Records added later := by
  induction h with
  | refl => exact ⟨[], .refl machine⟩
  | step _ hmove ih =>
    obtain ⟨added, hadded⟩ := ih
    obtain ⟨added', hadded'⟩ := hm _ _ hmove
    exact ⟨added' ++ added, hadded.trans hadded'⟩

end Machine.Records

namespace Run

variable {α β σ : Type}

/-- Every change that the run makes records what has happened. -/
def Recording (run : Run α) : Prop :=
  ∀ machine before after, run.moves machine before after → ∃ added, before.Records added after

namespace Recording

/-! ## How runs are made -/

private theorem pure (a : α) : (Run.pure a).Recording := fun _ _ _ h => h.elim

private theorem fail (failure : Failure) : (Run.fail failure : Run α).Recording := fun _ _ _ h => h.elim

private theorem exhausted : (Run.exhausted : Run α).Recording := fun _ _ _ h => h.elim

private theorem update {f : Machine → α × Machine}
    (h : ∀ machine : Machine, ∃ added, machine.Records added (f machine).2) :
    (Run.update f).Recording := by
  rintro machine before after ⟨rfl, rfl⟩
  exact h before

private theorem of_agrees {f : Machine → α × Machine} (h : ∀ machine, Machine.Agrees machine (f machine).2) :
    (Run.update f).Recording :=
  .update fun machine => ⟨[], .of_agrees (h machine)⟩

/-- A note that does not concern modules. -/
theorem note {event : Event} (h : ∀ graph : Graph, graph.after event = graph) : (Run.note event).Recording :=
  .update fun machine => ⟨[event], .of_event rfl (h machine.graph).symm⟩

private theorem bind {run : Run α} {next : α → Run β} (h : run.Recording) (hn : ∀ a, (next a).Recording) :
    (Run.bind run next).Recording := by
  rintro machine before after (hm | ⟨a, middle, _, hm⟩)
  · exact h machine before after hm
  · exact hn a middle before after hm

private theorem attempt {run : Run α} (h : run.Recording) : (Run.attempt run).Recording := h

private theorem bracket {keep : Machine → σ} {enter : Machine → Machine} {leave : σ → Machine → Machine} {run : Run α}
    (he : ∀ machine, Machine.Agrees machine (enter machine))
    (hl : ∀ kept machine, Machine.Agrees machine (leave kept machine)) (h : run.Recording) :
    (Run.bracket keep enter leave run).Recording := by
  rintro machine before after (⟨rfl, rfl⟩ | hm | ⟨rfl, rfl⟩)
  · exact ⟨[], .of_agrees (he _)⟩
  · exact h _ before after hm
  · exact ⟨[], .of_agrees (hl _ _)⟩

private theorem assignExports (cache : CacheId) (id : Path) (exports : Value) :
    (Run.assignExports cache id exports).Recording := by
  refine .update fun machine => ?_
  split
  · exact ⟨[.assigned cache id exports], .of_event rfl rfl⟩
  · exact ⟨[], .refl machine⟩

/-! ## Loads -/

private theorem enter (cache : CacheId) (id : Path) (parent : Option Path) :
    (Run.enter cache id parent).Recording := by
  refine .update fun machine => ?_
  split
  · next record _ => exact ⟨[.found cache id parent record.exports], .of_event rfl rfl⟩
  · exact ⟨[.started cache id parent (.object (machine.heap.newObject []).1)], .of_event rfl rfl⟩

private theorem finish (cache : CacheId) (id : Path) : (Run.finish cache id).Recording := by
  unfold Run.finish
  exact .update fun machine => ⟨[.finished cache id _], .of_event rfl rfl⟩

private theorem rollBack (cache : CacheId) (id : Path) (failure : Failure) :
    (Run.rollBack cache id failure).Recording := by
  unfold Run.rollBack Run.change
  exact .update fun machine => ⟨[.failed cache id failure], .of_event rfl rfl⟩

private theorem evict (cache : CacheId) (id : Path) : (changeCache cache (·.erase id)).Recording := by
  unfold Run.changeCache Run.changeHeap Run.make
  refine .update fun machine => ⟨[], .of_silent rfl fun a hn => ?_⟩
  have hgraph : Machine.graph { machine with heap := machine.heap.updateCache cache (·.erase id) } =
    machine.graph.updateCache cache (·.erase id) := rfl
  rw [hgraph]
  refine Graph.find?_updateCache_of_none hn fun c _ hc => ?_
  rw [Cache.find?_erase, hc]
  simp

private theorem handling : Handling @Recording where
  pure := .pure
  fail := .fail
  exhausted := .exhausted
  bind := .bind
  update := .of_agrees
  assignExports := .assignExports
  entered _ _ _ := .note fun _ => rfl
  evict := .evict

private theorem load {next : Steps} (loaderId : LoaderId) (id : Path) (parent : Option Path)
    (hc : ∀ compiled scope, (next.runCompiled compiled scope).Recording) :
    (next.load loaderId id parent).Recording := by
  unfold Steps.load
  refine .bind (handling.read _) fun loader => .bind (.enter _ _ _) fun entry => ?_
  cases entry with
  | present exports => exact .pure _
  | reserved record =>
    have hfile := handling.handleFile hc loaderId loader record
    rw [Steps.conclude]
    exact .bind (handling.onFailure hfile.attempt fun failure => .rollBack _ _ failure) fun _ => .finish _ _

/-- What is recorded lasts through loads. -/
theorem lasting : Lasting @Recording where
  toSequential := handling.toSequential
  attempt := .attempt
  bracket := .bracket
  note _ h := .note h
  load := .load

end Recording

/-- While requests are served, what has come into a cache has started, and what has failed is in none before it starts
again. -/
theorem records_of_serveAll (fuel : Nat) (requests : List Request) {machine later : Machine}
    (hp : (serveAll fuel requests).passes machine later) : ∃ added, machine.Records added later :=
  Machine.Records.of_reaches ((serveAll fuel requests).passes_moves machine later hp)
    (Recording.lasting.serveAll fuel requests machine)

end Run
end ScriptModules
