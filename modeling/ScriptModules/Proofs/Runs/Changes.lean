import ScriptModules.Proofs.Runs.Serving

/-!
# What the changes of a run do

A run makes no other changes than the runs that it is made of.  So what is true of the few kinds of changes that there
are (`Heap.Admits`) is true of every change that is made while requests are served (`Run.Changes.serveAll`).
-/

namespace ScriptModules

/-- The heap is changed in this way by all that keeps its frame, its arrays and host objects, or adds a host object. -/
structure Heap.Admits (kind : Heap → Heap → Prop) : Prop where
  sameFrame {heap later : Heap} : heap.SameFrame later → kind heap later
  sameData {heap later : Heap} : later.arrays = heap.arrays → later.hosts = heap.hosts → kind heap later
  newHost (heap : Heap) (host : Host) : kind heap (heap.newHost host).2

namespace Run

variable {α β σ : Type} {kind : Heap → Heap → Prop}

/-- Every change that the run makes changes the heap in this way. -/
def Changes (kind : Heap → Heap → Prop) (run : Run α) : Prop :=
  ∀ machine before after, run.moves machine before after → kind before.heap after.heap

namespace Changes

/-! ## Runs made of others -/

private theorem pure (a : α) : (Run.pure a).Changes kind := fun _ _ _ h => h.elim

private theorem fail (failure : Failure) : (Run.fail failure : Run α).Changes kind := fun _ _ _ h => h.elim

private theorem exhausted : (Run.exhausted : Run α).Changes kind := fun _ _ _ h => h.elim

private theorem update {f : Machine → α × Machine} (h : ∀ machine : Machine, kind machine.heap (f machine).2.heap) :
    (Run.update f).Changes kind := by
  rintro machine before after ⟨rfl, rfl⟩
  exact h before

private theorem bind {run : Run α} {next : α → Run β} (h : run.Changes kind) (hn : ∀ a, (next a).Changes kind) :
    (Run.bind run next).Changes kind := by
  rintro machine before after (hm | ⟨a, middle, _, hm⟩)
  · exact h machine before after hm
  · exact hn a middle before after hm

private theorem attempt {run : Run α} (h : run.Changes kind) : (Run.attempt run).Changes kind := h

private theorem bracket {keep : Machine → σ} {enter : Machine → Machine} {leave : σ → Machine → Machine} {run : Run α}
    (he : ∀ machine : Machine, kind machine.heap (enter machine).heap)
    (hl : ∀ kept (machine : Machine), kind machine.heap (leave kept machine).heap) (h : run.Changes kind) :
    (Run.bracket keep enter leave run).Changes kind := by
  rintro machine before after (⟨rfl, rfl⟩ | hm | ⟨rfl, rfl⟩)
  · exact he _
  · exact h _ before after hm
  · exact hl _ _

/-! ## Requests -/

variable (h : Heap.Admits kind)

include h

private theorem newHost (host : Host) : (Run.newHost host).Changes kind := by
  unfold Run.newHost
  exact .bind (.update fun machine => h.newHost machine.heap host) fun _ => .pure _

private theorem outside : Outside fun run => run.Changes kind where
  pure := .pure
  fail := .fail
  exhausted := .exhausted
  bind := .bind
  attempt := .attempt
  sameFrame hf := .update fun machine => h.sameFrame (hf machine).heap
  elsewhere hf := .update fun machine => h.sameData (hf machine).arrays (hf machine).hosts
  newHost _ := newHost h _

/-- Whatever the rules make changes the heap in this way. -/
theorem kept : Kept true (fun _ => True) fun run _ => run.Changes kind where
  toClosed := (outside h).closed
  spent := .exhausted
  scopes hf := .update fun machine => by
    rw [hf machine]
    exact h.sameData rfl rfl
  newFunction definition := by
    unfold Run.newFunction
    exact .bind (.update fun _ => h.sameData rfl rfl) fun properties =>
      .bind (.update fun _ => h.sameData rfl rfl) fun environment => newHost h _
  within environment := .bracket (fun _ => h.sameData rfl rfl) fun _ _ => h.sameData rfl rfl
  inBlock := .bracket (fun _ => h.sameData rfl rfl) fun _ _ => h.sameData rfl rfl
  inCall hr := by
    unfold Steps.inCall
    refine .bind (.update fun _ => h.sameData rfl rfl) fun depth => ?_
    split
    · exact (outside h).plain (.throwNamed _ _)
    · exact .bracket (fun _ => h.sameData rfl rfl) (fun _ _ => h.sameData rfl rfl) hr
  callHost := @fun next next' => @Closed.callHost _ _ (outside h).closed (fun _ => trivial) next next'

/-- If the changes that single steps make are of this kind, so are those of all requests. -/
theorem serveAll (fuel : Nat) (requests : List Request) : (serveAll fuel requests).Changes kind :=
  (outside h).serveAll ((kept h).steps_runProgram fuel)
    (fun id args => (kept h).alike (n := 0) (Steps.alike_callHost (steps_alike fuel) id args)) requests

end Changes
end Run
end ScriptModules
