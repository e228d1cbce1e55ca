import ScriptModules.Proofs.Graph.Basic

/-!
# Rows of events

`Graph.Follows` says that a row of events leads from one graph to another, and that some loads, its floor, go
on all the while.  What every event preserves, every row of events preserves (`Follows.invariant`).  So the modules
that are not loaded are those whose load goes on, and none is loaded twice at once (`Follows.disciplined`).
-/

namespace ScriptModules

namespace Graph

/-- The events, the latest first, lead from one graph to another, and no load of the floor ends. -/
inductive Follows (floor : List Identity) (start : Graph) : List Event → Graph → Prop
  | refl : floor <:+ start.loading → Follows floor start [] start
  | step {events : List Event} {graph : Graph} {event : Event} : Follows floor start events graph →
      graph.Allows event → floor <:+ (graph.after event).loading →
      Follows floor start (event :: events) (graph.after event)

variable {floor floor' : List Identity} {start graph graph' : Graph} {events events' : List Event}
  {a b : Identity} {record : Record}

namespace Follows

/-- The loads of the floor go on at the end. -/
theorem floor_le (h : Follows floor start events graph) : floor <:+ graph.loading := by
  cases h with
  | refl h => exact h
  | step _ _ h => exact h

theorem floor_le_start (h : Follows floor start events graph) : floor <:+ start.loading := by
  induction h with
  | refl h => exact h
  | step _ _ _ ih => exact ih

/-- Where no load of a higher floor ends, none of a lower one does. -/
theorem mono (h : Follows floor' start events graph) (hf : floor <:+ floor') :
    Follows floor start events graph := by
  induction h with
  | refl h => exact .refl (hf.trans h)
  | step _ ha hl ih => exact .step ih ha (hf.trans hl)

theorem trans (h : Follows floor start events graph) (h' : Follows floor graph events' graph') :
    Follows floor start (events' ++ events) graph' := by
  induction h' with
  | refl _ => exact h
  | step _ ha hl ih => exact .step ih ha hl

/-- The latest event of a row was allowed where the others led. -/
theorem cons_inv {event : Event} (h : Follows floor start (event :: events) graph) :
    ∃ middle, Follows floor start events middle ∧ middle.Allows event ∧ graph = middle.after event := by
  cases h with
  | step h ha _ => exact ⟨_, h, ha, rfl⟩

/-- A row of events can be cut anywhere. -/
theorem append_inv (h : Follows floor start (events' ++ events) graph) :
    ∃ middle, Follows floor start events middle ∧ Follows floor middle events' graph := by
  induction events' generalizing graph with
  | nil => exact ⟨graph, h, .refl h.floor_le⟩
  | cons event events' ih =>
    have hl := h.floor_le
    obtain ⟨last, hlast, ha, rfl⟩ := h.cons_inv
    obtain ⟨middle, h₁, h₂⟩ := ih hlast
    exact ⟨middle, h₁, .step h₂ ha hl⟩

/-- What every event preserves, every row of events preserves. -/
theorem invariant {P : Graph → Prop}
    (preserves : ∀ {graph : Graph} {event : Event}, P graph → graph.Allows event → P (graph.after event))
    (h : Follows floor start events graph) (hs : P start) : P graph := by
  induction h with
  | refl _ => exact hs
  | step _ ha _ ih => exact preserves ih ha

/-- No event makes a new cache. -/
theorem size_caches (h : Follows floor start events graph) :
    graph.caches.size = start.caches.size := by
  induction h with
  | refl _ => rfl
  | @step events graph event _ _ _ ih =>
    rw [← ih]
    cases event <;> simp [Graph.after, updateCache]

end Follows

/-! ## The loads that go on -/

/-- Is the module in the cache and not loaded? -/
def Unloaded (graph : Graph) (a : Identity) : Prop :=
  ∃ record, graph.find? a = some record ∧ record.loaded = false

/-- Does a load of the module go on? -/
def Loads (graph : Graph) (a : Identity) : Prop := ∃ b ∈ graph.loading, Identity.same b a = true

/-- The modules that are not loaded are those whose loads go on, and no module is loaded twice at once. -/
structure Disciplined (graph : Graph) : Prop where
  unloaded_iff : ∀ a, graph.Unloaded a ↔ graph.Loads a
  apart : graph.loading.Pairwise fun a b => ¬Identity.same a b = true

/-- Whether a module is unloaded is a matter of its record without the children. -/
theorem unloaded_iff_bare? :
    graph.Unloaded a ↔ ∃ record, graph.bare? a = some record ∧ record.loaded = false := by
  rw [Unloaded, bare?]
  cases graph.find? a <;> simp [Record.bare]

private theorem Disciplined.find?_ne_none (h : graph.Disciplined) (ha : graph.Loads a) : graph.find? a ≠ none := by
  obtain ⟨record, hr, _⟩ := (h.unloaded_iff a).2 ha
  simp [hr]

/-- What starts is loaded until it ends. -/
private theorem Disciplined.started {cache : CacheId} {id : Path} {parent : Option Path} {exports : Value}
    (h : graph.Disciplined) (ha : graph.Allows (.started cache id parent exports)) :
    (graph.after (.started cache id parent exports)).Disciplined := by
  constructor
  · intro a
    rw [unloaded_iff_bare?, bare?_after ha, Event.onRecord]
    by_cases hs : Identity.same (cache, id) a
    · have hl : (graph.after (.started cache id parent exports)).Loads a := ⟨(cache, id), by simp [after], hs⟩
      simp [hs, hl, Record.unloaded]
    · have hl : (graph.after (.started cache id parent exports)).Loads a ↔ graph.Loads a := by
        simp [Loads, after, hs, updateCache]
      rw [hl, ← h.unloaded_iff, unloaded_iff_bare?, if_neg hs]
  · show ((cache, id) :: graph.loading).Pairwise _
    rw [List.pairwise_cons]
    refine ⟨?_, h.apart⟩
    intro b hb hs
    have hl : graph.Loads (cache, id) := ⟨b, hb, by rwa [Identity.same_comm]⟩
    exact h.find?_ne_none hl ha.2

/-- An end of the innermost load leaves the others, if it makes its module loaded or takes it out. -/
private theorem Disciplined.ended {rest : List Identity} (h : graph.Disciplined)
    (hl : graph.loading = a :: rest) (hl' : graph'.loading = rest) (hself : ¬graph'.Unloaded a)
    (hsame : ∀ {b}, Identity.same a b = true → graph'.find? b = graph'.find? a)
    (hother : ∀ {b}, ¬Identity.same a b = true → graph'.bare? b = graph.bare? b) : graph'.Disciplined := by
  have hp := h.apart
  rw [hl, List.pairwise_cons] at hp
  constructor
  · -- Of the other modules nothing changes, and no load of this one is left, since there was only one.
    intro b
    by_cases hs : Identity.same a b
    · have hu : ¬graph'.Unloaded b := by
        unfold Unloaded at hself ⊢
        rwa [hsame hs]
      have hn : ¬graph'.Loads b := by
        rintro ⟨c, hc, hcb⟩
        rw [hl'] at hc
        exact hp.1 c hc (Identity.same_trans hs (by rwa [Identity.same_comm]))
      exact iff_of_false hu hn
    · have hb := h.unloaded_iff b
      have he : graph.Loads b ↔ graph'.Loads b := by simp [Loads, hl, hl', hs]
      rw [unloaded_iff_bare?, hother hs, ← unloaded_iff_bare?, hb, he]
  · rw [hl']
    exact hp.2

/-- Every event keeps the discipline of the loads. -/
theorem Disciplined.after {event : Event} (h : graph.Disciplined) (ha : graph.Allows event) :
    (graph.after event).Disciplined := by
  cases event with
  | started cache id parent exports => exact h.started ha
  | assigned cache id exports =>
    refine ⟨fun a => ?_, h.apart⟩
    have hb := h.unloaded_iff a
    rw [unloaded_iff_bare?] at hb ⊢
    rw [bare?_after ha, Event.onRecord]
    refine Iff.trans ?_ hb
    split
    · cases graph.bare? a <;> simp
    · rfl
  | found cache id parent exports =>
    refine ⟨fun a => ?_, h.apart⟩
    have hb := h.unloaded_iff a
    rw [unloaded_iff_bare?] at hb ⊢
    rw [bare?_after ha]
    exact hb
  | finished cache id exports =>
    obtain ⟨rest, hl⟩ := List.head?_eq_some_iff.1 ha.1
    refine h.ended hl (by simp [Graph.after, hl]) ?_ (fun hs => (find?_congr hs).symm) ?_
    · rw [unloaded_iff_bare?, bare?_after ha]
      simp [Event.onRecord]
    · intro b hs
      rw [bare?_after ha, Event.onRecord, if_neg hs]
  | failed cache id failure =>
    obtain ⟨rest, hl⟩ := List.head?_eq_some_iff.1 ha
    refine h.ended hl (by simp [Graph.after, hl]) ?_ (fun hs => (find?_congr hs).symm) ?_
    · rw [unloaded_iff_bare?, bare?_after ha]
      simp [Event.onRecord]
    · intro b hs
      rw [bare?_after ha, Event.onRecord, if_neg hs]
  | _ => exact h

/-- Rows of events keep the discipline of the loads. -/
theorem Follows.disciplined (h : Follows floor start events graph) (hs : start.Disciplined) :
    graph.Disciplined :=
  h.invariant Disciplined.after hs

end Graph
end ScriptModules
