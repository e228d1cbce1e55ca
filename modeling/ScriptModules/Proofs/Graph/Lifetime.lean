import ScriptModules.Proofs.Graph.Follows

/-!
# The life of a record

A record begins with the start of a load and ends when that load fails, or never.  Until then it keeps its
identity and its parent (`Follows.kept`), no other load of the module starts (`Follows.not_starts`), and what
it exports is what was last assigned, or else what it started with (`Follows.exports?_eq`).  A load that goes
on all the while does not fail (`Follows.not_fails_of_floor`), nor does one that is over
(`Follows.not_fails_of_loaded`, `Follows.over_of_loaded`).
-/

namespace ScriptModules

namespace Event

variable (a : Identity)

/-- Does a load of the module begin? -/
def starts : Event → Bool
  | .started cache id _ _ => Identity.same (cache, id) a
  | _ => false

/-- Does the body of the module begin? -/
def enters : Event → Bool
  | .entered cache id _ => Identity.same (cache, id) a
  | _ => false

/-- Does a load of the module come to a good end? -/
def finishes : Event → Bool
  | .finished cache id _ => Identity.same (cache, id) a
  | _ => false

/-- Does a load of the module fail? -/
def fails : Event → Bool
  | .failed cache id _ => Identity.same (cache, id) a
  | _ => false

/-- What replaces the exports of the module. -/
def assigned? : Event → Option Value
  | .assigned cache id exports => if Identity.same (cache, id) a then some exports else none
  | _ => none

/-- What is given away as the exports of the module: to its own body, or to who requires it. -/
def given? : Event → Option Value
  | .entered cache id exports | .found cache id _ exports | .finished cache id exports =>
    if Identity.same (cache, id) a then some exports else none
  | _ => none

end Event

/-- The second record is a later state of the first one. -/
structure Record.Becomes (record later : Record) : Prop where
  id : later.id = record.id
  filename : later.filename = record.filename
  parent : later.parent = record.parent
  loaded : record.loaded = true → later.loaded = true

namespace Record.Becomes

variable {record later last : Record}

private theorem refl (record : Record) : record.Becomes record := ⟨rfl, rfl, rfl, fun hl => hl⟩

private theorem trans (h : record.Becomes later) (h' : later.Becomes last) : record.Becomes last :=
  ⟨h'.id.trans h.id, h'.filename.trans h.filename, h'.parent.trans h.parent, h'.loaded ∘ h.loaded⟩

end Record.Becomes

namespace Graph

variable {floor : List Identity} {start graph : Graph} {event : Event} {events later earlier : List Event}
  {a : Identity} {record : Record} {exports : Value}

/-! ## One event -/

/-- What a module exports does not depend on its children. -/
theorem exports?_eq_bare? : graph.exports? a = (graph.bare? a).map Record.exports := by
  rw [exports?, bare?]
  cases graph.find? a <;> rfl

/-- What starts is not in the cache. -/
theorem bare?_eq_none_of_starts (h : graph.Allows event) (hs : event.starts a = true) :
    graph.bare? a = none := by
  cases event with
  | started cache id parent exports =>
    rw [bare?_eq_none_iff, ← find?_congr hs]
    exact h.2
  | _ => contradiction

/-- A module that is in the cache does not start. -/
theorem not_starts_of_some {record : Record} (h : graph.Allows event)
    (hr : graph.bare? a = some record) : event.starts a = false := by
  rw [← Bool.not_eq_true]
  intro hs
  rw [bare?_eq_none_of_starts h hs] at hr
  contradiction

/-- A record lives on unless its load fails. -/
theorem bare?_after_of_some (h : graph.Allows event) (hr : graph.bare? a = some record)
    (hf : event.fails a = false) :
    ∃ later, (graph.after event).bare? a = some later ∧ record.Becomes later := by
  rw [bare?_after h, hr]
  cases event with
  | started cache id parent exports =>
    have hs : Identity.same (cache, id) a = false := not_starts_of_some h hr
    exact ⟨record, by simp [Event.onRecord, hs], .refl record⟩
  | assigned cache id exports =>
    rw [Event.onRecord]
    split
    · exact ⟨_, rfl, rfl, rfl, rfl, fun hl => hl⟩
    · exact ⟨record, rfl, .refl record⟩
  | finished cache id exports =>
    rw [Event.onRecord]
    split
    · exact ⟨_, rfl, rfl, rfl, rfl, fun _ => rfl⟩
    · exact ⟨record, rfl, .refl record⟩
  | failed cache id failure =>
    have hs : Identity.same (cache, id) a = false := hf
    exact ⟨record, by simp [Event.onRecord, hs], .refl record⟩
  | _ => exact ⟨record, rfl, .refl record⟩

/-- What is not in the cache stays out unless it starts. -/
theorem find?_after_of_none (hn : graph.find? a = none) (hs : event.starts a = false) :
    (graph.after event).find? a = none := by
  cases event with
  | started cache id parent exports =>
    refine find?_updateCache_of_none hn fun c hcache hc => ?_
    have hsame : id.same a.2 = false := by
      simpa [Event.starts, Identity.same, hcache] using hs
    rw [Cache.find?_link, Cache.find?_reserve, hsame, if_neg Bool.false_ne_true, hc]
    exact ite_self _
  | assigned cache id exports =>
    rw [find?_assigned, hn]
    exact ite_self _
  | found cache id parent exports =>
    rw [find?_found, hn]
    exact ite_self _
  | finished cache id exports =>
    rw [find?_finished, hn]
    exact ite_self _
  | failed cache id failure =>
    rw [find?_failed, hn]
    simp
  | _ => exact hn

/-- What starts is put into the cache. -/
theorem bare?_after_of_starts (h : graph.Allows event) (hs : event.starts a = true) :
    ∃ record, (graph.after event).bare? a = some record := by
  rw [bare?_after h]
  cases event with
  | started cache id parent exports => exact ⟨_, if_pos hs⟩
  | _ => contradiction

/-- What comes to a good end is loaded. -/
theorem bare?_after_of_finishes (h : graph.Allows event) (hf : event.finishes a = true) :
    ∃ record, (graph.after event).bare? a = some record ∧ record.loaded = true := by
  rw [bare?_after h]
  cases event with
  | finished cache id exports =>
    have hb : (graph.bare? a).map Record.exports = some exports := by
      rw [← bare?_congr hf, ← exports?_eq_bare?]
      exact h.2
    obtain ⟨record, hr, _⟩ := Option.map_eq_some_iff.1 hb
    rw [hr]
    exact ⟨_, if_pos hf, rfl⟩
  | _ => contradiction

/-- What a module exports changes only when it is assigned. -/
theorem exports?_after_of_some (h : graph.Allows event) (hr : graph.exports? a = some exports)
    (hf : event.fails a = false) :
    (graph.after event).exports? a = some ((event.assigned? a).getD exports) := by
  rw [exports?_eq_bare?, Option.map_eq_some_iff] at hr
  obtain ⟨record, hr, rfl⟩ := hr
  rw [exports?_eq_bare?, bare?_after h, hr]
  cases event with
  | started cache id parent exports =>
    have hs : Identity.same (cache, id) a = false := not_starts_of_some h hr
    simp [Event.onRecord, Event.assigned?, hs]
  | failed cache id failure =>
    have hs : Identity.same (cache, id) a = false := hf
    simp [Event.onRecord, Event.assigned?, hs]
  | assigned cache id exports =>
    rw [Event.onRecord, Event.assigned?]
    split <;> rfl
  | finished cache id exports =>
    rw [Event.onRecord]
    split <;> rfl
  | _ => rfl

/-- What is given away as the exports of a module is what it exports at that moment. -/
theorem exports?_of_given? (h : graph.Allows event) (hg : event.given? a = some exports) :
    graph.exports? a = some exports := by
  have hc {cache : CacheId} {id : Path} {value : Value} (hv : graph.exports? (cache, id) = some value)
      (hg : (if Identity.same (cache, id) a then some value else none) = some exports) :
      graph.exports? a = some exports := by
    split at hg
    · next hs => rw [exports?, ← find?_congr hs, ← hg]; exact hv
    · contradiction
  cases event with
  | entered cache id value => exact hc h.2 hg
  | found cache id parent value => exact hc h hg
  | finished cache id value => exact hc h.2 hg
  | _ => contradiction

/-- A module that is loaded is not the innermost one that is being loaded. -/
theorem Disciplined.not_same_of_loaded {b : Identity} (h : graph.Disciplined)
    (hr : graph.bare? a = some record) (hl : record.loaded = true) (hh : graph.loading.head? = some b) :
    Identity.same b a = false := by
  rw [← Bool.not_eq_true]
  intro hs
  have hu := (h.unloaded_iff a).2 ⟨b, List.mem_of_head? hh, hs⟩
  obtain ⟨unloaded, hu, hn⟩ := unloaded_iff_bare?.1 hu
  rw [hu, Option.some.injEq] at hr
  rw [hr, hl] at hn
  contradiction

/-! ## Many events -/

namespace Follows

/-- A record lives on while no load of its module fails. -/
theorem kept (h : Follows floor start events graph) (hr : start.bare? a = some record)
    (hf : ∀ event ∈ events, event.fails a = false) :
    ∃ later, graph.bare? a = some later ∧ record.Becomes later := by
  induction h with
  | refl _ => exact ⟨record, hr, .refl record⟩
  | step _ ha _ ih =>
    rw [List.forall_mem_cons] at hf
    obtain ⟨middle, hm, hb⟩ := ih hf.2
    obtain ⟨later, hl, hb'⟩ := bare?_after_of_some ha hm hf.1
    exact ⟨later, hl, hb.trans hb'⟩

/-- While a record lives, no load of its module starts. -/
theorem not_starts (h : Follows floor start events graph) (hr : start.bare? a = some record)
    (hf : ∀ event ∈ events, event.fails a = false) : ∀ event ∈ events, event.starts a = false := by
  induction h with
  | refl _ => simp
  | step h ha _ ih =>
    rw [List.forall_mem_cons] at hf ⊢
    obtain ⟨middle, hm, _⟩ := h.kept hr hf.2
    exact ⟨not_starts_of_some ha hm, ih hf.2⟩

/-- What a module exports while its record lives. -/
theorem exports?_eq (h : Follows floor start events graph) (he : start.exports? a = some exports)
    (hf : ∀ event ∈ events, event.fails a = false) :
    graph.exports? a = some ((events.findSome? (Event.assigned? a)).getD exports) := by
  induction h with
  | refl _ => exact he
  | @step events graph event _ ha _ ih =>
    rw [List.forall_mem_cons] at hf
    rw [exports?_after_of_some ha (ih hf.2) hf.1, List.findSome?_cons]
    cases event.assigned? a <;> rfl

/-- The load that fails is the innermost one, so none that goes on all the while fails. -/
theorem not_fails_of_floor (h : Follows floor start events graph) (hs : start.Disciplined)
    (ha : ∃ b ∈ floor, Identity.same b a = true) : ∀ event ∈ events, event.fails a = false := by
  obtain ⟨b, hb, hba⟩ := ha
  induction h with
  | refl _ => simp
  | @step events graph event h hallowed hfloor ih =>
    rw [List.forall_mem_cons]
    refine ⟨?_, ih⟩
    rw [← Bool.not_eq_true]
    intro hf
    cases event with
    | failed cache id failure =>
      obtain ⟨rest, hl⟩ := List.head?_eq_some_iff.1 hallowed
      have hp := (h.disciplined hs).apart
      rw [hl, List.pairwise_cons] at hp
      -- The floor is what is left when the innermost load ends, so `b` is a load further out.
      have hr : b ∈ rest := by
        have hm := hfloor.subset hb
        simpa [Graph.after, hl] using hm
      exact hp.1 b hr (Identity.same_trans hf (by rwa [Identity.same_comm]))
    | _ => contradiction

/-- A module that is loaded never fails, and its body never begins again. -/
private theorem not_fails_nor_enters_of_loaded (h : Follows floor start events graph) (hs : start.Disciplined)
    (hr : start.bare? a = some record) (hl : record.loaded = true) :
    ∀ event ∈ events, event.fails a = false ∧ event.enters a = false := by
  induction h with
  | refl _ => simp
  | @step events graph event h hallowed _ ih =>
    rw [List.forall_mem_cons]
    refine ⟨?_, ih⟩
    obtain ⟨later, hlater, hb⟩ := h.kept hr fun event he => (ih event he).1
    have hloaded := hb.loaded hl
    cases event with
    | failed cache id failure => exact ⟨(h.disciplined hs).not_same_of_loaded hlater hloaded hallowed, rfl⟩
    | entered cache id exports => exact ⟨rfl, (h.disciplined hs).not_same_of_loaded hlater hloaded hallowed.1⟩
    | _ => exact ⟨rfl, rfl⟩

/-- A module that was loaded at the start does not fail. -/
theorem not_fails_of_loaded (h : Follows floor start events graph) (hs : start.Disciplined)
    (hr : start.bare? a = some record) (hl : record.loaded = true) :
    ∀ event ∈ events, event.fails a = false :=
  fun event he => (h.not_fails_nor_enters_of_loaded hs hr hl event he).1

/-- No load of a module that is loaded starts, and its body does not run again. -/
theorem over_of_loaded (h : Follows floor start events graph) (hs : start.Disciplined)
    (hr : start.bare? a = some record) (hl : record.loaded = true) :
    ∀ event ∈ events, event.starts a = false ∧ event.enters a = false := fun event he =>
  ⟨h.not_starts hr (h.not_fails_of_loaded hs hr hl) event he, (h.not_fails_nor_enters_of_loaded hs hr hl event he).2⟩

/-- What is not in the cache is not there later unless it starts. -/
theorem find?_eq_none (h : Follows floor start events graph) (hn : start.find? a = none)
    (hs : ∀ event ∈ events, event.starts a = false) : graph.find? a = none := by
  induction h with
  | refl _ => exact hn
  | step _ _ _ ih =>
    rw [List.forall_mem_cons] at hs
    exact find?_after_of_none (ih hs.2) hs.1

/-- Between two starts of a load of a module, one of them failed. -/
theorem fails_between {first second : Event} {between : List Event}
    (h : Follows floor start (later ++ second :: (between ++ first :: earlier)) graph)
    (h₁ : first.starts a = true) (h₂ : second.starts a = true) :
    ∃ event ∈ between, event.fails a = true := by
  obtain ⟨_, h, _⟩ := h.append_inv
  obtain ⟨_, h, ha₂, _⟩ := h.cons_inv
  obtain ⟨_, h, hb⟩ := h.append_inv
  obtain ⟨_, _, ha₁, rfl⟩ := h.cons_inv
  rw [← List.any_eq_true, ← Bool.not_eq_false, List.any_eq_false]
  intro hn
  -- If none failed, the record of the first load would be in the way of the second one.
  have hf : ∀ event ∈ between, event.fails a = false := fun event he => by simpa using hn event he
  obtain ⟨record, hr⟩ := bare?_after_of_starts ha₁ h₁
  obtain ⟨later, hl, _⟩ := hb.kept hr hf
  rw [bare?_eq_none_of_starts ha₂ h₂] at hl
  contradiction

/-- Once a load of a module has come to a good end, no other one starts, and the body does not run again. -/
theorem over_of_finishes {first : Event} (h : Follows floor start (later ++ first :: earlier) graph)
    (hs : start.Disciplined) (h₁ : first.finishes a = true) :
    ∀ event ∈ later, event.starts a = false ∧ event.enters a = false := by
  obtain ⟨_, h, hl⟩ := h.append_inv
  obtain ⟨_, h', ha, rfl⟩ := h.cons_inv
  obtain ⟨record, hr, hloaded⟩ := bare?_after_of_finishes ha h₁
  exact hl.over_of_loaded (h.disciplined hs) hr hloaded

/-- After a load of a module has failed, it is not in the cache unless one starts again. -/
theorem find?_eq_none_of_fails {first : Event} (h : Follows floor start (later ++ first :: earlier) graph)
    (h₁ : first.fails a = true) (hs : ∀ event ∈ later, event.starts a = false) :
    graph.find? a = none := by
  obtain ⟨_, h, hl⟩ := h.append_inv
  obtain ⟨_, _, ha, rfl⟩ := h.cons_inv
  refine hl.find?_eq_none ?_ hs
  rw [← bare?_eq_none_iff, bare?_after ha]
  cases first with
  | failed cache id failure => exact if_pos h₁
  | _ => contradiction

end Follows

end Graph
end ScriptModules
