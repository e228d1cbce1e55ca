import ScriptModules.Proofs.Loading.Require
import ScriptModules.Proofs.Loading.Requests

/-!
# Every module once

A module that has been loaded is never loaded again, and while its record lives, all who require it are given
what it exports at that moment (`Machine.LoadsOnce`).  So they are all given the same value, unless the module
replaces its exports.
-/

namespace ScriptModules

namespace Graph

/-- A record of the module has lived through these latest events: it was in the cache at the start, or it was put
in right before them, with these exports, and no load of the module has failed since. -/
structure Lives (start : Graph) (a : Identity) (exports : Value) (since events : List Event) : Prop where
  begins : (since = events ∧ start.exports? a = some exports) ∨
    ∃ cache id parent earlier, events = since ++ .started cache id parent exports :: earlier ∧
      Identity.same (cache, id) a = true
  lasts : ∀ event ∈ since, event.fails a = false

/-- What a module exports after these events, the latest first, if it began with these exports. -/
def slot (a : Identity) (exports : Value) (since : List Event) : Value :=
  (since.findSome? (Event.assigned? a)).getD exports

variable {floor : List Identity} {start graph : Graph} {event : Event} {since events later : List Event}
  {a b : Identity} {exports value : Value}

/-- A module that never replaces its exports keeps those that it began with. -/
theorem slot_of_not_assigned (h : ∀ event ∈ since, event.assigned? a = none) :
    slot a exports since = exports := by
  rw [slot, List.findSome?_eq_none_iff.2 h]
  rfl

/-- The life of a record up to an earlier moment. -/
theorem Lives.before (h : start.Lives a exports (later ++ since) (later ++ events)) :
    start.Lives a exports since events := by
  refine ⟨?_, fun event he => h.lasts event (List.mem_append_right _ he)⟩
  rcases h.begins with ⟨he, hs⟩ | ⟨cache, id, parent, earlier, he, hs⟩
  · exact .inl ⟨List.append_cancel_left he, hs⟩
  · rw [List.append_assoc] at he
    exact .inr ⟨cache, id, parent, earlier, List.append_cancel_left he, hs⟩

namespace Follows

/-- What a module exports whose record lives. -/
theorem exports?_of_lives (h : Follows floor start events graph) (hl : start.Lives a exports since events) :
    graph.exports? a = some (slot a exports since) := by
  rcases hl.begins with ⟨rfl, hs⟩ | ⟨cache, id, parent, earlier, rfl, hs⟩
  · exact h.exports?_eq hs hl.lasts
  · obtain ⟨_, h, hlater⟩ := h.append_inv
    obtain ⟨before, _, ha, rfl⟩ := h.cons_inv
    refine hlater.exports?_eq ?_ hl.lasts
    rw [exports?_eq_bare?, bare?_after ha, Event.onRecord, if_pos hs]
    rfl

/-- What is given away while a record lives is what its module exports at that moment. -/
theorem eq_slot_of_given? (h : Follows floor start (later ++ event :: events) graph)
    (hl : start.Lives a exports since events) (hg : event.given? a = some value) :
    value = slot a exports since := by
  obtain ⟨_, h, _⟩ := h.append_inv
  obtain ⟨before, h, ha, _⟩ := h.cons_inv
  have he := exports?_of_given? ha hg
  rw [h.exports?_of_lives hl] at he
  exact (Option.some.inj he).symm

/-- All who are given the exports of a module while its record lives are given the same ones, if the module never
replaces them. -/
theorem eq_of_given? (h : Follows floor start events graph) (hl : start.Lives a exports since events)
    (hn : ∀ event ∈ since, event.assigned? a = none) (he : event ∈ since)
    (hg : event.given? a = some value) : value = exports := by
  -- The event cuts the life of the record in two, and what came before it was a life of the record as well.
  obtain ⟨after, before, rfl⟩ := List.append_of_mem he
  obtain ⟨rest, rfl⟩ : ∃ rest, events = after ++ event :: rest := by
    rcases hl.begins with ⟨rfl, _⟩ | ⟨_, _, _, _, rfl, _⟩
    · exact ⟨_, rfl⟩
    · exact ⟨_, by rw [List.append_assoc, List.cons_append]⟩
  have hlives : start.Lives a exports ([event] ++ before) ([event] ++ rest) := hl.before
  rw [h.eq_slot_of_given? hlives.before hg]
  exact slot_of_not_assigned fun event he => hn event (List.mem_append_right _ (List.mem_cons_of_mem _ he))

end Follows
end Graph

open ScriptModules.Graph

/-- Between these machines, with these events, the latest first, every module was loaded once, and while its record
lived, all who required it were given what it exported then. -/
structure Machine.LoadsOnce (machine : Machine) (added : List Event) (later : Machine) : Prop where
  events : later.events = added ++ machine.events
  /-- Between two starts of a load of a module, one has failed. -/
  retried : ∀ a after second between first before, added = after ++ second :: (between ++ first :: before) →
    first.starts a = true → second.starts a = true → ∃ event ∈ between, event.fails a = true
  /-- A module that has been loaded is never loaded again, and its body does not run again. -/
  ended : ∀ a after first before, added = after ++ first :: before → first.finishes a = true →
    ∀ event ∈ after, event.starts a = false ∧ event.enters a = false
  /-- Nor is one that was in the cache before. -/
  ended_before : ∀ a, machine.graph.find? a ≠ none →
    ∀ event ∈ added, event.starts a = false ∧ event.enters a = false
  /-- What a module exports while its record lives. -/
  exports : ∀ a exports since, machine.graph.Lives a exports since added →
    later.graph.exports? a = some (slot a exports since)
  /-- What its body, and whoever has required it, was given was what it exported then. -/
  given : ∀ a exports since after event before value, added = after ++ event :: before →
    machine.graph.Lives a exports since before → event.given? a = some value → value = slot a exports since
  /-- Whoever requires it now is given what it exports now. -/
  present : ∀ fuel loaderId specifier dir parent id a exports since,
    (Run.resolve loaderId specifier dir later).1 = .ok (.file id) →
    Identity.same ((later.loader loaderId).cache, id) a = true → machine.graph.Lives a exports since added →
    ((steps fuel).require loaderId specifier dir parent later).1 = .ok (slot a exports since)
  /-- Whoever requires it so that it is loaded is given what it exports in the end. -/
  loaded : ∀ fuel loaderId specifier dir parent id value last,
    (Run.resolve loaderId specifier dir later).1 = .ok (.file id) →
    (steps fuel).require loaderId specifier dir parent later = (.ok value, last) →
    last.graph.exports? ((later.loader loaderId).cache, id) = some value
  /-- So all are given the value that its body was given, if the module never replaces its exports. -/
  single : ∀ a exports since, machine.graph.Lives a exports since added →
    (∀ event ∈ since, event.assigned? a = none) →
    (∀ event ∈ since, ∀ value, event.given? a = some value → value = exports) ∧
      ∀ fuel loaderId specifier dir parent id,
        (Run.resolve loaderId specifier dir later).1 = .ok (.file id) →
        Identity.same ((later.loader loaderId).cache, id) a = true →
        ((steps fuel).require loaderId specifier dir parent later).1 = .ok exports

namespace Machine

variable {floor : List Identity} {machine later : Machine} {loaderId : LoaderId} {specifier : String}
  {dir id : Path} {a : Identity} {value : Value}

/-- A request that leads to a module by any spelling of its path gives what the module exports. -/
private theorem require_of_same (fuel : Nat) (parent : Option Path) (hm : machine.Sound)
    (hr : (Run.resolve loaderId specifier dir machine).1 = .ok (.file id))
    (hs : Identity.same ((machine.loader loaderId).cache, id) a = true)
    (he : machine.graph.exports? a = some value) :
    ((steps fuel).require loaderId specifier dir parent machine).1 = .ok value := by
  refine Steps.require_of_some _ parent hm hr ?_
  rw [exports?, find?_congr hs]
  exact he

/-- Machines that a row of events leads to. -/
theorem Leads.loadsOnce (hl : machine.Leads floor later) (hm : machine.Settled) :
    ∃ added, machine.LoadsOnce added later := by
  have hlater := hl.sound hm.sound
  obtain ⟨_, _, added, hadded, hfollows⟩ := hl
  refine ⟨added, hadded, ?_, ?_, ?_, ?_, ?_, ?_, ?_, ?_⟩
  · intro a after second between first before he h₁ h₂
    rw [he] at hfollows
    exact hfollows.fails_between h₁ h₂
  · intro a after first before he h₁
    rw [he] at hfollows
    exact hfollows.over_of_finishes hm.sound.disciplined h₁
  · intro a ha
    obtain ⟨record, hr⟩ := Option.ne_none_iff_exists'.1 ha
    exact hfollows.over_of_loaded hm.sound.disciplined (bare?_of_find? hr) (hm.loaded a record hr)
  · intro a exports since hlives
    exact hfollows.exports?_of_lives hlives
  · intro a exports since after event before value he hlives hg
    rw [he] at hfollows
    exact hfollows.eq_slot_of_given? hlives hg
  · intro fuel loaderId specifier dir parent id a exports since hr hs hlives
    exact require_of_same fuel parent hlater hr hs (hfollows.exports?_of_lives hlives)
  · intro fuel loaderId specifier dir parent id value last hr h
    exact Steps.require_ok (steps_scripted fuel) hlater hr h
  · intro a exports since hlives hn
    refine ⟨fun event he value hg => hfollows.eq_of_given? hlives hn he hg, ?_⟩
    intro fuel loaderId specifier dir parent id hr hs
    have he := hfollows.exports?_of_lives hlives
    rw [slot_of_not_assigned hn] at he
    exact require_of_same fuel parent hlater hr hs he

end Machine

namespace Run

/-- At every moment while requests are served, every module has been loaded at most once, and all who have
required it or require it now are given what it exports at that moment. -/
theorem loadsOnce_of_serveAll (fuel : Nat) (requests : List Request) {machine later : Machine}
    (hm : machine.Settled) (hp : (serveAll fuel requests).passes machine later) :
    ∃ added, machine.LoadsOnce added later :=
  ((serveAll_traced fuel requests machine hm.sound).leads later hp).loadsOnce hm

/-- Two modules that require each other are each loaded once. -/
theorem loadsOnce_of_cycle :
    ∃ later added, serveAll 30 [.require ⟨0⟩ "/a" ⟨"/"⟩ none] (.ofSite .cycle) = (.ok (), later) ∧
      (Machine.ofSite .cycle).LoadsOnce added later := by
  have hrun : (serveAll 30 [.require ⟨0⟩ "/a" ⟨"/"⟩ none] (.ofSite .cycle)).1 = .ok () := by
    decide +kernel
  obtain ⟨added, honce⟩ := loadsOnce_of_serveAll 30 [.require ⟨0⟩ "/a" ⟨"/"⟩ none]
    (Machine.settled_ofSite .cycle) (passes_end _ _)
  exact ⟨_, added, Prod.ext hrun rfl, honce⟩

end Run
end ScriptModules
