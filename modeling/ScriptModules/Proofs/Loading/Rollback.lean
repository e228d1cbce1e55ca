import ScriptModules.Proofs.Loading.Escape
import ScriptModules.Proofs.Loading.Require
import ScriptModules.Proofs.Loading.Requests

/-!
# Failed requests

What is left of a request for a module that has failed (`Machine.RollsBack`): the module is not in the cache, nor
is any other whose load has failed and was not tried again, and nothing else is lost.  The failure is the one that
a load function raised in a script, if no script caught or replaced that one.
-/

namespace ScriptModules

/-- What a request leaves that has failed.  It was for this target in this cache, from this parent, and added these
events, the latest first. -/
structure Machine.RollsBack (machine : Machine) (cache : CacheId) (target : Outcome Target)
    (parent : Option Path) (failure : Failure) (added : List Event) (later : Machine) : Prop where
  events : later.events = added ++ machine.events
  /-- The module that was asked for is not in the cache. -/
  target_gone : ∀ id, target = .ok (.file id) → machine.graph.find? (cache, id) = none →
    later.graph.find? (cache, id) = none
  /-- Nor is any module whose own load has failed, unless it was started again. -/
  failed_gone : ∀ after a raised before, added = after ++ .failed a.1 a.2 raised :: before →
    (∀ event ∈ after, event.starts a = false) → later.graph.find? a = none
  /-- What was in a cache is there still. -/
  kept : ∀ a record, machine.graph.find? a = some record → ∃ now, later.graph.find? a = some now ∧
    now.id = record.id ∧ now.filename = record.filename ∧ now.parent = record.parent ∧ now.loaded = true
  /-- What is new in a cache is loaded. -/
  added_loaded : ∀ a record, machine.graph.find? a = none → later.graph.find? a = some record →
    record.loaded = true
  /-- The parent does not list the module. -/
  unlisted : ∀ id p record, target = .ok (.file id) → parent = some p → p.same id = false →
    later.graph.find? (cache, p) = some record → record.lists id = false
  /-- A failure that a script was given by a load function and that was not dropped is this one. -/
  raised : ∀ other, Stands machine.events.length other added → other = failure

/-- A module that fails the first time it is required, and is required again while that failure goes on. -/
def Site.retried : Site := .ofFiles [("/x", "try \x7b require('/y') \x7d finally \x7b require('/y') \x7d"),
  ("/y", "const s = require('/s'); if (!s.t) \x7b s.t = true; throw '' \x7d"), ("/s", "")]

namespace Steps

open Run

variable {next : Steps} {machine later : Machine} {loaderId : LoaderId} {specifier : String} {dir id : Path}
  {parent : Option Path} {failure : Failure}

/-- When a request for a module fails, its load ends last, and its record has the parent that asked for it. -/
private theorem ends_of_require_failed (hc : next.Scripted) (hm : machine.Sound)
    (hr : (resolve loaderId specifier dir machine).1 = .ok (.file id))
    (h : next.require loaderId specifier dir parent machine = (.failed failure, later)) :
    ∃ (middle : Machine) (record : Record),
      middle.graph.find? ((machine.loader loaderId).cache, id) = some record ∧ record.parent = parent ∧
      later.graph = middle.graph.after (.failed (machine.loader loaderId).cache id failure) := by
  obtain ⟨exports, entered, middle, hentered, hallows, hgraph, hleads, hshows⟩ := require_failed hc hm hr h
  obtain ⟨_, _, events, _, hfollows⟩ := hleads
  have hstart : entered.graph.bare? ((machine.loader loaderId).cache, id) =
      some (.unloaded id parent exports) := by
    rw [hgraph, Graph.bare?_after hallows]
    exact if_pos (Identity.same_refl _)
  -- The load is on the floor of its own file, so nothing in there can end it.
  have hlive := hfollows.not_fails_of_floor hentered.disciplined
    ⟨_, List.mem_cons_self, Identity.same_refl _⟩
  obtain ⟨bare, hbare, hbecomes⟩ := hfollows.kept hstart hlive
  obtain ⟨record, hrecord, rfl⟩ := Option.map_eq_some_iff.1 hbare
  exact ⟨middle, record, hrecord, hbecomes.parent, hshows.graph⟩

/-- A request for a module that fails rolls back what it began, and loses nothing else. -/
theorem rollsBack_of_require (fuel : Nat) {loaderId : LoaderId} {specifier : String} {dir : Path}
    {parent : Option Path} {failure : Failure} {machine later : Machine} (hm : machine.Settled)
    (h : (steps fuel).require loaderId specifier dir parent machine = (.failed failure, later)) :
    ∃ added, machine.RollsBack (machine.loader loaderId).cache (resolve loaderId specifier dir machine).1
      parent failure added later := by
  have hscripted := (steps_scripted fuel).require loaderId specifier dir parent
  have hsettled := settled_of_traced hscripted.traced hm h nofun
  obtain ⟨_, _, added, hadded, hfollows⟩ := (hscripted.traced machine hm.sound).leads later (passes_of_eq h)
  refine ⟨added, hadded, ?_, ?_, ?_, ?_, ?_, ?_⟩
  · intro id hr _
    obtain ⟨middle, _, _, _, hg⟩ := ends_of_require_failed (steps_scripted fuel) hm.sound hr h
    rw [hg, Graph.find?_failed, if_pos (Identity.same_refl _)]
  · intro events a raised before he hs
    rw [he] at hfollows
    exact hfollows.find?_eq_none_of_fails (Identity.same_refl a) hs
  · intro a record hrecord
    have hbare := Graph.bare?_of_find? hrecord
    have hlive := hfollows.not_fails_of_loaded hm.sound.disciplined hbare (hm.loaded a record hrecord)
    obtain ⟨last, hlast, hbecomes⟩ := hfollows.kept hbare hlive
    obtain ⟨now, hnow, rfl⟩ := Option.map_eq_some_iff.1 hlast
    exact ⟨now, hnow, hbecomes.id, hbecomes.filename, hbecomes.parent, hsettled.loaded a now hnow⟩
  · intro a record _ hrecord
    exact hsettled.loaded a record hrecord
  · intro id p record hr hp hne hrecord
    obtain ⟨middle, failed, hfailed, hparent, hg⟩ := ends_of_require_failed (steps_scripted fuel) hm.sound hr h
    have hself : Identity.same ((machine.loader loaderId).cache, id) ((machine.loader loaderId).cache, p) =
        false := by
      rw [Identity.same, Path.same_comm, hne, Bool.and_false]
    have hdrops : ((middle.graph.find? ((machine.loader loaderId).cache, id)).bind Record.parent).any
        (·.same p) = true := by
      simp [hfailed, hparent, hp]
    rw [hg, Graph.find?_failed, hself, if_neg Bool.false_ne_true, if_pos ⟨rfl, hdrops⟩] at hrecord
    obtain ⟨old, _, rfl⟩ := Option.map_eq_some_iff.1 hrecord
    simp [Record.lists_dropChild]
  · intro other hstands
    obtain ⟨raised, hevents, hends⟩ := hscripted.escapes machine _ later h
    obtain rfl := List.append_cancel_right (hevents.symm.trans hadded)
    rcases hends other hstands with he | he
    · exact (Outcome.failed.inj he).symm
    · cases he

private theorem require_retried :
    ∃ later, (steps 60).require ⟨0⟩ "/x" ⟨"/"⟩ .none (.ofSite .retried) =
        (.failed (.thrown (.string "")), later) ∧
      .failed ⟨0⟩ ⟨"/y"⟩ (.thrown (.string "")) ∈ later.events ∧
      (later.graph.find? (⟨0⟩, ⟨"/y"⟩)).isSome = true := by
  have hrun : ((steps 60).require ⟨0⟩ "/x" ⟨"/"⟩ .none (.ofSite .retried)).1 =
        .failed (.thrown (.string "")) ∧
      .failed ⟨0⟩ ⟨"/y"⟩ (.thrown (.string "")) ∈
        ((steps 60).require ⟨0⟩ "/x" ⟨"/"⟩ .none (.ofSite .retried)).2.events ∧
      (((steps 60).require ⟨0⟩ "/x" ⟨"/"⟩ .none (.ofSite .retried)).2.graph.find? (⟨0⟩, ⟨"/y"⟩)).isSome =
        true := by
    decide +kernel
  exact ⟨_, Prod.ext hrun.1 rfl, hrun.2⟩

/-- A request that fails although the module that failed first was tried again. -/
theorem rollsBack_of_retried :
    ∃ later added, (steps 60).require ⟨0⟩ "/x" ⟨"/"⟩ .none (.ofSite .retried) =
        (.failed (.thrown (.string "")), later) ∧
      (Machine.ofSite .retried).RollsBack ((Machine.ofSite .retried).loader ⟨0⟩).cache
        (resolve ⟨0⟩ "/x" ⟨"/"⟩ (.ofSite .retried)).1 .none (.thrown (.string "")) added later := by
  obtain ⟨later, hrequire, _⟩ := require_retried
  obtain ⟨added, hadded⟩ := rollsBack_of_require 60 (Machine.settled_ofSite .retried) hrequire
  exact ⟨later, added, hrequire, hadded⟩

/-- A module whose load has failed may be in the cache when the request fails, even with the same failure: it was
started again. -/
theorem not_all_failed_gone :
    ¬∀ (fuel : Nat) (loaderId : LoaderId) (specifier : String) (dir : Path) (parent : Option Path)
      (failure : Failure) (machine later : Machine) (added : List Event), machine.Settled →
      (steps fuel).require loaderId specifier dir parent machine = (.failed failure, later) →
      later.events = added ++ machine.events →
      ∀ a : Identity, .failed a.1 a.2 failure ∈ added → later.graph.find? a = Option.none := by
  intro h
  obtain ⟨later, hrequire, hfailed, hstays⟩ := require_retried
  have hgone := h 60 ⟨0⟩ "/x" ⟨"/"⟩ .none _ (.ofSite .retried) later later.events
    (Machine.settled_ofSite .retried) hrequire (List.append_nil _).symm (⟨0⟩, ⟨"/y"⟩) hfailed
  rw [hgone] at hstays
  contradiction

end Steps
end ScriptModules
