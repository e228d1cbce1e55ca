import ScriptModules.Proofs.Loading.Handlers
import ScriptModules.Proofs.Loading.Once
import ScriptModules.Proofs.Runs.Changes
import ScriptModules.Proofs.Runs.Properties

/-!
# Handles of modules

A handle of a module names it, and looks into the cache each time that it is used.  Host objects stay what they are
(`Run.KeepsHosts.serveAll`), so whoever keeps a handle keeps a handle of the same module.  It is dead from the failure
of a load of the module until another one starts, and from then on it is a handle of what that one loads
(`Run.handleFollows_of_serveAll`).
-/

namespace ScriptModules

/-- A module whose load fails the first time, but not before it has left its handle with another module. -/
def Site.escaped : Site := .ofFiles [("/s", ""),
  ("/y", "const s = require('/s'); if (s.m) \x7b exports.ok = 1 \x7d else \x7b s.m = module; throw '' \x7d")]

/-- Is the object a handle of this module? -/
def Host.isHandle (a : Identity) : Host → Bool
  | .module cache id => (cache, id) == a
  | _ => false

private theorem Host.eq_module_of_isHandle {host : Host} {a : Identity} (h : host.isHandle a = true) :
    host = .module a.1 a.2 := by
  cases host with
  | module cache id =>
    obtain rfl := eq_of_beq h
    rfl
  | _ => cases h

/-- All host objects are in the second heap as well, where they were. -/
def Heap.KeepsHosts (heap later : Heap) : Prop :=
  ∀ (i : Nat) (host : Host), heap.hosts[i]? = some host → later.hosts[i]? = some host

namespace Heap

variable {heap later : Heap}

private theorem KeepsHosts.of_hosts (h : later.hosts = heap.hosts) : heap.KeepsHosts later := by
  intro i host hi
  rw [h]
  exact hi

private theorem KeepsHosts.of_push {host : Host} (h : later.hosts = heap.hosts.push host) : heap.KeepsHosts later := by
  intro i other hi
  rw [h]
  exact getElem?_push_of_eq_some hi host

private theorem host_eq_module_iff {handle : HostId} {cache : CacheId} {id : Path} :
    heap.host handle = .module cache id ↔ heap.hosts[handle.index]? = some (.module cache id) := by
  rw [Heap.host]
  cases heap.hosts[handle.index]? with
  | none => exact iff_of_false Host.noConfusion (Option.some_ne_none _).symm
  | some host => exact Option.some_inj.symm

private theorem KeepsHosts.admits : Heap.Admits KeepsHosts where
  sameFrame h := by
    rcases h.hosts with hh | ⟨host, _, hh⟩
    · exact .of_hosts hh
    · exact .of_push hh
  sameData _ h := .of_hosts h
  newHost _ _ := .of_push rfl

end Heap

/-- Every change that is made while requests are served keeps all host objects. -/
theorem Run.KeepsHosts.serveAll (fuel : Nat) (requests : List Request) :
    (Run.serveAll fuel requests).Changes Heap.KeepsHosts :=
  .serveAll Heap.KeepsHosts.admits fuel requests

/-! ## What a handle shows -/

namespace Machine

variable {machine later : Machine} {handle : HostId} {a : Identity} {exports : Value}

/-- Through the handle of a module nothing can be read or written. -/
structure Dead (machine : Machine) (handle : HostId) (id : Path) : Prop where
  reads : ∀ key, Run.property (.host handle) key machine = (.ok .undefined, machine)
  writes : ∀ exports, Run.setProperty (.host handle) "exports" exports machine =
    (.failed (.type (.notCached id)), machine)

/-- Through the handle of a module one reads what the module exports, which is this, and replaces it. -/
structure Alive (machine : Machine) (handle : HostId) (a : Identity) (exports : Value) : Prop where
  reads : Run.property (.host handle) "exports" machine = (.ok exports, machine)
  cached : machine.graph.exports? a = some exports
  writes : ∀ other, ∃ later, Run.setProperty (.host handle) "exports" other machine = (.ok (), later) ∧
    later.graph.exports? a = some other

/-- The body of the module runs inside of this scope, and this is the handle that it was given. -/
structure GivesHandle (machine : Machine) (scope : ScopeId) (handle : HostId) (a : Identity) : Prop where
  names : machine.heap.host handle = .module a.1 a.2
  file : (machine.heap.scope scope).find? "__filename" = some ⟨.string a.2.text, true⟩
  module : (machine.heap.scope scope).find? "module" = some ⟨.host handle, true⟩

/-- What a handle of a module is at the second machine, after these events since the first one, the latest first. -/
structure HandleFollows (machine : Machine) (added : List Event) (later : Machine) (handle : HostId)
    (a : Identity) : Prop where
  events : later.events = added ++ machine.events
  names : later.heap.host handle = .module a.1 a.2
  /-- After a load of the module has failed, the handle is dead unless another one has started. -/
  dead : ∀ after failed before, added = after ++ failed :: before → failed.fails a = true →
    (∀ event ∈ after, event.starts a = false) → later.Dead handle a.2
  /-- Whatever the module exports is read and replaced through the handle. -/
  cached : ∀ exports, later.graph.exports? a = some exports → later.Alive handle a exports
  /-- With the handlers that are there from the start: after a load of the module has started, it is a handle of what
  that one loads unless it has failed. -/
  alive : machine.Settled → ∀ after cache id parent exports before,
    added = after ++ .started cache id parent exports :: before → Identity.same (cache, id) a = true →
    (∀ event ∈ after, event.fails a = false) → later.Alive handle a (Graph.slot a exports after)

private theorem dead_of_find? (h : machine.heap.host handle = .module a.1 a.2) (hn : machine.graph.find? a = none) :
    machine.Dead handle a.2 := by
  have hcache : (machine.heap.cache a.1).find? a.2 = none := hn
  refine ⟨fun key => ?_, fun exports => ?_⟩
  · exact Run.hostProperty_of_find?_eq_none h hcache key
  · have hassign : Run.assignExports a.1 a.2 exports machine = (.ok false, machine) := by
      unfold Run.assignExports Run.update Cache.contains
      simp [hcache]
    exact (Run.setHostProperty_exports h exports).trans ((Run.bind_ok hassign).trans rfl)

private theorem alive_of_exports? (h : machine.heap.host handle = .module a.1 a.2)
    (he : machine.graph.exports? a = some exports) : machine.Alive handle a exports := by
  obtain ⟨record, hrecord, rfl⟩ := Option.map_eq_some_iff.1 he
  have hcache : (machine.heap.cache a.1).find? a.2 = some record := hrecord
  refine ⟨?_, he, fun other => ?_⟩
  · exact Run.hostProperty_exports h hcache
  · let last : Machine := { machine with
      heap := machine.heap.updateCache a.1 (·.setExports a.2 other)
      events := .assigned a.1 a.2 other :: machine.events }
    have hassign : Run.assignExports a.1 a.2 other machine = (.ok true, last) := by
      unfold Run.assignExports Run.update Cache.contains
      simp [hcache, last]
    have hgraph : last.graph = machine.graph.after (.assigned a.1 a.2 other) := rfl
    refine ⟨last, (Run.setHostProperty_exports h other).trans ((Run.bind_ok hassign).trans rfl), ?_⟩
    rw [hgraph, Graph.exports?, Graph.find?_assigned, if_pos (Identity.same_refl a), hrecord]
    rfl

/-- A handle stays a handle of its module. -/
theorem Reaches.host_eq_module {moves : Machine → Machine → Prop} (h : Reaches moves machine later)
    (hm : ∀ before after, moves before after → before.heap.KeepsHosts after.heap)
    (hh : machine.heap.host handle = .module a.1 a.2) : later.heap.host handle = .module a.1 a.2 := by
  induction h with
  | refl => exact hh
  | step _ hmove ih =>
    -- Outside of the heap there are no handles, so that this one is in it.
    rw [Heap.host_eq_module_iff] at ih ⊢
    exact hm _ _ hmove _ _ ih

end Machine

namespace Run

/-- Whoever has kept a handle of a module while requests are served: from the failure of a load of the module until the
next one starts nothing can be read or written through it, and from then on it is a handle of what that one loads. -/
theorem handleFollows_of_serveAll (fuel : Nat) (requests : List Request) {machine given later : Machine}
    {handle : HostId} {a : Identity} (hh : given.heap.host handle = .module a.1 a.2)
    (hr : given.Reaches ((serveAll fuel requests).moves machine) later)
    (hp : (serveAll fuel requests).passes machine later) :
    ∃ added, machine.HandleFollows added later handle a := by
  obtain ⟨added, hrecords⟩ := records_of_serveAll fuel requests hp
  have hnames := hr.host_eq_module (KeepsHosts.serveAll fuel requests machine) hh
  refine ⟨added, hrecords.events, hnames, ?_, fun exports => Machine.alive_of_exports? hnames, fun hm => ?_⟩
  · intro after failed before he hfails hstarts
    -- What has failed is not in the cache, and only a start puts it there.
    exact Machine.dead_of_find? hnames (hrecords.failed a after failed before he hfails hstarts)
  · intro after cache id parent exports before he hs hfails
    obtain ⟨_, _, added', hadded', hfollows⟩ := (serveAll_traced fuel requests machine hm.sound).leads later hp
    obtain rfl : added = added' := List.append_cancel_right (hrecords.events.symm.trans hadded')
    -- The start has put a record in, and that one lives since.
    have hlives : machine.graph.Lives a exports after added := ⟨.inr ⟨cache, id, parent, before, he, hs⟩, hfails⟩
    exact Machine.alive_of_exports? hnames (hfollows.exports?_of_lives hlives)

private theorem serveAll_escaped :
    ∃ failed later, serveAll 40 [.require ⟨0⟩ "/y" ⟨"/"⟩ none] (.ofSite .escaped) = (.ok (), failed) ∧
      serveAll 40 [.require ⟨0⟩ "/y" ⟨"/"⟩ none] failed = (.ok (), later) ∧
      failed.GivesHandle ⟨1⟩ ⟨13⟩ (⟨0⟩, ⟨"/y"⟩) ∧
      failed.events.head? = some (.failed ⟨0⟩ ⟨"/y"⟩ (.thrown (.string ""))) ∧
      (property (.host ⟨13⟩) "exports" later).1 = .ok (.object ⟨8⟩) := by
  have hfirst : (serveAll 40 [.require ⟨0⟩ "/y" ⟨"/"⟩ none] (.ofSite .escaped)).1 = .ok () ∧
      ((serveAll 40 [.require ⟨0⟩ "/y" ⟨"/"⟩ none] (.ofSite .escaped)).2.heap.host ⟨13⟩).isHandle
        (⟨0⟩, ⟨"/y"⟩) = true ∧
      ((serveAll 40 [.require ⟨0⟩ "/y" ⟨"/"⟩ none] (.ofSite .escaped)).2.heap.scope ⟨1⟩).find? "__filename" =
        some ⟨.string "/y", true⟩ ∧
      ((serveAll 40 [.require ⟨0⟩ "/y" ⟨"/"⟩ none] (.ofSite .escaped)).2.heap.scope ⟨1⟩).find? "module" =
        some ⟨.host ⟨13⟩, true⟩ ∧
      (serveAll 40 [.require ⟨0⟩ "/y" ⟨"/"⟩ none] (.ofSite .escaped)).2.events.head? =
        some (.failed ⟨0⟩ ⟨"/y"⟩ (.thrown (.string ""))) := by
    decide +kernel
  have hsecond : (serveAll 40 [.require ⟨0⟩ "/y" ⟨"/"⟩ none]
        (serveAll 40 [.require ⟨0⟩ "/y" ⟨"/"⟩ none] (.ofSite .escaped)).2).1 = .ok () ∧
      (property (.host ⟨13⟩) "exports" (serveAll 40 [.require ⟨0⟩ "/y" ⟨"/"⟩ none]
        (serveAll 40 [.require ⟨0⟩ "/y" ⟨"/"⟩ none] (.ofSite .escaped)).2).2).1 = .ok (.object ⟨8⟩) := by
    decide +kernel
  exact ⟨_, _, Prod.ext hfirst.1 rfl, Prod.ext hsecond.1 rfl,
    ⟨Host.eq_module_of_isHandle hfirst.2.1, hfirst.2.2.1, hfirst.2.2.2.1⟩, hfirst.2.2.2.2, hsecond.2⟩

/-- Requests that come after others go on where those ended. -/
private theorem reaches_append {first second : List Request} {machine middle : Machine} (fuel : Nat)
    (h : serveAll fuel first machine = (.ok (), middle)) (later : Machine)
    (hp : (serveAll fuel second).passes middle later) :
    (serveAll fuel (first ++ second)).passes machine later ∧
      middle.Reaches ((serveAll fuel (first ++ second)).moves machine) later := by
  induction first generalizing machine with
  | nil =>
    obtain ⟨_, rfl⟩ := Prod.mk.inj h
    exact ⟨hp, (serveAll fuel second).passes_moves _ later hp⟩
  | cons request first ih =>
    rcases bind_inv h with ⟨result, next, hserve, h⟩ | ⟨_, _, hf⟩ | ⟨_, hf⟩
    · obtain ⟨hpasses, hreaches⟩ := ih h
      exact ⟨.inr ⟨result, next, hserve, hpasses⟩, hreaches.mono fun _ _ hm => .inr ⟨result, next, hserve, hm⟩⟩
    · cases hf
    · cases hf

/-- A handle that was left with another module shows what the next load of its module makes. -/
theorem handleFollows_of_escaped :
    ∃ failed later added, serveAll 40 [.require ⟨0⟩ "/y" ⟨"/"⟩ none] (.ofSite .escaped) = (.ok (), failed) ∧
      failed.GivesHandle ⟨1⟩ ⟨13⟩ (⟨0⟩, ⟨"/y"⟩) ∧
      (Machine.ofSite .escaped).HandleFollows added later ⟨13⟩ (⟨0⟩, ⟨"/y"⟩) ∧
      (property (.host ⟨13⟩) "exports" later).1 = .ok (.object ⟨8⟩) := by
  obtain ⟨failed, later, hfirst, hsecond, hgives, _, hread⟩ := serveAll_escaped
  obtain ⟨hpasses, hreaches⟩ := reaches_append 40 hfirst later (passes_of_eq hsecond)
  obtain ⟨added, hadded⟩ := handleFollows_of_serveAll 40 _ hgives.names hreaches hpasses
  exact ⟨failed, later, added, hfirst, hgives, hadded, hread⟩

/-- The handle that a module was given whose load has failed is not dead forever. -/
theorem not_all_handles_dead :
    ¬∀ (fuel : Nat) (requests more : List Request) (machine failed later : Machine) (a : Identity) (failure : Failure)
      (scope : ScopeId) (handle : HostId), machine.Settled →
      serveAll fuel requests machine = (.ok (), failed) → failed.GivesHandle scope handle a →
      failed.events.head? = some (.failed a.1 a.2 failure) → serveAll fuel more failed = (.ok (), later) →
      later.Dead handle a.2 := by
  intro h
  obtain ⟨failed, later, hfirst, hsecond, hgives, hfailed, hread⟩ := serveAll_escaped
  have hdead := h 40 _ _ _ failed later _ _ _ _ (Machine.settled_ofSite .escaped) hfirst hgives hfailed hsecond
  rw [hdead.reads] at hread
  cases hread

end Run
end ScriptModules
