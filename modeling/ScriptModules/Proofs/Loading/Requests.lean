import ScriptModules.Machine.Embedding
import ScriptModules.Proofs.Loading.Load

/-!
# Requests of an embedding program

An embedding program asks for modules and snippets one after the other, and some of what it asks for fails.
Between the requests the machine is settled (`Machine.Settled`): no load goes on, and every module that is in
the cache is loaded (`Run.settled_of_serveAll`).  During the requests the modules that are not loaded are those
whose loads go on, each at most once.
-/

namespace ScriptModules

/-- The machine is between two requests: no load goes on, and every module in a cache is loaded.  The handlers
are those that are there from the start, and every loader has a cache. -/
structure Machine.Settled (machine : Machine) : Prop where
  registries : ∀ id, (machine.registry id).Standard
  caches : ∀ id, (machine.loader id).cache.index < machine.heap.caches.size
  idle : machine.loading = []
  loaded : ∀ a record, machine.graph.find? a = some record → record.loaded = true

/-- Two modules that require each other. -/
def Site.cycle : Site := .ofFiles [("/a", "exports.b = require('/b')"), ("/b", "exports.a = require('/a')")]

namespace Machine

variable {machine later : Machine}

theorem Settled.sound (h : machine.Settled) : machine.Sound := by
  refine ⟨h.registries, h.caches, fun a => ?_, ?_⟩
  · refine iff_of_false ?_ ?_
    · rintro ⟨record, hr, hn⟩
      rw [h.loaded a record hr] at hn
      contradiction
    · rintro ⟨b, hb, _⟩
      rw [show machine.graph.loading = [] from h.idle] at hb
      contradiction
  · rw [show machine.graph.loading = [] from h.idle]
    exact .nil

private theorem Sound.settled (h : machine.Sound) (hl : machine.loading = []) : machine.Settled := by
  refine ⟨h.registries, h.caches, hl, fun a record hr => ?_⟩
  rw [← Bool.not_eq_false]
  intro hn
  obtain ⟨b, hb, _⟩ := (h.disciplined.unloaded_iff a).1 ⟨record, hr, hn⟩
  rw [show machine.graph.loading = [] from hl] at hb
  contradiction

/-- The cache of a new machine is empty. -/
theorem find?_ofSite (site : Site) (a : Identity) : (ofSite site).graph.find? a = none := by
  have hcaches : (ofSite site).graph.caches = #[.empty] := rfl
  rw [Graph.find?, Graph.cache, hcaches]
  by_cases hi : a.1.index = 0
  · simp [hi]
  · have hnone : (#[Cache.empty] : Array Cache)[a.1.index]? = none := by
      simp; omega
    rw [hnone]
    rfl

/-- A new machine is settled. -/
theorem settled_ofSite (site : Site) : (ofSite site).Settled := by
  have hcaches : (ofSite site).heap.caches = #[.empty] := rfl
  have hregistries : (ofSite site).registries = #[.standard] := rfl
  obtain ⟨loader, hloaders, hcache⟩ : ∃ loader, (ofSite site).loaders = #[loader] ∧ loader.cache = ⟨0⟩ :=
    ⟨_, rfl, rfl⟩
  refine ⟨fun id => ?_, fun id => ?_, rfl, fun a record hr => ?_⟩
  · rw [registry, hregistries]
    by_cases hi : id.index = 0
    · simp only [hi]
      exact Registry.standard_standard
    · have hnone : (#[Registry.standard] : Array Registry)[id.index]? = none := by
        simp; omega
      rw [hnone]
      exact fun _ h => absurd h List.not_mem_nil
  · rw [hcaches, Machine.loader, hloaders]
    by_cases hi : id.index = 0
    · simp [hi, hcache]
    · have hnone : (#[loader] : Array Loader)[id.index]? = none := by
        simp; omega
      rw [hnone]
      decide
  · rw [find?_ofSite] at hr
    contradiction

end Machine

namespace Run

/-! ## Requests are rows of events -/

variable {machine later : Machine}

/-- A request goes by rows of events, and no load goes on behind it that did not before. -/
theorem serve_traced (fuel : Nat) (request : Request) : (serve fuel request).Traced := Traced.lasting.serve fuel request

/-- Requests one after the other go by rows of events. -/
theorem serveAll_traced (fuel : Nat) (requests : List Request) : (serveAll fuel requests).Traced :=
  Traced.lasting.serveAll fuel requests

/-- Requests that are served leave the machine settled. -/
theorem settled_of_traced {α : Type} {run : Run α} {outcome : Outcome α} (h : run.Traced)
    (hm : machine.Settled) (he : run machine = (outcome, later)) (hne : outcome ≠ .exhausted) :
    later.Settled := by
  have hrun := h machine hm.sound
  have hsound := (hrun.leads later (passes_of_eq he)).sound hm.sound
  exact hsound.settled ((hrun.loading he hne).trans hm.idle)

/-- Between requests the machine is settled. -/
theorem settled_of_serveAll (fuel : Nat) (requests : List Request) (hm : machine.Settled)
    {outcome : Outcome Unit} (he : serveAll fuel requests machine = (outcome, later))
    (hne : outcome ≠ .exhausted) : later.Settled :=
  settled_of_traced (serveAll_traced fuel requests) hm he hne

/-! ## The discipline of the loads -/

/-- At every moment while requests are served, the modules that are in a cache and not loaded are those whose
loads go on, and no module is loaded twice at once.  When they have been served, no load goes on, and every module
in a cache is loaded. -/
theorem unloaded_iff_loads_of_serveAll (fuel : Nat) (requests : List Request) (hm : machine.Settled) :
    (∀ later, (serveAll fuel requests).passes machine later →
      (∀ a, later.graph.Unloaded a ↔ later.graph.Loads a) ∧
        later.loading.Pairwise fun a b => ¬Identity.same a b = true) ∧
    ∀ outcome later, serveAll fuel requests machine = (outcome, later) → outcome ≠ .exhausted →
      later.loading = [] ∧ ∀ a record, later.graph.find? a = some record → record.loaded = true := by
  have htraced := serveAll_traced fuel requests
  constructor
  · intro later hp
    have hsound := ((htraced machine hm.sound).leads later hp).sound hm.sound
    exact ⟨hsound.disciplined.unloaded_iff, hsound.disciplined.apart⟩
  · intro outcome later he hne
    have hsettled := settled_of_serveAll fuel requests hm he hne
    exact ⟨hsettled.idle, hsettled.loaded⟩

/-- A request for one module of a cycle loads the other one too. -/
theorem loaded_of_cycle :
    ∃ later record, serveAll 30 [.require ⟨0⟩ "/a" ⟨"/"⟩ none] (.ofSite .cycle) = (.ok (), later) ∧
      later.graph.find? (⟨0⟩, ⟨"/b"⟩) = some record ∧ record.loaded = true := by
  have hrun : (serveAll 30 [.require ⟨0⟩ "/a" ⟨"/"⟩ none] (.ofSite .cycle)).1 = .ok () ∧
      ((serveAll 30 [.require ⟨0⟩ "/a" ⟨"/"⟩ none] (.ofSite .cycle)).2.graph.find? (⟨0⟩, ⟨"/b"⟩)).isSome =
        true := by
    decide +kernel
  obtain ⟨hok, hfound⟩ := hrun
  obtain ⟨record, hr⟩ := Option.isSome_iff_exists.1 hfound
  refine ⟨_, record, Prod.ext hok rfl, hr, ?_⟩
  have hend := unloaded_iff_loads_of_serveAll 30 [.require ⟨0⟩ "/a" ⟨"/"⟩ none]
    (Machine.settled_ofSite .cycle)
  exact (hend.2 (.ok ()) _ (Prod.ext hok rfl) nofun).2 _ record hr

end Run
end ScriptModules
