import ScriptModules.Machine.Embedding
import ScriptModules.Proofs.Files.Memory
import ScriptModules.Proofs.Runs.ReadOnly
import ScriptModules.Proofs.Termination.Fuel
import ScriptModules.Proofs.Termination.Programs

/-!
# Every run settles

All code that a machine can run is bounded in size if only finitely many identities can be found
(`Machine.exists_size`).  So programs that do not load modules come to the same end from some number of steps on, and
so do requests for modules while files do not change (`Run.settles_runProgram_and_require`).
-/

namespace ScriptModules

open Run

/-- Modules can be loaded: loaders have caches, what is being loaded is in its cache, handlers do not stand for each
other in a circle, and only finitely many identities can be found. -/
structure Machine.Loadable (machine : Machine) : Prop where
  caches : ∀ id, (machine.loader id).cache.index < machine.heap.caches.size
  cached : ∀ a ∈ machine.loading, machine.Cached a
  handlers : ∀ id path, ∃ handler, (machine.registry id).settle ((machine.registry id).handlers.length + 1)
    ((machine.registry id).handlerFor path) = some handler
  finite : ∃ ids : List Path, ∀ loaderId specifier dir id,
    (((machine.scene loaderId).resolve specifier dir).run []).1 = .ok (.file id) → id ∈ ids

/-! ## How large code can be -/

/-- Numbers that are bounded for each item of a list are bounded for all of them. -/
private theorem exists_bound {α : Type} {p : α → Nat → Prop} (items : List α)
    (h : ∀ a, ∃ bound, ∀ n, p a n → n ≤ bound) : ∃ bound, ∀ a ∈ items, ∀ n, p a n → n ≤ bound := by
  induction items with
  | nil => exact ⟨0, nofun⟩
  | cons item items ih =>
    obtain ⟨bound, hitem⟩ := h item
    obtain ⟨rest, hrest⟩ := ih
    refine ⟨max bound rest, fun a ha n hn => ?_⟩
    rcases List.mem_cons.1 ha with rfl | ha
    · exact Nat.le_trans (hitem n hn) (Nat.le_max_left _ _)
    · exact Nat.le_trans (hrest a ha n hn) (Nat.le_max_right _ _)

/-- Functions that have been made are no larger than a bound. -/
private theorem Heap.exists_size (heap : Heap) : ∃ size, ∀ id definition closure properties,
    heap.host id = .function definition closure properties → sizeOf definition ≤ size := by
  obtain ⟨size, hsize⟩ := exists_bound (p := fun host n => ∃ definition closure properties,
    host = Host.function definition closure properties ∧ sizeOf definition = n) heap.hosts.toList fun host => by
      cases host with
      | function definition closure properties =>
        refine ⟨sizeOf definition, ?_⟩
        rintro n ⟨_, _, _, hhost, rfl⟩
        obtain rfl := (Host.function.inj hhost).1
        exact Nat.le_refl _
      | _ => exact ⟨0, nofun⟩
  refine ⟨size, fun id definition closure properties h => ?_⟩
  refine hsize _ ?_ _ ⟨definition, closure, properties, h, rfl⟩
  rw [Heap.host] at h ⊢
  cases hhost : heap.hosts[id.index]? with
  | none =>
    rw [hhost] at h
    cases h
  | some host => exact Array.mem_toList_iff.2 (Array.mem_of_getElem? hhost)

/-- There is one program in a file at most. -/
private theorem Machine.exists_program_size (machine : Machine) (loader : Loader) (id : Path) :
    ∃ bound, ∀ n, (∃ source body, (machine.sites[loader.site.index]?.getD default).readText id = .ok source ∧
      loader.engine.compile source id.text = .ok (.program body) ∧ sizeOf body = n) → n ≤ bound := by
  by_cases h : ∃ source body, (machine.sites[loader.site.index]?.getD default).readText id = .ok source ∧
      loader.engine.compile source id.text = .ok (.program body)
  · obtain ⟨source, body, hsource, hbody⟩ := h
    refine ⟨sizeOf body, ?_⟩
    rintro n ⟨_, _, hs, hb, rfl⟩
    obtain rfl := Except.ok.inj (hsource.symm.trans hs)
    obtain rfl := Compiled.program.inj (Except.ok.inj (hbody.symm.trans hb))
    exact Nat.le_refl _
  · refine ⟨0, ?_⟩
    rintro n ⟨source, body, hs, hb, _⟩
    exact absurd ⟨source, body, hs, hb⟩ h

/-- The modules that can be found at some identities are no larger than a bound. -/
private theorem Machine.exists_size (machine : Machine) (ids : List Path) :
    ∃ size, ∀ loaderId id source body, id ∈ ids →
      (machine.sites[(machine.loader loaderId).site.index]?.getD default).readText id = .ok source →
        (machine.loader loaderId).engine.compile source id.text = .ok (.program body) → sizeOf body ≤ size := by
  obtain ⟨size, hsize⟩ := exists_bound (p := fun loader n => ∃ id ∈ ids, ∃ source body,
      (machine.sites[loader.site.index]?.getD default).readText id = .ok source ∧
        loader.engine.compile source id.text = .ok (.program body) ∧ sizeOf body = n)
    (default :: machine.loaders.toList) fun loader => by
      obtain ⟨bound, hbound⟩ := exists_bound ids (machine.exists_program_size loader)
      exact ⟨bound, fun n ⟨id, hid, h⟩ => hbound id hid n h⟩
  refine ⟨size, fun loaderId id source body hid hs hc => hsize _ ?_ _ ⟨id, hid, source, body, hs, hc, rfl⟩⟩
  rw [Machine.loader]
  cases hloader : machine.loaders[loaderId.index]? with
  | none => exact List.mem_cons_self
  | some loader => exact List.mem_cons_of_mem _ (Array.mem_toList_iff.2 (Array.mem_of_getElem? hloader))

/-! ## Programs and requests -/

namespace Run

variable {machine : Machine}

private theorem settles_runProgram (hh : ∀ id loader dir parent, machine.heap.host id ≠ .require loader dir parent)
    (body : List Script.Statement) (bindings : List (String × Value)) :
    Settles (fun fuel => (steps fuel).runProgram body bindings) machine := by
  obtain ⟨size, hsize⟩ := machine.heap.exists_size
  -- Nothing is loaded, so it does not matter what becomes of the files.
  let realm : Realm := { start := machine, loads := false, ids := [], size := max size (sizeOf body) }
  have htame : machine.Tame realm := by
    refine ⟨fun id => ?_, nofun, rfl, rfl, rfl⟩
    cases hhost : machine.heap.host id with
    | function definition closure properties =>
      exact Nat.le_trans (hsize id definition closure properties hhost) (Nat.le_max_left _ _)
    | require loader dir parent => exact absurd hhost (hh id loader dir parent)
    | _ => trivial
  let budget := machine.budget realm + 1
  have hends : ((steps (budget * (realm.size + 1) + realm.size)).runProgram body bindings).Ends realm budget :=
    Steps.ends_runProgram_of_le (absurd · Bool.false_ne_true) (Nat.le_refl _) body bindings (Nat.le_max_right _ _)
  exact .of_ne_exhausted (fun fuel => Refines.kept.steps_runProgram fuel body bindings)
    (hends machine htame (Nat.lt_succ_self _) nofun).1

private theorem settles_require (hm : machine.Loadable) {loader : LoaderId} {specifier : String} {dir : Path}
    {parent : Option Path} (hs : ∀ fuel later, ((steps fuel).require loader specifier dir parent).passes machine later →
      later.sites = machine.sites) :
    Settles (fun fuel => (steps fuel).require loader specifier dir parent) machine := by
  obtain ⟨functions, hfunctions⟩ := machine.heap.exists_size
  obtain ⟨ids, hids⟩ := hm.finite
  obtain ⟨modules, hmodules⟩ := machine.exists_size ids
  let realm : Realm := { start := machine, loads := true, ids := ids, size := max functions modules }
  have htame : machine.Tame realm := by
    refine ⟨fun id => ?_, fun _ => hm.cached, rfl, rfl, rfl⟩
    cases hhost : machine.heap.host id with
    | function definition closure properties =>
      exact Nat.le_trans (hfunctions id definition closure properties hhost) (Nat.le_max_left _ _)
    | require loader dir parent => rfl
    | _ => trivial
  have hcovers : realm.Covers := by
    refine ⟨hm.caches, hm.handlers, hids, fun loaderId id source body hid hs hc => ?_⟩
    exact Nat.le_trans (hmodules loaderId id source body hid hs hc) (Nat.le_max_right _ _)
  let budget := machine.budget realm
  have hprograms (body : List Script.Statement) (bindings : List (String × Value)) (hb : sizeOf body ≤ realm.size) :
      ((steps (budget * (realm.size + 1) + realm.size)).runProgram body bindings).Ends realm budget :=
    Steps.ends_runProgram_of_le (fun _ => hcovers) (Nat.le_refl _) body bindings hb
  have hends := Steps.ends_require hcovers rfl hprograms loader specifier dir parent
  exact .of_ne_exhausted (fun fuel => Refines.kept.steps_require fuel trivial specifier dir parent)
    (hends machine htame (Nat.lt_succ_self _) fun _ => hs _).1

/-- Programs of any kind, where there is no load function, and requests for modules that require each other in any
way, as long as files stay as they are, come to an end that is the same from some number of steps on. -/
theorem settles_runProgram_and_require (machine : Machine) :
    ((∀ id loader dir parent, machine.heap.host id ≠ .require loader dir parent) → ∀ body bindings,
      Settles (fun fuel => (steps fuel).runProgram body bindings) machine) ∧
    (machine.Loadable → ∀ loader specifier dir parent,
      (∀ fuel later, ((steps fuel).require loader specifier dir parent).passes machine later →
        later.sites = machine.sites) →
      Settles (fun fuel => (steps fuel).require loader specifier dir parent) machine) :=
  ⟨settles_runProgram, fun hm _ _ _ _ hs => settles_require hm hs⟩

end Run

/-! ## Sites in memory -/

/-- Does the handler stand for another one? -/
def Handler.isAlias : Handler → Bool
  | .sameAs _ => true
  | _ => false

/-- Where no handler stands for another one, every file has a handler. -/
theorem Registry.exists_settle {registry : Registry} (h : ∀ entry ∈ registry.handlers, entry.2.isAlias = false)
    (path : Path) :
    ∃ handler, registry.settle (registry.handlers.length + 1) (registry.handlerFor path) = some handler := by
  have hlookup {suffix : String} {handler : Handler} (hl : registry.handlers.lookup suffix = some handler) :
      handler.isAlias = false := by
    obtain ⟨before, after, hhandlers, _⟩ := List.lookup_eq_some_iff.1 hl
    exact h (suffix, handler) (by rw [hhandlers]; exact List.mem_append_right _ List.mem_cons_self)
  have hhandler : (registry.handlerFor path).isAlias = false := by
    unfold handlerFor
    split
    · next handler hl =>
      obtain ⟨suffix, _, hl⟩ := Option.bind_eq_some_iff.1 hl
      exact hlookup hl
    · cases hl : registry.handlers.lookup sourceSuffix with
      | none => rfl
      | some handler => exact hlookup hl
  refine ⟨registry.handlerFor path, ?_⟩
  cases hp : registry.handlerFor path with
  | sameAs other =>
    rw [hp] at hhandler
    contradiction
  | _ => rfl

/-- A machine with one site, and a loader that works on it and offers no builtin modules. -/
def Machine.withoutBuiltins (site : Site) : Machine :=
  ((do Run.newLoader { Config.standard with builtins := false } .interpreter (← Run.newSite site) none none).apply
    .empty).2

/-- Modules can be loaded from a site in memory. -/
theorem Machine.loadable_withoutBuiltins {site : Site} (hk : site.keeping = .memory)
    (hcwd : site.workingDirectory.isAbsolute = true) : (Machine.withoutBuiltins site).Loadable := by
  have hloader (id : LoaderId) : ((withoutBuiltins site).loader id).site = ⟨0⟩ ∧
      ((withoutBuiltins site).loader id).cache = ⟨0⟩ ∧
      ((withoutBuiltins site).loader id).config.preserveSymlinks = false ∧
      ((withoutBuiltins site).loader id).config.extensions = Config.standard.extensions := by
    match id with
    | ⟨0⟩ => exact ⟨rfl, rfl, rfl, rfl⟩
    | ⟨_ + 1⟩ => exact ⟨rfl, rfl, rfl, rfl⟩
  constructor
  · intro id
    rw [(hloader id).2.1]
    exact Nat.zero_lt_one
  · exact nofun
  · intro id path
    match id with
    | ⟨0⟩ => exact @Registry.exists_settle .standard (by decide) path
    | ⟨_ + 1⟩ => exact @Registry.exists_settle ⟨[]⟩ nofun path
  · refine ⟨site.tree.nodes.map fun entry => Path.ofNames entry.1, fun loaderId specifier dir id h => ?_⟩
    obtain ⟨hsite, -, hlinks, hextensions⟩ := hloader loaderId
    have hview : ((withoutBuiltins site).scene loaderId).site = site.view := by
      unfold Machine.scene
      rw [hsite]
      rfl
    refine Scene.mem_tree_of_resolve hk hcwd hview hlinks ?_ h
    rw [show ((withoutBuiltins site).scene loaderId).config.extensions = _ from hextensions]
    decide

/-- A function that is applied to itself, again and again. -/
def Script.selfApplication : List Script.Statement :=
  let again : Script.Function :=
    .mk none ["f"] [.return_ (some (.call (.identifier "f") [.identifier "f"]))]
  [.expression (.call (.function again) [.function again])]

/-- Modules that require each other, after a module that fails has been required twice. -/
def Site.retry : Site := .ofFiles [
  ("/a", "try \x7b require('/c') \x7d catch (e) \x7b retry() \x7d; " ++
    "function retry() \x7b try \x7b require('/c') \x7d catch (e) \x7b exports.b = require('/b') \x7d \x7d"),
  ("/b", "exports.a = require('/a')"), ("/c", "throw 1")]

namespace Run

/-- A function that calls itself without end, and modules that require each other and try again, settle. -/
theorem settles_of_retry :
    Settles (fun fuel => (steps fuel).runProgram Script.selfApplication []) (.withoutBuiltins .retry) ∧
      Settles (fun fuel => (steps fuel).require ⟨0⟩ "/a" ⟨"/"⟩ none) (.withoutBuiltins .retry) := by
  have hhost (id : HostId) : (Machine.withoutBuiltins .retry).heap.host id = default := rfl
  have hread : (Machine.withoutBuiltins .retry).ReadOnly := fun id => by
    rw [hhost id]
    rfl
  obtain ⟨hprogram, hrequire⟩ := settles_runProgram_and_require (.withoutBuiltins .retry)
  refine ⟨hprogram (fun id loader dir parent => ?_) Script.selfApplication [], ?_⟩
  · rw [hhost id]
    exact nofun
  · exact hrequire (Machine.loadable_withoutBuiltins rfl (by decide)) ⟨0⟩ "/a" ⟨"/"⟩ none fun fuel later hp =>
      (leavesFiles_require fuel ⟨0⟩ "/a" ⟨"/"⟩ none _ hread later hp).2

end Run
end ScriptModules
