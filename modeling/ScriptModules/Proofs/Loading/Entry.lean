import ScriptModules.Proofs.Loading.Requests
import ScriptModules.Proofs.Loading.Require
import ScriptModules.Proofs.Runs.HostKinds
import ScriptModules.Proofs.Runs.Properties

/-!
# Entry modules

A loader keeps the identity of its entry module apart from the cache.  Between requests the two agree: the entry module
is in the cache, and loaded (`Machine.KeepsEntry`), whatever was loaded since and whatever has failed.  While an entry
module runs, all modules that it requires see it as such (`Run.keepsEntry_of_serveAll`).
-/

namespace ScriptModules

/-- If the object is a load function, it is one of this loader. -/
def Host.loadsWith (loaderId : LoaderId) : Host → Bool
  | .require loader _ _ => loader.index == loaderId.index
  | _ => true

/-- Does the request concern this loader, if it concerns any? -/
def Request.uses (loaderId : LoaderId) : Request → Bool
  | .require loader _ _ _ | .runMain loader _ | .snippet loader _ _ => loader.index == loaderId.index
  | _ => true

private theorem LoaderId.index_beq_iff {a b : LoaderId} : (a.index == b.index) = true ↔ a = b := by
  cases a
  cases b
  simp

/-- Code that uses one loader makes load functions of that loader only. -/
theorem Host.isKind_loadsWith (loaderId : LoaderId) :
    Host.IsKind true (fun loader => loader = loaderId) fun host => host.loadsWith loaderId = true where
  passive host h := by
    cases host with
    | require loader dir parent => cases h
    | _ => rfl
  function _ _ _ := rfl
  require _ _ _ := LoaderId.index_beq_iff
  native _ _ _ h := absurd h Bool.noConfusion

namespace Machine

variable {machine later : Machine} {loaderId : LoaderId}

/-- Gives a loader another entry module, or none. -/
def setMain (machine : Machine) (loaderId : LoaderId) (main : Option Path) : Machine :=
  { machine with loaders := machine.loaders.modify loaderId.index fun loader => { loader with main } }

private theorem size_loaders_setMain (main : Option Path) :
    (machine.setMain loaderId main).loaders.size = machine.loaders.size := Array.size_modify

private theorem main_setMain (hi : loaderId.index < machine.loaders.size) (main : Option Path) :
    ((machine.setMain loaderId main).loader loaderId).main = main := by
  simp [Machine.loader, setMain, hi, Array.getElem_modify]

/-- The entry module does not concern the caches. -/
theorem agrees_setMain (machine : Machine) (loaderId : LoaderId) (main : Option Path) :
    machine.Agrees (machine.setMain loaderId main) := by
  refine ⟨rfl, fun id => ?_, rfl, rfl, rfl⟩
  simp only [Machine.loader, setMain, Array.getElem?_modify]
  split
  · cases machine.loaders[id.index]? <;> rfl
  · rfl

/-- The record of the entry module of a loader. -/
def mainRecord? (machine : Machine) (loaderId : LoaderId) : Option Record :=
  (machine.loader loaderId).main.bind fun id =>
    (machine.heap.cache (machine.loader loaderId).cache).find? id

/-- To resolve the path of an entry module. -/
def resolveMain (machine : Machine) (loaderId : LoaderId) (path : Path) : Outcome Target × Machine :=
  let cwd := (machine.sites[(machine.loader loaderId).site.index]?.getD default).workingDirectory
  Run.resolve loaderId (path.absolutize cwd).text cwd machine

/-- The entry module of the loader, if there is one, is in the cache, and loaded. -/
structure KeepsEntry (machine : Machine) (loaderId : LoaderId) : Prop where
  loaded : ∀ id, (machine.loader loaderId).main = some id →
    ∃ record, machine.graph.find? ((machine.loader loaderId).cache, id) = some record ∧ record.loaded = true
  mainRecord? : (machine.mainRecord? loaderId).isSome = (machine.loader loaderId).main.isSome

/-- The module is the entry module of the loader, and that is what all load functions show. -/
structure ShowsEntry (machine : Machine) (loaderId : LoaderId) (id : Path) : Prop where
  main : (machine.loader loaderId).main = some id
  shown : ∀ host loader dir parent, machine.heap.host host = .require loader dir parent →
    loader = loaderId ∧ ∃ view later, Run.property (.host host) "main" machine = (.ok (.host view), later) ∧
      later.heap.host view = .module (machine.loader loaderId).cache id

/-- What it does to run an entry module. -/
structure RunsMain (machine : Machine) (fuel : Nat) (loaderId : LoaderId) (path : Path) : Prop where
  /-- Where the path does not lead to a file, the entry module is the one from before. -/
  unresolved : (∀ id, (machine.resolveMain loaderId path).1 ≠ .ok (.file id)) →
    ∀ outcome later, (steps fuel).runMain loaderId path machine = (outcome, later) →
      (later.loader loaderId).main = (machine.loader loaderId).main
  /-- Where it does but that module fails, there is no entry module, and the module is not in the cache. -/
  failed : ∀ id failure later, (machine.resolveMain loaderId path).1 = .ok (.file id) →
    (steps fuel).runMain loaderId path machine = (.failed failure, later) →
      (later.loader loaderId).main = none ∧ later.graph.find? ((later.loader loaderId).cache, id) = none
  finished : ∀ id value later, (machine.resolveMain loaderId path).1 = .ok (.file id) →
    (steps fuel).runMain loaderId path machine = (.ok value, later) → (later.loader loaderId).main = some id
  /-- Whenever modules are being loaded meanwhile, they are shown this entry module. -/
  during : ∀ id later, (machine.resolveMain loaderId path).1 = .ok (.file id) →
    ((steps fuel).runMain loaderId path).passes machine later → later.loading ≠ [] → later.ShowsEntry loaderId id

/-- Between requests: no load goes on, all load functions are of this loader, and its entry module is in the cache. -/
structure Quiet (machine : Machine) (loaderId : LoaderId) : Prop where
  settled : machine.Settled
  inRange : loaderId.index < machine.loaders.size
  hosts : machine.HostsAre fun host => host.loadsWith loaderId = true
  cached : ∀ id, (machine.loader loaderId).main = some id →
    ∃ record, machine.graph.find? ((machine.loader loaderId).cache, id) = some record

private theorem Quiet.keepsEntry (h : machine.Quiet loaderId) : machine.KeepsEntry loaderId := by
  refine ⟨fun id hmain => ?_, ?_⟩
  · obtain ⟨record, hrecord⟩ := h.cached id hmain
    exact ⟨record, hrecord, h.settled.loaded _ record hrecord⟩
  · unfold Machine.mainRecord?
    cases hmain : (machine.loader loaderId).main with
    | none => rfl
    | some id =>
      obtain ⟨record, hrecord⟩ := h.cached id hmain
      exact congrArg Option.isSome hrecord

/-- What is loaded is in the cache later too. -/
theorem Leads.find?_of_loaded {floor : List Identity} {a : Identity} {record : Record} (h : machine.Leads floor later)
    (hm : machine.Sound) (hr : machine.graph.find? a = some record) (hl : record.loaded = true) :
    ∃ record, later.graph.find? a = some record := by
  obtain ⟨_, _, events, _, hfollows⟩ := h
  have hbare := Graph.bare?_of_find? hr
  obtain ⟨last, hlast, _⟩ := hfollows.kept hbare (hfollows.not_fails_of_loaded hm.disciplined hbare hl)
  obtain ⟨now, hnow, _⟩ := Option.map_eq_some_iff.1 hlast
  exact ⟨now, hnow⟩

/-- At the start there are native functions only. -/
theorem hostsAre_ofSite (site : Site) : (ofSite site).HostsAre fun host => host.loadsWith ⟨0⟩ = true := by
  intro id
  have hall : (ofSite site).heap.hosts.toList.all (Host.loadsWith ⟨0⟩) = true := rfl
  rw [Heap.host]
  cases hid : (ofSite site).heap.hosts[id.index]? with
  | none => rfl
  | some host =>
    obtain ⟨hlt, rfl⟩ := Array.getElem?_eq_some_iff.1 hid
    exact List.all_eq_true.1 hall _ (Array.mem_toList_iff.2 (Array.getElem_mem hlt))

end Machine

namespace Run

variable {machine later : Machine} {loaderId : LoaderId} {outcome : Outcome Value}

/-! ## Requests that are not for an entry module -/

private theorem keepsTo_serve (fuel : Nat) {request : Request} (hu : request.uses loaderId = true)
    (hmain : ∀ loader path, request ≠ .runMain loader path) :
    (serve fuel request).KeepsTo true fun host => host.loadsWith loaderId = true := by
  refine .serve (Host.isKind_loadsWith loaderId) fuel ?_
  cases request with
  | require _ _ _ _ | snippet _ _ _ => exact LoaderId.index_beq_iff.1 hu
  | runMain loader path => exact hmain loader path rfl
  | _ => trivial

/-- They leave the entry module alone, which stays in the cache. -/
private theorem quiet_of_keepsTo {run : Run Value} (hk : run.KeepsTo true fun host => host.loadsWith loaderId = true)
    (ht : run.Traced) (hm : machine.Quiet loaderId) (he : run machine = (outcome, later)) (hne : outcome ≠ .exhausted) :
    later.Quiet loaderId := by
  obtain ⟨hhosts, hsetting⟩ := hk machine hm.hosts later (passes_of_eq he)
  have hloader : later.loader loaderId = machine.loader loaderId := hsetting.loader loaderId
  refine ⟨settled_of_traced ht hm.settled he hne, hsetting.loaders ▸ hm.inRange, hhosts, fun id hmain => ?_⟩
  rw [hloader] at hmain ⊢
  obtain ⟨record, hrecord⟩ := hm.cached id hmain
  -- Between requests all that is in the cache is loaded, so that nothing takes it out.
  exact ((ht machine hm.settled.sound).leads later (passes_of_eq he)).find?_of_loaded hm.settled.sound hrecord
    (hm.settled.loaded _ record hrecord)

/-! ## Requests for an entry module -/

section

variable {next : Steps} {path id : Path}

private theorem loader_isStep (loaderId : LoaderId) (machine : Machine) :
    (Run.loader loaderId).IsStep machine (machine.loader loaderId) machine := ⟨rfl, fun _ h => h⟩

private theorem site_isStep (site : SiteId) (machine : Machine) :
    (Run.site site).IsStep machine (machine.sites[site.index]?.getD default) machine := ⟨rfl, fun _ h => h⟩

/-- To resolve the path of an entry module changes nothing but what has happened. -/
private theorem resolveMain_inv {target : Outcome Target} {resolved : Machine}
    (h : machine.resolveMain loaderId path = (target, resolved)) : ∃ events, resolved = { machine with events } := by
  obtain ⟨noted, rfl⟩ := resolve_inv h
  exact ⟨_, rfl⟩

/-- Where the path leads to a file, that is loaded as the entry module. -/
private theorem runMain_of_file {resolved : Machine}
    (h : machine.resolveMain loaderId path = (.ok (.file id), resolved)) :
    next.runMain loaderId path machine =
      onFailure (next.load loaderId id none) (fun _ => changeLoader loaderId fun loader => { loader with main := none })
        (resolved.setMain loaderId (some id)) := by
  unfold Steps.runMain
  exact (bind_ok rfl).trans ((bind_ok rfl).trans ((bind_ok h).trans (bind_ok rfl)))

/-- Before that file is loaded, no load begins. -/
private theorem runMain_passes {resolved last : Machine}
    (h : machine.resolveMain loaderId path = (.ok (.file id), resolved))
    (hp : (next.runMain loaderId path).passes machine last) : last.loading = machine.loading ∨
      (onFailure (next.load loaderId id none) fun _ => changeLoader loaderId fun loader => { loader with main := none }).passes
        (resolved.setMain loaderId (some id)) last := by
  unfold Steps.runMain at hp
  rcases (loader_isStep loaderId machine).bind_passes hp with rfl | hp
  · exact .inl rfl
  rcases (site_isStep _ machine).bind_passes hp with rfl | hp
  · exact .inl rfl
  rcases hp with hp | ⟨target, middle, hr, hp⟩
  · exact .inl (by rw [(Plain.resolve _ _ _ : Plain true _).eq_of_passes hp])
  · obtain ⟨htarget, rfl⟩ := Prod.mk.inj (hr.symm.trans h)
    obtain rfl := Outcome.ok.inj htarget
    have hchange : (changeLoader loaderId fun loader => { loader with main := some id }).IsStep middle ()
        (middle.setMain loaderId (some id)) := ⟨rfl, fun _ h => h⟩
    rcases hchange.bind_passes hp with rfl | hp
    · obtain ⟨_, rfl⟩ := resolveMain_inv h
      exact .inl rfl
    · exact .inr hp

/-- Where it does not, nothing is loaded. -/
private theorem runMain_of_not_file (h : ∀ id, (machine.resolveMain loaderId path).1 ≠ .ok (.file id))
    (he : next.runMain loaderId path machine = (outcome, later)) : ∃ events, later = { machine with events } := by
  unfold Steps.runMain at he
  replace he := (bind_ok (loader_isStep loaderId machine).eq).symm.trans he
  replace he := (bind_ok (site_isStep _ machine).eq).symm.trans he
  rcases bind_inv he with ⟨target, middle, hr, he⟩ | ⟨failure, hr, _⟩ | ⟨hr, _⟩
  · cases target with
    | builtin name =>
      obtain ⟨_, rfl⟩ := Prod.mk.inj he
      exact resolveMain_inv hr
    | file id => exact absurd (congrArg Prod.fst hr) (h id)
  · exact resolveMain_inv hr
  · exact resolveMain_inv hr

/-- How the load of an entry module ends. -/
private theorem runMain_inv {resolved : Machine} (h : machine.resolveMain loaderId path = (.ok (.file id), resolved))
    (he : next.runMain loaderId path machine = (outcome, later)) :
    (∃ value, next.load loaderId id none (resolved.setMain loaderId (some id)) = (.ok value, later) ∧
        outcome = .ok value) ∨
      (∃ failure loaded, next.load loaderId id none (resolved.setMain loaderId (some id)) = (.failed failure, loaded) ∧
        outcome = .failed failure ∧ later = loaded.setMain loaderId none) ∨ outcome = .exhausted := by
  rw [runMain_of_file h] at he
  rcases onFailure_inv (fun _ _ => rfl) he with ⟨value, hload, rfl⟩ | ⟨failure, loaded, hload, rfl, rfl⟩ | ⟨_, rfl⟩
  · exact .inl ⟨value, hload, rfl⟩
  · exact .inr (.inl ⟨failure, loaded, hload, rfl, rfl⟩)
  · exact .inr (.inr rfl)

end

/-! ## While an entry module is loaded -/

section

variable {path id : Path}

private theorem keepsTo_load (fuel : Nat) (loaderId : LoaderId) (id : Path) (parent : Option Path) :
    ((steps fuel).load loaderId id parent).KeepsTo true fun host => host.loadsWith loaderId = true := by
  have hkept := KeepsTo.kept (Host.isKind_loadsWith loaderId)
  exact @Closed.load _ _ _ hkept.toClosed (steps fuel) (steps (fuel + 1))
    (fun body _ => hkept.steps_runProgram fuel body) loaderId rfl id parent

/-- Where the load of an entry module begins. -/
private theorem sound_resolved (hm : machine.Quiet loaderId) {resolved : Machine} {target : Outcome Target}
    (h : machine.resolveMain loaderId path = (target, resolved)) :
    resolved.Sound ∧ resolved.loading = [] ∧ loaderId.index < resolved.loaders.size ∧
      resolved.HostsAre fun host => host.loadsWith loaderId = true := by
  obtain ⟨_, rfl⟩ := resolveMain_inv h
  have hsound := hm.settled.sound
  exact ⟨⟨hsound.registries, hsound.caches, hsound.disciplined⟩, hm.settled.idle, hm.inRange, hm.hosts⟩

private theorem sound_setMain (hm : machine.Sound) (loaderId : LoaderId) (main : Option Path) :
    (machine.setMain loaderId main).Sound :=
  (Machine.Leads.of_agrees (machine.agrees_setMain loaderId main) List.suffix_rfl).sound hm

/-- What all load functions show where they are all of one loader. -/
private theorem showsEntry_of_main (hh : machine.HostsAre fun host => host.loadsWith loaderId = true)
    (hmain : (machine.loader loaderId).main = some id) : machine.ShowsEntry loaderId id := by
  refine ⟨hmain, fun host loader dir parent hhost => ?_⟩
  have hloads := hh host
  rw [hhost] at hloads
  obtain rfl : loader = loaderId := LoaderId.index_beq_iff.1 hloads
  have hview := (hostProperty_main hhost).trans (mainView_of_main hmain)
  exact ⟨rfl, _, _, hview.trans (newHost_eq _ _), Heap.host_newHost _ _⟩

end

/-! ## Requests for an entry module, altogether -/

section

variable {path id : Path} {resolved loaded : Machine}

/-- What holds at each moment of the load of an entry module. -/
private theorem load_passes (fuel : Nat) (hm : machine.Quiet loaderId)
    (hr : machine.resolveMain loaderId path = (.ok (.file id), resolved))
    (hp : ((steps fuel).load loaderId id none).passes (resolved.setMain loaderId (some id)) loaded) :
    loaded.HostsAre (fun host => host.loadsWith loaderId = true) ∧
      loaded.loader loaderId = (resolved.setMain loaderId (some id)).loader loaderId ∧
      loaderId.index < loaded.loaders.size ∧ (loaded.loader loaderId).main = some id := by
  obtain ⟨_, _, hi, hhosts⟩ := sound_resolved hm hr
  have hstart : (resolved.setMain loaderId (some id)).HostsAre fun host => host.loadsWith loaderId = true :=
    hhosts.of_hosts rfl
  obtain ⟨hloaded, hsetting⟩ := keepsTo_load fuel loaderId id none _ hstart loaded hp
  refine ⟨hloaded, hsetting.loader loaderId, ?_, ?_⟩
  · rw [hsetting.loaders, Machine.size_loaders_setMain]
    exact hi
  · rw [hsetting.loader]
    exact Machine.main_setMain hi (some id)

/-- What is left of an entry module whose load has failed. -/
private theorem load_failed_main (fuel : Nat) {failure : Failure} (hm : machine.Quiet loaderId)
    (hr : machine.resolveMain loaderId path = (.ok (.file id), resolved))
    (hload : (steps fuel).load loaderId id none (resolved.setMain loaderId (some id)) = (.failed failure, loaded)) :
    ((loaded.setMain loaderId none).loader loaderId).main = none ∧
      (loaded.setMain loaderId none).graph.find? (((loaded.setMain loaderId none).loader loaderId).cache, id) = none := by
  obtain ⟨hsound, _, _, _⟩ := sound_resolved hm hr
  obtain ⟨_, hloader, hsize, _⟩ := load_passes fuel hm hr (passes_of_eq hload)
  refine ⟨Machine.main_setMain hsize none, ?_⟩
  -- The load takes its module out of its cache last, and the entry module does not concern the caches.
  obtain ⟨_, _, middle, _, _, _, hs⟩ :=
    Steps.load_failed (steps_scripted fuel) (sound_setMain hsound loaderId (some id)) hload
  rw [(loaded.agrees_setMain loaderId none).loaders, hloader, (loaded.agrees_setMain loaderId none).graph, hs.graph,
    Graph.find?_failed, if_pos (Identity.same_refl _)]

/-- A request for an entry module leaves the machine quiet. -/
private theorem quiet_of_runMain (fuel : Nat) (hm : machine.Quiet loaderId)
    (he : (steps fuel).runMain loaderId path machine = (outcome, later)) (hne : outcome ≠ .exhausted) :
    later.Quiet loaderId := by
  have hsettled := settled_of_traced (serve_traced fuel (.runMain loaderId path)) hm.settled he hne
  by_cases hfile : ∃ id, (machine.resolveMain loaderId path).1 = .ok (.file id)
  · obtain ⟨id, hfile⟩ := hfile
    have hr : machine.resolveMain loaderId path = (.ok (.file id), (machine.resolveMain loaderId path).2) := by
      rw [← hfile]
    obtain ⟨hsound, _, _, _⟩ := sound_resolved hm hr
    rcases runMain_inv hr he with ⟨value, hload, _⟩ | ⟨failure, loaded, hload, _, rfl⟩ | rfl
    · obtain ⟨hhosts, hloader, hsize, hmain⟩ := load_passes fuel hm hr (passes_of_eq hload)
      refine ⟨hsettled, hsize, hhosts, fun other hother => ?_⟩
      obtain rfl := Option.some.inj (hmain.symm.trans hother)
      -- A load that ends well leaves its module in the cache, whether it has put it in or found it.
      have hexports := Steps.load_ok (steps_scripted fuel) (sound_setMain hsound loaderId (some id)) hload
      obtain ⟨record, hrecord, _⟩ := Option.map_eq_some_iff.1 hexports
      rw [hloader]
      exact ⟨record, hrecord⟩
    · obtain ⟨hhosts, _, hsize, _⟩ := load_passes fuel hm hr (passes_of_eq hload)
      refine ⟨hsettled, ?_, hhosts.of_hosts rfl, fun other hother => ?_⟩
      · rw [Machine.size_loaders_setMain]
        exact hsize
      · rw [(load_failed_main fuel hm hr hload).1] at hother
        cases hother
    · contradiction
  · obtain ⟨events, rfl⟩ := runMain_of_not_file (not_exists.1 hfile) he
    exact ⟨hsettled, hm.inRange, hm.hosts, hm.cached⟩

/-- What a request for an entry module does to a quiet machine. -/
private theorem runsMain_of_quiet (fuel : Nat) (hm : machine.Quiet loaderId) (path : Path) :
    machine.RunsMain fuel loaderId path := by
  have hresolve {id : Path} (ht : (machine.resolveMain loaderId path).1 = .ok (.file id)) :
      machine.resolveMain loaderId path = (.ok (.file id), (machine.resolveMain loaderId path).2) := by
    rw [← ht]
  refine ⟨fun hn outcome later he => ?_, fun id failure later ht he => ?_, fun id value later ht he => ?_,
    fun id later ht hp hl => ?_⟩
  · obtain ⟨_, rfl⟩ := runMain_of_not_file hn he
    rfl
  · rcases runMain_inv (hresolve ht) he with ⟨_, _, hf⟩ | ⟨failure, loaded, hload, _, rfl⟩ | hf
    · cases hf
    · exact load_failed_main fuel hm (hresolve ht) hload
    · cases hf
  · rcases runMain_inv (hresolve ht) he with ⟨_, hload, _⟩ | ⟨_, _, _, hf, _⟩ | hf
    · exact (load_passes fuel hm (hresolve ht) (passes_of_eq hload)).2.2.2
    · cases hf
    · cases hf
  · rcases runMain_passes (hresolve ht) hp with hidle | hp
    · exact absurd (hidle.trans hm.settled.idle) hl
    · rcases onFailure_passes hp with hp | ⟨failure, loaded, hload, hp⟩
      · obtain ⟨hhosts, _, _, hmain⟩ := load_passes fuel hm (hresolve ht) hp
        exact showsEntry_of_main hhosts hmain
      · -- The load is over, and with it all others.
        obtain ⟨hsound, hidle, _, _⟩ := sound_resolved hm (hresolve ht)
        have htraced := ((steps_scripted fuel).load loaderId id none).traced _
          (sound_setMain hsound loaderId (some id))
        have hended : loaded.loading = [] := (htraced.loading_of_failed hload).trans hidle
        rcases hp with rfl | rfl
        · exact absurd hended hl
        · exact absurd hended hl

end

/-! ## All requests -/

private theorem quiet_of_serve (fuel : Nat) {request : Request} (hu : request.uses loaderId = true)
    (hm : machine.Quiet loaderId) (he : serve fuel request machine = (outcome, later)) (hne : outcome ≠ .exhausted) :
    later.Quiet loaderId := by
  have hother (hmain : ∀ loader path, request ≠ .runMain loader path) : later.Quiet loaderId :=
    quiet_of_keepsTo (keepsTo_serve fuel hu hmain) (serve_traced fuel request) hm he hne
  cases request with
  | runMain loader path =>
    obtain rfl : loader = loaderId := LoaderId.index_beq_iff.1 hu
    exact quiet_of_runMain fuel hm he hne
  | _ => exact hother fun _ _ h => by cases h

private theorem quiet_of_serveAll (fuel : Nat) (requests : List Request)
    (hu : ∀ request ∈ requests, request.uses loaderId = true) (hm : machine.Quiet loaderId) {outcome : Outcome Unit}
    (he : serveAll fuel requests machine = (outcome, later)) (hne : outcome ≠ .exhausted) : later.Quiet loaderId := by
  induction requests generalizing machine with
  | nil =>
    obtain ⟨_, rfl⟩ := Prod.mk.inj he
    exact hm
  | cons request requests ih =>
    rw [List.forall_mem_cons] at hu
    have hserve {first : Outcome Value} {middle : Machine} (hr : serve fuel request machine = (first, middle))
        (hf : first ≠ .exhausted) : middle.Quiet loaderId := quiet_of_serve fuel hu.1 hm hr hf
    rcases attempt_bind_inv he with ⟨value, middle, hr, he⟩ | ⟨failure, middle, hr, he⟩ | ⟨_, rfl⟩
    · exact ih hu.2 (hserve hr (Outcome.ok_ne_exhausted _)) he
    · exact ih hu.2 (hserve hr (Outcome.failed_ne_exhausted _)) he
    · contradiction

/-- Whatever was asked of a loader that had no entry module at first, its entry module is in the cache between the
requests, and loaded.  A request for an entry module that does not lead to a file leaves it as it is, and one whose
module fails leaves none; while modules are loaded for such a request, that entry module is what they are shown. -/
theorem keepsEntry_of_serveAll (fuel : Nat) (requests : List Request) (hm : machine.Settled)
    (hi : loaderId.index < machine.loaders.size) (hh : machine.HostsAre fun host => host.loadsWith loaderId = true)
    (hf : (machine.loader loaderId).main = none) (hu : ∀ request ∈ requests, request.uses loaderId = true)
    {outcome : Outcome Unit} (he : serveAll fuel requests machine = (outcome, later)) (hne : outcome ≠ .exhausted) :
    later.KeepsEntry loaderId ∧ ∀ path, later.RunsMain fuel loaderId path := by
  have hstart : machine.Quiet loaderId := by
    refine ⟨hm, hi, hh, fun id hmain => ?_⟩
    rw [hf] at hmain
    cases hmain
  have hquiet := quiet_of_serveAll fuel requests hu hstart he hne
  exact ⟨hquiet.keepsEntry, runsMain_of_quiet fuel hquiet⟩

/-- An entry module that requires a module that requires it in turn stays when a later request fails. -/
theorem keepsEntry_of_cycle :
    ∃ later, serveAll 30 [.runMain ⟨0⟩ ⟨"/a"⟩, .require ⟨0⟩ "/c" ⟨"/"⟩ none] (.ofSite .cycle) = (.ok (), later) ∧
      (later.mainRecord? ⟨0⟩).isSome = true ∧ later.KeepsEntry ⟨0⟩ ∧ ∀ path, later.RunsMain 30 ⟨0⟩ path := by
  have hrun : (serveAll 30 [.runMain ⟨0⟩ ⟨"/a"⟩, .require ⟨0⟩ "/c" ⟨"/"⟩ none] (.ofSite .cycle)).1 = .ok () ∧
      ((serveAll 30 [.runMain ⟨0⟩ ⟨"/a"⟩, .require ⟨0⟩ "/c" ⟨"/"⟩ none] (.ofSite .cycle)).2.mainRecord? ⟨0⟩).isSome =
        true := by
    decide +kernel
  exact ⟨_, Prod.ext hrun.1 rfl, hrun.2,
    keepsEntry_of_serveAll 30 _ (Machine.settled_ofSite .cycle) (by decide) (Machine.hostsAre_ofSite .cycle) rfl
      (by decide) (Prod.ext hrun.1 rfl) (Outcome.ok_ne_exhausted _)⟩

end Run
end ScriptModules
