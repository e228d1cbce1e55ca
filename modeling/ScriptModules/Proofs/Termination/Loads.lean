import ScriptModules.Proofs.Termination.Ends

/-!
# Loads come to an end

A load takes the identity of its module from those that are not being loaded, so what the module requires has less
left to spend.  The module is in the cache meanwhile, and whoever requires it then is given what it exports so far.
-/

namespace ScriptModules

/-- What is there to load from is bounded: loaders have caches, handlers do not stand for each other in a circle, and
only these identities can be found, with modules that are not too large. -/
structure Realm.Covers (realm : Realm) : Prop where
  caches : ∀ id, (realm.start.loader id).cache.index < realm.start.heap.caches.size
  handlers : ∀ id path, ∃ handler, (realm.start.registry id).settle ((realm.start.registry id).handlers.length + 1)
    ((realm.start.registry id).handlerFor path) = some handler
  identities : ∀ loaderId specifier dir id,
    (((realm.start.scene loaderId).resolve specifier dir).run []).1 = .ok (.file id) → id ∈ realm.ids
  sources : ∀ loaderId id source body, id ∈ realm.ids →
    (realm.start.sites[(realm.start.loader loaderId).site.index]?.getD default).readText id = .ok source →
      (realm.start.loader loaderId).engine.compile source id.text = .ok (.program body) → sizeOf body ≤ realm.size

/-- No handler that stands for another one is left over. -/
theorem Registry.settle_ne_sameAs {registry : Registry} {fuel : Nat} {handler settled : Handler}
    (h : registry.settle fuel handler = some settled) (path : Path) : settled ≠ .sameAs path := by
  induction fuel generalizing handler with
  | zero => cases h
  | succ fuel ih =>
    cases handler with
    | sameAs other => exact ih h
    | _ =>
      obtain rfl := Option.some.inj h
      exact nofun

/-- The second machine is bounded as well, and these modules are still in the cache. -/
structure Machine.Returns (realm : Realm) (rest : List Identity) (machine later : Machine) : Prop where
  hosts : ∀ id, realm.Allows (later.heap.host id)
  cached : ∀ a ∈ rest, later.Cached a
  caches : later.heap.caches.size = realm.start.heap.caches.size
  loaders : later.loaders = realm.start.loaders
  registries : later.registries = realm.start.registries
  callDepth : later.callDepth = machine.callDepth
  loading : later.loading = machine.loading

namespace Machine

variable {realm : Realm} {machine entered later : Machine} {a : Identity} {rest : List Identity}

private theorem Stays.returns (h : machine.Stays realm later) (hloads : realm.loads = true)
    (hl : machine.loading = a :: rest) :
    machine.Returns realm rest later := by
  refine ⟨h.tame.hosts, fun other ho => h.tame.cached hloads other ?_, h.tame.caches, h.tame.loaders,
    h.tame.registries, h.callDepth, h.loading⟩
  rw [h.loading, hl]
  exact List.mem_cons_of_mem _ ho

/-- When the innermost load has ended too, nothing is left of it but what is in the caches. -/
theorem Returns.stays {last : Machine} (h : entered.Returns realm machine.loading later)
    (hd : entered.callDepth = machine.callDepth) (hhosts : last.heap.hosts = later.heap.hosts)
    (hcached : ∀ a ∈ machine.loading, last.Cached a) (hcaches : last.heap.caches.size = later.heap.caches.size)
    (helse : last = { later with heap := last.heap, loading := machine.loading, events := last.events }) :
    machine.Stays realm last := by
  have hsame : last.loading = machine.loading := by rw [helse]
  refine ⟨⟨fun id => ?_, fun _ a ha => hcached a (hsame ▸ ha), hcaches.trans h.caches, ?_, ?_⟩, ?_, hsame⟩
  · rw [Heap.host, hhosts]
    exact h.hosts id
  · rw [helse]
    exact h.loaders
  · rw [helse]
    exact h.registries
  · rw [helse]
    exact h.callDepth.trans hd

/-- A module that is not being loaded is left over from those that are not, when its load begins. -/
theorem budget_lt_of_entered (hu : a ∈ realm.universe) (hn : machine.loading.any (Identity.same a) = false)
    (hl : entered.loading = a :: machine.loading) (hd : entered.callDepth = machine.callDepth) :
    entered.budget realm < machine.budget realm := by
  have hfilter : entered.unloaded realm = (machine.unloaded realm).filter fun other => !Identity.same other a := by
    rw [unloaded, unloaded, List.filter_filter, hl]
    congr
    funext other
    rw [List.any_cons, Bool.not_or]
  have hmem : a ∈ machine.unloaded realm := List.mem_filter.2 ⟨hu, by rw [hn]; rfl⟩
  have hless : (entered.unloaded realm).length < (machine.unloaded realm).length := by
    rw [hfilter, List.length_filter_lt_length_iff_exists]
    exact ⟨a, hmem, by simp⟩
  rw [budget, budget, hd]
  omega

end Machine

namespace Run.EndsAt

variable {α β : Type} {realm : Realm} {machine : Machine}

private theorem ofExcept_bind {result : Except Failure α} {next : α → Run β} (hm : machine.Tame realm)
    (hn : ∀ a, result = .ok a → (next a).EndsAt realm machine) :
    (Run.bind (Run.ofExcept result) next).EndsAt realm machine := by
  cases result with
  | ok a =>
    refine (pure a hm).bind fun b later hr _ => ?_
    obtain ⟨hb, rfl⟩ := Prod.mk.inj hr
    exact Outcome.ok.inj hb ▸ hn a rfl
  | error failure =>
    refine (fail failure hm).bind fun b later hr _ => ?_
    cases hr

/-- A run that begins with a known step. -/
theorem step_bind {run : Run α} {next : α → Run β} {a : α} {middle : Machine} (hr : run machine = (.ok a, middle))
    (h : (next a).Unchanging realm middle →
      (next a middle).1 ≠ .exhausted ∧ machine.Stays realm (next a middle).2) :
    (Run.bind run next).EndsAt realm machine := by
  intro hu
  rw [bind_ok hr]
  exact h fun hl later hp => hu hl later (.inr ⟨a, middle, hr, hp⟩)

end Run.EndsAt

/-! ## How a load begins -/

section

open Run

variable {realm : Realm} {machine : Machine} {loaderId : LoaderId} {id : Path}

/-- The load of a module that is not in the cache puts it there. -/
private theorem exists_entered (parent : Option Path) (hc : realm.Covers) (hm : machine.Tame realm)
    (hfind : (machine.heap.cache (realm.start.loader loaderId).cache).find? id = none) :
    ∃ record entered, enter (realm.start.loader loaderId).cache id parent machine = (.ok (.reserved record), entered) ∧
      record.id = id ∧ record.filename = id ∧ Machine.Tame realm entered ∧ entered.callDepth = machine.callDepth ∧
        entered.loading = ((realm.start.loader loaderId).cache, id) :: machine.loading := by
  let exports : Value := .object (machine.heap.newObject []).1
  let entered : Machine := { machine with
    heap := (machine.heap.newObject []).2.updateCache (realm.start.loader loaderId).cache fun modules =>
      (modules.reserve id parent exports).link parent id
    loading := ((realm.start.loader loaderId).cache, id) :: machine.loading
    events := .started (realm.start.loader loaderId).cache id parent exports :: machine.events }
  have henter : enter (realm.start.loader loaderId).cache id parent machine =
      (.ok (.reserved (.unloaded id parent exports)), entered) := by
    simp only [Run.enter, Run.update, hfind]
    rfl
  refine ⟨_, entered, henter, rfl, rfl, ?_, rfl, rfl⟩
  refine ⟨hm.hosts, fun hloads a ha => ?_, Array.size_modify.trans hm.caches, hm.loaders, hm.registries⟩
  rcases List.mem_cons.1 ha with rfl | ha
  · have hbound : (realm.start.loader loaderId).cache.index < machine.heap.caches.size :=
      hm.caches ▸ hc.caches loaderId
    have hself : entered.heap.cache (realm.start.loader loaderId).cache = ((machine.heap.cache
        (realm.start.loader loaderId).cache).reserve id parent exports).link parent id :=
      Heap.cache_updateCache hbound
    rw [Machine.Cached, hself, Cache.contains_link, Cache.contains_reserve, Path.same_refl, Bool.true_or]
  · refine Heap.contains_updateCache (hm.cached hloads a ha) fun _ modules hcontains => ?_
    rw [Cache.contains_link, Cache.contains_reserve, hcontains, Bool.or_true]

/-- A module that is not in the cache is not being loaded. -/
private theorem not_same_of_find? {cache : CacheId} (hloads : realm.loads = true) (hm : machine.Tame realm)
    (hfind : (machine.heap.cache cache).find? id = none) :
    ∀ a ∈ machine.loading, Identity.same (cache, id) a = false := by
  intro a ha
  refine Bool.eq_false_iff.2 fun hsame => ?_
  have hcached : machine.Cached a := hm.cached hloads a ha
  obtain ⟨hcache, hpath⟩ := Identity.same_iff.1 hsame
  rw [Machine.Cached, ← hcache, Cache.contains, ← Cache.find?_congr (Path.same_iff.2 hpath), hfind] at hcached
  contradiction

end

namespace Steps

open Run

variable {realm : Realm} {machine : Machine} {next : Steps} {b : Nat} {loaderId : LoaderId} {id : Path}

section

variable (hc : realm.Covers) (hloads : realm.loads = true)
  (hp : ∀ body bindings, sizeOf body ≤ realm.size → (next.runProgram body bindings).Ends realm b)

include hc hloads hp

private theorem endsAt_loadSource {record : Record} (hid : record.filename ∈ realm.ids) (hm : machine.Tame realm)
    (hb : machine.budget realm < b) :
    (next.loadSource loaderId (realm.start.loader loaderId) record).EndsAt realm machine := by
  unfold Steps.loadSource
  refine .of_sites fun hsites => .read_bind hm (.ofExcept_bind hm fun source hsource => ?_)
  rw [hsites hloads] at hsource
  refine .ofExcept_bind hm fun compiled hcompiled => ?_
  have hrun (scope : ModuleScope) : (next.runCompiled compiled scope).Ends realm b := by
    cases compiled with
    | program body => exact hp body scope.bindings (hc.sources loaderId _ source body hid hsource hcompiled)
    | foreign engine source => exact .of_plain (.runForeign next engine source scope : Plain false _)
  have hrequire (dir : Path) (parent : Option Path) : (newRequire loaderId dir parent).Ends realm b :=
    .newHost (show realm.Allows (.require loaderId dir parent) from hloads)
  refine Ends.bind (hrequire _ _) (fun require => ?_) machine hm hb
  refine .bind (.of_plain (.newHost rfl : Plain false _)) fun module => .bind (.note _) fun _ => ?_
  exact .bind (hrun _) fun _ => .pure _

/-- The file of a module is handled, unless that takes the module itself out of the cache. -/
private theorem endsAt_handle {record : Record} {handler : Handler} (hid : record.filename ∈ realm.ids)
    (hm : machine.Tame realm) (hb : machine.budget realm < b) (hs : ∀ path, handler ≠ .sameAs path)
    (he : handler ≠ .evict) :
    (next.handle loaderId (realm.start.loader loaderId) record handler).EndsAt realm machine := by
  have hread {rest : String → Run Unit} (hr : ∀ text, (rest text).Ends realm b) :
      (Run.bind (Run.site (realm.start.loader loaderId).site) fun files =>
        Run.bind (Run.ofExcept (files.readText record.filename)) rest).EndsAt realm machine :=
    Ends.bind (.read _) (fun files => .bind (.ofExcept _) hr) machine hm hb
  cases handler with
  | source => exact endsAt_loadSource hc hloads hp hid hm hb
  | data =>
    refine hread fun text => ?_
    split
    · refine .of_plain (?_ : Plain false _)
      refine .bind (.make fun heap => (Heap.sameButData_ofJson _ heap).sameFrame) fun value => ?_
      exact .bind (.assignExports _ _ _) fun _ => .pure _
    · exact .fail _
  | nativeAddon => exact .fail _ hm
  | sameAs path => exact absurd rfl (hs path)
  | verbatim => exact hread fun text => .of_plain (.bind (.assignExports _ _ _) fun _ => .pure _ : Plain false _)
  | evict => contradiction
  | reject text => exact .fail _ hm
  | idle => exact .pure _ hm

/-- When the file of a module has been handled, the loads around its own are as before. -/
private theorem returns_handleFile {record : Record} {rest : List Identity}
    (hid : record.filename ∈ realm.ids) (hm : machine.Tame realm) (hb : machine.budget realm < b)
    (hl : machine.loading = ((realm.start.loader loaderId).cache, record.id) :: rest)
    (hn : ∀ a ∈ rest, Identity.same ((realm.start.loader loaderId).cache, record.id) a = false)
    (hu : (next.handleFile loaderId (realm.start.loader loaderId) record).Unchanging realm machine) :
    (next.handleFile loaderId (realm.start.loader loaderId) record machine).1 ≠ .exhausted ∧
      Machine.Returns realm rest machine
        (next.handleFile loaderId (realm.start.loader loaderId) record machine).2 := by
  obtain ⟨handler, hsettle⟩ := hc.handlers (realm.start.loader loaderId).registry record.id
  have hregistry : machine.registry (realm.start.loader loaderId).registry =
      realm.start.registry (realm.start.loader loaderId).registry := by
    rw [Machine.registry, hm.registries]
    rfl
  have hs := Registry.settle_ne_sameAs hsettle
  rw [← hregistry] at hsettle
  unfold Steps.handleFile at hu ⊢
  have hhandle : (next.handle loaderId (realm.start.loader loaderId) record handler).Unchanging realm machine := by
    refine fun hl later hp => hu hl later (.inr ⟨_, machine, rfl, ?_⟩)
    dsimp only
    rw [hsettle]
    exact hp
  rw [show (bind (Run.registry _) _ : Run Unit) machine = _ from bind_ok rfl, hsettle]
  dsimp only
  by_cases he : handler = .evict
  · subst he
    refine ⟨Outcome.ok_ne_exhausted (), hm.hosts, fun a ha => ?_, Array.size_modify.trans hm.caches, hm.loaders,
      hm.registries, rfl, rfl⟩
    have hcached : machine.Cached a := hm.cached hloads a (hl ▸ List.mem_cons_of_mem _ ha)
    exact Heap.contains_updateCache_erase hcached (hn a ha)
  · obtain ⟨hends, hstays⟩ := endsAt_handle hc hloads hp hid hm hb hs he hhandle
    exact ⟨hends, hstays.returns hloads hl⟩

/-- After the file of a new module has been handled, its load comes to an end, whether it was handled well or not. -/
private theorem stays_conclude {record : Record} (hid : record.filename ∈ realm.ids) {entered : Machine}
    (he : entered.Tame realm) (hd : entered.callDepth = machine.callDepth)
    (hb : entered.budget realm < b)
    (hl : entered.loading = ((realm.start.loader loaderId).cache, record.id) :: machine.loading)
    (hn : ∀ a ∈ machine.loading, Identity.same ((realm.start.loader loaderId).cache, record.id) a = false)
    (hu : (next.handleFile loaderId (realm.start.loader loaderId) record).Unchanging realm entered) :
    (next.conclude loaderId (realm.start.loader loaderId) record.id (.reserved record) entered).1 ≠ .exhausted ∧
      machine.Stays realm
        (next.conclude loaderId (realm.start.loader loaderId) record.id (.reserved record) entered).2 := by
  obtain ⟨hends, hreturns⟩ := returns_handleFile hc hloads hp hid he hb hl hn hu
  rw [conclude_reserved]
  cases hr : next.handleFile loaderId (realm.start.loader loaderId) record entered with
  | mk outcome later =>
    rw [hr] at hends hreturns
    -- The load that ends is the innermost one.
    have hloading : later.loading.tail = machine.loading := by
      rw [hreturns.loading, hl]
      rfl
    cases outcome with
    | ok _ =>
      rw [bind_ok (onFailure_ok hr)]
      refine ⟨Outcome.ok_ne_exhausted _,
        hreturns.stays hd rfl (fun a ha => ?_) Array.size_modify (hloading ▸ rfl)⟩
      refine Heap.contains_updateCache (hreturns.cached a ha) fun _ modules hcontains => ?_
      rwa [Cache.markLoaded, Cache.contains_update]
    | failed failure =>
      rw [bind_failed (onFailure_failed hr rfl)]
      refine ⟨Outcome.failed_ne_exhausted failure,
        hreturns.stays hd rfl (fun a ha => ?_) Array.size_modify (hloading ▸ rfl)⟩
      exact Heap.contains_updateCache_erase (hreturns.cached a ha) (hn a ha)
    | exhausted => exact absurd rfl hends

/-- A load ends with a bit more to spend than what the program of the module needs. -/
theorem endsAt_load (hid : id ∈ realm.ids) (parent : Option Path) (hm : machine.Tame realm)
    (hb : machine.budget realm < b + 1) : (next.load loaderId id parent).EndsAt realm machine := by
  have hloader : machine.loader loaderId = realm.start.loader loaderId := by
    rw [Machine.loader, hm.loaders]
    rfl
  unfold Steps.load
  refine .read_bind hm ?_
  rw [hloader]
  cases hfind : (machine.heap.cache (realm.start.loader loaderId).cache).find? id with
  | some record =>
    -- A module that is in the cache is given as it is, even while it is being loaded: this ends a cycle.
    unfold Run.enter
    have hlinked : machine.Stays realm { machine with
        heap := machine.heap.updateCache (realm.start.loader loaderId).cache (·.link parent id)
        events := .found (realm.start.loader loaderId).cache id parent record.exports :: machine.events } := by
      refine .of_heap hm hm.hosts (fun a ha => Heap.contains_updateCache ha fun _ modules hcontains => ?_)
        Array.size_modify rfl
      rwa [Cache.contains_link]
    refine .update_bind ?_ ?_
    · rw [hfind]
      exact hlinked
    · rw [hfind]
      exact .pure _ hlinked.tame
  | none =>
    obtain ⟨record, entered, henter, rfl, hfile, hentered, hd, hl⟩ := exists_entered parent hc hm hfind
    -- A module that is not in the cache is none of those that are being loaded, so there is one less of the rest.
    have hn := not_same_of_find? hloads hm hfind
    have huniverse : ((realm.start.loader loaderId).cache, record.id) ∈ realm.universe :=
      List.mem_flatMap.2 ⟨_, List.mem_range.2 (hc.caches loaderId), List.mem_map.2 ⟨record.id, hid, rfl⟩⟩
    have hbudget : entered.budget realm < b := by
      have hless : entered.budget realm < machine.budget realm :=
        Machine.budget_lt_of_entered huniverse (List.any_eq_false.2 fun a ha => Bool.eq_false_iff.1 (hn a ha)) hl hd
      exact Nat.lt_of_lt_of_le hless (Nat.le_of_lt_succ hb)
    refine EndsAt.step_bind henter fun hu => ?_
    exact stays_conclude hc hloads hp (hfile ▸ hid) hentered hd hbudget hl hn fun hl later hpasses =>
      hu hl later (.inl (.inl hpasses))

/-- A request for a specifier is a load, unless it leads to no file. -/
theorem ends_require (loaderId : LoaderId) (specifier : String) (dir : Path) (parent : Option Path) :
    (next.require loaderId specifier dir parent).Ends realm (b + 1) := by
  intro machine hm hb
  have hscene (hs : machine.sites = realm.start.sites) : machine.scene loaderId = realm.start.scene loaderId := by
    rw [Machine.scene, Machine.scene, Machine.loader, Machine.loader, hm.loaders, hs]
  have hresolve : (resolve loaderId specifier dir).Ends realm (b + 1) :=
    .of_plain (.resolve loaderId specifier dir : Plain false _)
  unfold Steps.require
  refine .of_sites fun hsites => (hresolve machine hm hb).bind fun target later hr hs => ?_
  cases target with
  | builtin name =>
    refine Ends.bind (.read _) (fun loader => ?_) later hs.tame (hs.budget ▸ hb)
    split
    · exact .pure _
    · exact .fail _
  | file id =>
    have hfound := resolve_ok_iff.1 (congrArg Prod.fst hr)
    rw [hscene (hsites hloads)] at hfound
    have hid : id ∈ realm.ids := hc.identities loaderId specifier dir id hfound
    exact endsAt_load hc hloads hp hid parent hs.tame (hs.budget ▸ hb)

end

end Steps
end ScriptModules
