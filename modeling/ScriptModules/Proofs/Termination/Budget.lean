import ScriptModules.Proofs.Graph.Basic
import ScriptModules.Proofs.Loading.Require
import ScriptModules.Proofs.Runs.Outcome
import ScriptModules.Proofs.Runs.Plain

/-!
# What a run may spend

Calls of script functions may be inside of each other only so often, and no module is loaded inside of its own load.
So each call and each load takes something of what is left (`Machine.budget`), and all code is no larger than a bound
(`Machine.Tame`).  `Run.EndsAt` says that a run comes to an end and leaves all this as it was.
-/

namespace ScriptModules

/-- What bounds the runs from a machine. -/
structure Realm where
  /-- The machine whose files, loaders and handlers there are. -/
  start : Machine
  /-- Is anything loaded at all? -/
  loads : Bool
  /-- The identities that can be found. -/
  ids : List Path
  /-- No function and no module is larger. -/
  size : Nat

/-- A host object that may be there. -/
def Realm.Allows (realm : Realm) : Host → Prop
  | .function definition .. => sizeOf definition ≤ realm.size
  | .require .. => realm.loads = true
  | _ => True

/-- All that might be loaded. -/
def Realm.universe (realm : Realm) : List Identity :=
  (List.range realm.start.heap.caches.size).flatMap fun i => realm.ids.map fun id => (⟨i⟩, id)

/-- Is the module in its cache? -/
def Machine.Cached (machine : Machine) (a : Identity) : Prop := (machine.heap.cache a.1).contains a.2 = true

/-- Nothing is larger than the bound, and what is being loaded is in the cache. -/
structure Machine.Tame (realm : Realm) (machine : Machine) : Prop where
  hosts : ∀ id, realm.Allows (machine.heap.host id)
  cached : realm.loads = true → ∀ a ∈ machine.loading, machine.Cached a
  caches : machine.heap.caches.size = realm.start.heap.caches.size
  loaders : machine.loaders = realm.start.loaders
  registries : machine.registries = realm.start.registries

/-- The modules that are not being loaded. -/
def Machine.unloaded (realm : Realm) (machine : Machine) : List Identity :=
  realm.universe.filter fun a => !machine.loading.any (Identity.same a)

/-- How many calls and loads may still be inside of each other. -/
def Machine.budget (realm : Realm) (machine : Machine) : Nat :=
  (callLimit - machine.callDepth) + (machine.unloaded realm).length

/-- The second machine is bounded as well, and there is as much left to spend. -/
structure Machine.Stays (realm : Realm) (machine later : Machine) : Prop where
  tame : later.Tame realm
  callDepth : later.callDepth = machine.callDepth
  loading : later.loading = machine.loading

namespace Machine

variable {realm : Realm} {machine later last : Machine}

theorem Stays.refl (h : machine.Tame realm) : machine.Stays realm machine := ⟨h, rfl, rfl⟩

theorem Stays.trans (h : machine.Stays realm later) (h' : later.Stays realm last) : machine.Stays realm last :=
  ⟨h'.tame, h'.callDepth.trans h.callDepth, h'.loading.trans h.loading⟩

theorem Stays.budget (h : machine.Stays realm later) : later.budget realm = machine.budget realm := by
  rw [Machine.budget, Machine.budget, unloaded, unloaded, h.callDepth, h.loading]

/-- A change of host objects and caches that leaves the rest. -/
theorem Stays.of_heap (h : machine.Tame realm) (hh : ∀ id, realm.Allows (later.heap.host id))
    (hc : ∀ a, machine.Cached a → later.Cached a) (hs : later.heap.caches.size = machine.heap.caches.size)
    (he : later = { machine with
      heap := later.heap, sites := later.sites, environment := later.environment, runs := later.runs
      events := later.events }) : machine.Stays realm later := by
  have hloading : later.loading = machine.loading := by rw [he]
  refine ⟨⟨hh, fun hl a ha => hc a (h.cached hl a (hloading ▸ ha)), hs.trans h.caches, ?_, ?_⟩, by rw [he], hloading⟩
  · rw [he]
    exact h.loaders
  · rw [he]
    exact h.registries

/-- A change of other things. -/
theorem Stays.of_eq (h : machine.Tame realm) (hh : later.heap.hosts = machine.heap.hosts)
    (hc : later.heap.caches = machine.heap.caches)
    (he : later = { machine with
      heap := later.heap, sites := later.sites, environment := later.environment, runs := later.runs
      events := later.events }) : machine.Stays realm later := by
  refine .of_heap h (fun id => ?_) (fun a ha => ?_) (by rw [hc]) he
  · rw [Heap.host, hh]
    exact h.hosts id
  · rw [Cached, Heap.cache, hc]
    exact ha

/-- One more host object. -/
theorem Stays.newHost (h : machine.Tame realm) {host : Host} (ha : realm.Allows host) :
    machine.Stays realm { machine with heap := (machine.heap.newHost host).2 } := by
  refine .of_heap h (fun id => ?_) (fun _ => id) rfl rfl
  simp only [Heap.host, Heap.newHost, Array.getElem?_push]
  split
  · exact ha
  · exact h.hosts id

/-- What does not concern scripts and modules spends nothing. -/
theorem Stays.of_sameFrame (h : machine.Tame realm) (hs : machine.SameFrame later) : machine.Stays realm later := by
  have hhosts (id : HostId) : realm.Allows (later.heap.host id) := by
    -- At most one object is new, and it is passive: neither a function of a script nor a load function.
    rcases hs.heap.hosts with hh | ⟨host, hpassive, hh⟩
    · rw [Heap.host, hh]
      exact h.hosts id
    · rw [Heap.host, hh, Array.getElem?_push]
      split
      · cases host with
        | function definition closure properties => contradiction
        | require loader dir parent => contradiction
        | _ => trivial
      · exact h.hosts id
  rw [hs.elsewhere]
  refine .of_heap h hhosts (fun a ha => ?_) (congrArg Array.size hs.heap.caches) rfl
  rwa [Cached, Heap.cache, hs.heap.caches]

end Machine

/-! ## Caches -/

namespace Cache

variable {cache : Cache} {id other : Path}

/-- A change of a record takes no module out of the cache, and puts none in. -/
theorem contains_update (change : Record → Record) :
    (cache.update id change).contains other = cache.contains other := by
  rw [contains, contains, find?_update]
  split
  · exact Option.isSome_map
  · rfl

theorem contains_link (parent : Option Path) : (cache.link parent id).contains other = cache.contains other := by
  rw [contains, contains, find?_link]
  split
  · exact Option.isSome_map
  · rfl

/-- A module that gets a record is in the cache, and of the others those that were. -/
theorem contains_reserve (parent : Option Path) (exports : Value) :
    (cache.reserve id parent exports).contains other = (id.same other || cache.contains other) := by
  by_cases h : id.same other <;> simp [contains, find?_reserve, h]

private theorem contains_erase (h : id.same other = false) :
    (cache.erase id).contains other = cache.contains other := by
  rw [contains, contains, find?_erase, h, if_neg Bool.false_ne_true]
  split
  · exact Option.isSome_map
  · rfl

end Cache

namespace Heap

variable {heap : Heap} {cache : CacheId} {change : Cache → Cache}

/-- What is in a cache stays there if the change of the cache keeps it. -/
theorem contains_updateCache {a : Identity} (h : (heap.cache a.1).contains a.2 = true)
    (hc : cache = a.1 → ∀ modules : Cache, modules.contains a.2 = true → (change modules).contains a.2 = true) :
    ((heap.updateCache cache change).cache a.1).contains a.2 = true := by
  simp only [Heap.cache, updateCache, Array.getElem?_modify] at h ⊢
  split
  · next hi =>
    cases hm : heap.caches[a.1.index]? with
    | none =>
      rw [hm] at h
      cases h
    | some modules =>
      rw [hm] at h
      refine hc ?_ modules h
      cases cache
      exact congrArg CacheId.mk hi
  · exact h

/-- To take a module out of a cache takes out no other one. -/
theorem contains_updateCache_erase {id : Path} {a : Identity} (h : (heap.cache a.1).contains a.2 = true)
    (hn : Identity.same (cache, id) a = false) :
    ((heap.updateCache cache (·.erase id)).cache a.1).contains a.2 = true := by
  refine contains_updateCache h fun hcache modules hcontains => ?_
  rw [Identity.same, hcache, beq_self_eq_true, Bool.true_and] at hn
  rwa [Cache.contains_erase hn]

theorem cache_updateCache (h : cache.index < heap.caches.size) :
    (heap.updateCache cache change).cache cache = change (heap.cache cache) := by
  simp only [Heap.cache, updateCache, Array.getElem?_modify, if_true, Array.getElem?_eq_getElem h]
  rfl

end Heap
end ScriptModules
