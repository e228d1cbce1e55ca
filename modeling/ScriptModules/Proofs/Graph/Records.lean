import Mathlib.Order.Compare
import ScriptModules.Machine.Embedding
import ScriptModules.Proofs.Runs.Outcome

/-!
# The records of a cache

An embedding program works on a cache through handles, and copies of a handle are handles of the same cache.  Whatever
it does, the identities in the cache rise strictly, and the record of an identity is its own, with children that are
other modules and all different (`Cache.IsKept`).  To take a module out takes out just its record, and the module from
the children of its parent (`Cache.Drops`).
-/

namespace ScriptModules

/-! ## The order of paths -/

instance : Std.TransCmp Component.compare where
  eq_swap {a b} := by
    cases a <;> cases b <;> exact Std.OrientedOrd.eq_swap
  isLE_trans {a b c} := by
    cases a <;> cases b <;> cases c <;> first | exact Std.TransOrd.isLE_trans | exact fun _ _ => rfl | exact nofun

namespace Path

private theorem compareSteps_eq (as bs : List Component) :
    compareSteps as bs = List.compareLex Component.compare as bs := by
  induction as generalizing bs with
  | nil => cases bs <;> rfl
  | cons a as ih =>
    cases bs with
    | nil => rfl
    | cons b bs =>
      rw [compareSteps, ih, List.compareLex_cons_cons]

instance : Std.TransCmp Path.compare where
  eq_swap {p q} := by
    rw [Path.compare, Path.compare, compareSteps_eq, compareSteps_eq]
    exact Std.OrientedCmp.eq_swap
  isLE_trans {p q r} := by
    rw [Path.compare, Path.compare, Path.compare, compareSteps_eq, compareSteps_eq, compareSteps_eq]
    exact Std.TransCmp.isLE_trans

end Path

/-! ## Records -/

/-- The record is the one that a module has under this identity. -/
structure Record.IsOf (record : Record) (id : Path) : Prop where
  same : record.id.same id = true
  filename : record.filename = record.id
  /-- No child comes twice. -/
  distinct : record.children.Pairwise fun a b => a.same b = false
  /-- The module is not a child of itself. -/
  others : ∀ child ∈ record.children, child.same record.id = false

namespace Record

variable {record : Record} {id other child : Path}

private theorem IsOf.congr (h : record.IsOf id) (hs : id.same other = true) : record.IsOf other :=
  { h with same := Path.same_trans h.same hs }

private theorem isOf_unloaded (id : Path) (parent : Option Path) (exports : Value) :
    (Record.unloaded id parent exports).IsOf id :=
  ⟨Path.same_refl id, rfl, .nil, nofun⟩

private theorem IsOf.dropChild (h : record.IsOf id) (child : Path) : (record.dropChild child).IsOf id where
  same := h.same
  filename := h.filename
  distinct := h.distinct.filter _
  others other ho := h.others other (List.mem_filter.1 ho).1

private theorem IsOf.addChild (h : record.IsOf id) (hc : id.same child = false) : (record.addChild child).IsOf id := by
  unfold Record.addChild
  split
  · exact h
  · next hnew =>
    have hnone : ∀ c ∈ record.children, c.same child = false := by
      simpa only [List.any_eq_true, not_exists, not_and, Bool.not_eq_true] using hnew
    refine ⟨h.same, h.filename, ?_, fun other ho => ?_⟩
    · refine List.pairwise_append.2 ⟨h.distinct, List.pairwise_singleton _ _, fun c hc other ho => ?_⟩
      rw [List.mem_singleton.1 ho]
      exact hnone c hc
    · rcases List.mem_append.1 ho with ho | ho
      · exact h.others other ho
      · rw [List.mem_singleton.1 ho]
        change child.same record.id = false
        rwa [Path.same_comm, Path.same_congr h.same]

end Record

/-! ## Caches -/

namespace Cache

/-- The cache is in order. -/
structure IsKept (cache : Cache) : Prop where
  records : ∀ id record, cache.find? id = some record → record.IsOf id
  rising : cache.keys.Pairwise fun a b => a.compare b = .lt
  /-- The identities are those that there is a record of. -/
  listed : ∀ id, cache.contains id = true ↔ ∃ key ∈ cache.keys, key.same id = true
  counted : cache.size = cache.keys.length

/-- The second cache is the first one without the record of a module, and without the module among the children of the
one that first required it. -/
structure Drops (cache : Cache) (id : Path) (later : Cache) : Prop where
  removed : ∀ other, id.same other = true → later.contains other = false
  kept : ∀ other, id.same other = false → later.find? other = (cache.find? other).map fun record =>
    if ((cache.find? id).bind Record.parent).any (·.same other) then
      { record with children := record.children.filter fun child => !child.same id }
    else record
  keys : later.keys = cache.keys.filter fun key => !key.same id

variable {cache : Cache} {id : Path}

private theorem contains_iff_mem_keys (cache : Cache) (id : Path) :
    cache.contains id = true ↔ ∃ key ∈ cache.keys, key.same id = true := by
  simp [contains, find?, keys]

/-- The identities stand in the list of them, and are as many as it is long, in every cache. -/
theorem isKept_of_records (hr : ∀ id record, cache.find? id = some record → record.IsOf id)
    (hk : cache.keys.Pairwise fun a b => a.compare b = .lt) : cache.IsKept :=
  ⟨hr, hk, contains_iff_mem_keys cache, (List.length_map ..).symm⟩

private theorem isKept_empty : empty.IsKept := isKept_of_records nofun .nil

/-! ### What is done with a cache -/

private theorem keys_update (cache : Cache) (id : Path) (change : Record → Record) :
    (cache.update id change).keys = cache.keys := by
  simp [keys, update, Function.comp_def]

private theorem keys_erase (cache : Cache) (id : Path) :
    (cache.erase id).keys = cache.keys.filter fun key => !key.same id := by
  unfold erase
  split
  · next hnone =>
    refine (List.filter_eq_self.2 fun key hkey => ?_).symm
    rw [Bool.not_eq_true']
    refine Bool.eq_false_iff.2 fun hsame => ?_
    have hcontains := (contains_iff_mem_keys cache id).2 ⟨key, hkey, hsame⟩
    rw [contains, hnone] at hcontains
    contradiction
  · next record _ =>
    have hfilter : (Cache.mk (cache.entries.filter fun entry => !entry.1.same id)).keys =
        cache.keys.filter fun key => !key.same id := by
      simp [keys, List.filter_map, Function.comp_def]
    cases record.parent with
    | none => exact hfilter
    | some parent => rw [← hfilter, keys_update]

/-- A new identity between those before it and those behind it leaves them rising. -/
private theorem rising_insert {before after : List Path} (h : (before ++ after).Pairwise fun a b => a.compare b = .lt)
    (hbefore : ∀ key ∈ before, id.compare key = .gt) (hafter : ∀ key ∈ after.head?, id.compare key = .lt) :
    (before ++ id :: after).Pairwise fun a b => a.compare b = .lt := by
  obtain ⟨hfirst, hlast, hcross⟩ := List.pairwise_append.1 h
  have hbehind : ∀ key ∈ after, id.compare key = .lt := by
    cases after with
    | nil => exact nofun
    | cons first rest =>
      have hnext := hafter first rfl
      refine List.forall_mem_cons.2 ⟨hnext, fun key hkey => ?_⟩
      exact Std.TransCmp.lt_trans hnext ((List.pairwise_cons.1 hlast).1 key hkey)
  refine List.pairwise_append.2 ⟨hfirst, List.pairwise_cons.2 ⟨hbehind, hlast⟩, fun key hkey other ho => ?_⟩
  rcases List.mem_cons.1 ho with rfl | ho
  · exact Std.OrientedCmp.gt_iff_lt.1 (hbefore key hkey)
  · exact hcross key hkey other ho

namespace IsKept

private theorem reserve (h : cache.IsKept) (id : Path) (parent : Option Path) (exports : Value) :
    (cache.reserve id parent exports).IsKept := by
  refine isKept_of_records (fun other record hrecord => ?_) ?_
  · rw [find?_reserve] at hrecord
    split at hrecord
    · next hsame =>
      rw [← Option.some.inj hrecord]
      exact (Record.isOf_unloaded id parent exports).congr hsame
    · exact h.records other record hrecord
  · rcases cache.keys_reserve id parent exports with hsame | ⟨before, after, hkeys, hbefore, hafter, hreserved⟩
    · rw [hsame]
      exact h.rising
    · rw [hreserved]
      exact rising_insert (hkeys ▸ h.rising) hbefore hafter

/-- A change of a record keeps the cache in order if it keeps the record that of its module. -/
theorem update (h : cache.IsKept) {change : Record → Record} (hc : ∀ record, record.IsOf id → (change record).IsOf id) :
    (cache.update id change).IsKept := by
  refine isKept_of_records (fun other record hrecord => ?_) ?_
  · rw [find?_update] at hrecord
    split at hrecord
    · next hsame =>
      obtain ⟨old, hold, rfl⟩ := Option.map_eq_some_iff.1 hrecord
      have hown := (h.records other old hold).congr (Path.same_comm id other ▸ hsame)
      exact (hc old hown).congr hsame
    · exact h.records other record hrecord
  · rw [keys_update]
    exact h.rising

private theorem setExports (h : cache.IsKept) (id : Path) (exports : Value) : (cache.setExports id exports).IsKept :=
  h.update fun _ hr => ⟨hr.same, hr.filename, hr.distinct, hr.others⟩

private theorem markLoaded (h : cache.IsKept) (id : Path) : (cache.markLoaded id).IsKept :=
  h.update fun _ hr => ⟨hr.same, hr.filename, hr.distinct, hr.others⟩

private theorem erase (h : cache.IsKept) (id : Path) : (cache.erase id).IsKept := by
  refine isKept_of_records (fun other record hrecord => ?_) ?_
  · rw [find?_erase] at hrecord
    split at hrecord
    · contradiction
    split at hrecord
    · obtain ⟨old, hold, rfl⟩ := Option.map_eq_some_iff.1 hrecord
      exact (h.records other old hold).dropChild id
    · exact h.records other record hrecord
  · rw [keys_erase]
    exact h.rising.filter _

private theorem addChild (h : cache.IsKept) (parent child : Path) : (cache.addChild parent child).IsKept := by
  unfold Cache.addChild
  split
  · exact h
  · next hother => exact h.update fun record hrecord => hrecord.addChild (Bool.eq_false_iff.2 hother)

end IsKept

private theorem drops_erase (cache : Cache) (id : Path) : cache.Drops id (cache.erase id) where
  removed other hsame := by rw [contains, find?_erase, if_pos hsame, Option.isSome_none]
  kept other hother := by
    rw [find?_erase, hother, if_neg Bool.false_ne_true]
    split
    · rfl
    · exact Option.map_id'.symm
  keys := keys_erase cache id

end Cache

/-! ## Handles -/

/-- What can be done with a cache. -/
inductive Cache.Action where
  | reserve (id : Path) (parent : Option Path)
  | erase (id : Path)
  | setExports (id : Path) (exports : Value)
  | markLoaded (id : Path)
  | addChild (parent child : Path)
  | clear

/-- A cache is what it was made as. -/
theorem Heap.cache_newCache (heap : Heap) (cache : Cache) :
    (heap.newCache cache).2.cache (heap.newCache cache).1 = cache := by
  simp [Heap.cache, newCache]

namespace Run

/-- Does something with the cache of a handle. -/
def act (cache : CacheId) : Cache.Action → Run Unit
  | .reserve id parent => reserve cache id parent
  | .erase id => changeCache cache (·.erase id)
  | .setExports id exports => changeCache cache (·.setExports id exports)
  | .markLoaded id => changeCache cache (·.markLoaded id)
  | .addChild parent child => addChild cache (some parent) child
  | .clear => changeCache cache fun _ => .empty

/-- Does one thing after the other, each through a handle. -/
def actAll : List (CacheId × Cache.Action) → Run Unit
  | [] => return ()
  | (cache, action) :: rest => do
    act cache action
    actAll rest

variable {machine later : Machine} {cache : CacheId}

private theorem isKept_of_modify {change : Cache → Cache} (hc : ∀ given : Cache, given.IsKept → (change given).IsKept)
    {i : Nat} (hl : later.heap.caches = machine.heap.caches.modify i change) (h : (machine.heap.cache cache).IsKept) :
    (later.heap.cache cache).IsKept := by
  rw [Heap.cache, hl, Array.getElem?_modify]
  rw [Heap.cache] at h
  split
  · cases hcache : machine.heap.caches[cache.index]? with
    | none => exact Cache.isKept_empty
    | some given =>
      rw [hcache] at h
      exact hc given h
  · exact h

/-- Whatever is done with a cache, it is a change that keeps it in order, and all others stay as they are. -/
private theorem act_eq (cache : CacheId) (action : Cache.Action) (machine : Machine) :
    ∃ (later : Machine) (change : Cache → Cache), act cache action machine = (.ok (), later) ∧
      (∀ given : Cache, given.IsKept → (change given).IsKept) ∧
      later.heap.caches = machine.heap.caches.modify cache.index change := by
  cases action with
  | reserve id parent => exact ⟨_, _, rfl, fun _ h => h.reserve id parent _, rfl⟩
  | erase id => exact ⟨_, _, rfl, fun _ h => h.erase id, rfl⟩
  | setExports id exports => exact ⟨_, _, rfl, fun _ h => h.setExports id exports, rfl⟩
  | markLoaded id => exact ⟨_, _, rfl, fun _ h => h.markLoaded id, rfl⟩
  | addChild parent child => exact ⟨_, _, rfl, fun _ h => h.addChild parent child, rfl⟩
  | clear => exact ⟨_, _, rfl, fun _ _ => Cache.isKept_empty, rfl⟩

private theorem actAll_keeps (actions : List (CacheId × Cache.Action)) (h : (machine.heap.cache cache).IsKept) :
    ∃ later, actAll actions machine = (.ok (), later) ∧ (later.heap.cache cache).IsKept := by
  induction actions generalizing machine with
  | nil => exact ⟨machine, rfl, h⟩
  | cons first rest ih =>
    obtain ⟨handle, action⟩ := first
    obtain ⟨middle, change, hact, hc, hmodify⟩ := act_eq handle action machine
    obtain ⟨later, hrest, hlater⟩ := ih (isKept_of_modify hc hmodify h)
    exact ⟨later, (bind_ok hact).trans hrest, hlater⟩

/-- What is erased through a handle is erased from its cache. -/
private theorem act_erase (cache : CacheId) (id : Path) (machine : Machine) : ∃ later,
    act cache (.erase id) machine = (.ok (), later) ∧ later.heap.cache cache = (machine.heap.cache cache).erase id := by
  refine ⟨_, rfl, ?_⟩
  change (machine.heap.updateCache cache (·.erase id)).cache cache = _
  rw [Heap.cache, Heap.updateCache, Array.getElem?_modify, if_pos rfl, Heap.cache]
  cases machine.heap.caches[cache.index]? <;> rfl

/-- After anything that is done with a new cache through its handles, and with other ones, the cache is in order: each
record is that of its module, with different children that are other modules, and the identities rise strictly and are
those that there is a record of.  To take out one more module takes its record out, and otherwise just the module from
the children of its parent. -/
theorem isKept_of_actAll {start : Machine} (h : newCache machine = (.ok cache, start))
    (actions : List (CacheId × Cache.Action)) :
    ∃ later, actAll actions start = (.ok (), later) ∧ (later.heap.cache cache).IsKept ∧
      ∀ id, ∃ last, act cache (.erase id) later = (.ok (), last) ∧
        (later.heap.cache cache).Drops id (last.heap.cache cache) := by
  have hstart : start.heap.cache cache = .empty := by
    obtain ⟨hcache, rfl⟩ := Prod.mk.inj h
    obtain rfl := Outcome.ok.inj hcache
    exact Heap.cache_newCache machine.heap .empty
  obtain ⟨later, hlater, hkept⟩ := actAll_keeps actions (hstart ▸ Cache.isKept_empty)
  refine ⟨later, hlater, hkept, fun id => ?_⟩
  obtain ⟨last, hlast, hcache⟩ := act_erase cache id later
  exact ⟨last, hlast, hcache ▸ Cache.drops_erase _ id⟩

/-- A module that is put in twice, in two spellings, with itself, another one and one that is not there as children. -/
theorem isKept_of_family : ∃ later,
    actAll [(⟨0⟩, .reserve ⟨"/b"⟩ none), (⟨0⟩, .reserve ⟨"//b/"⟩ none), (⟨0⟩, .reserve ⟨"/a"⟩ (some ⟨"/b"⟩)),
        (⟨0⟩, .addChild ⟨"/b"⟩ ⟨"/a"⟩), (⟨0⟩, .addChild ⟨"/b"⟩ ⟨"/b/."⟩), (⟨0⟩, .addChild ⟨"/b"⟩ ⟨"/c"⟩),
        (⟨0⟩, .addChild ⟨"/b"⟩ ⟨"/a/"⟩)] (newCache .empty).2 = (.ok (), later) ∧
      (later.heap.cache ⟨0⟩).IsKept ∧ (later.heap.cache ⟨0⟩).keys = [⟨"/a"⟩, ⟨"/b"⟩] ∧
      ((later.heap.cache ⟨0⟩).find? ⟨"/b"⟩).map Record.children = some [⟨"/a"⟩, ⟨"/c"⟩] ∧
      ∃ last, act ⟨0⟩ (.erase ⟨"/a/"⟩) later = (.ok (), last) ∧
        (last.heap.cache ⟨0⟩).find? ⟨"/b"⟩ = some {
          id := ⟨"//b/"⟩, filename := ⟨"//b/"⟩, exports := .object ⟨1⟩, loaded := false, parent := none,
          children := [⟨"/c"⟩] } := by
  let actions : List (CacheId × Cache.Action) :=
    [(⟨0⟩, .reserve ⟨"/b"⟩ none), (⟨0⟩, .reserve ⟨"//b/"⟩ none), (⟨0⟩, .reserve ⟨"/a"⟩ (some ⟨"/b"⟩)),
      (⟨0⟩, .addChild ⟨"/b"⟩ ⟨"/a"⟩), (⟨0⟩, .addChild ⟨"/b"⟩ ⟨"/b/."⟩), (⟨0⟩, .addChild ⟨"/b"⟩ ⟨"/c"⟩),
      (⟨0⟩, .addChild ⟨"/b"⟩ ⟨"/a/"⟩)]
  have hkeys : ((actAll actions (newCache .empty).2).2.heap.cache ⟨0⟩).keys = [⟨"/a"⟩, ⟨"/b"⟩] := by decide +kernel
  have hrecord : ((actAll actions (newCache .empty).2).2.heap.cache ⟨0⟩).find? ⟨"/b"⟩ = some {
      id := ⟨"//b/"⟩, filename := ⟨"//b/"⟩, exports := .object ⟨1⟩, loaded := false, parent := none,
      children := [⟨"/a"⟩, ⟨"/c"⟩] } := by
    decide +kernel
  have hparent : (((actAll actions (newCache .empty).2).2.heap.cache ⟨0⟩).find? ⟨"/a/"⟩).bind Record.parent =
      some ⟨"/b"⟩ := by
    decide +kernel
  have hnew : newCache .empty = (.ok ⟨0⟩, (newCache .empty).2) := rfl
  obtain ⟨later, hlater, hkept, herase⟩ := isKept_of_actAll hnew actions
  obtain ⟨last, hlast, hdrops⟩ := herase ⟨"/a/"⟩
  rw [hlater] at hkeys hrecord hparent
  refine ⟨later, hlater, hkept, hkeys, by rw [hrecord]; rfl, last, hlast, ?_⟩
  rw [hdrops.kept ⟨"/b"⟩ (by decide), hrecord, hparent]
  decide

end Run
end ScriptModules
