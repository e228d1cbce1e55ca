import ScriptModules.Machine.Basic

/-!
# The module graph and its events

The graph of a machine is its caches with the loads that have begun and not ended.  Only some events change
it, and each of them changes it in one way (`Graph.after`) and may only happen at some graphs
(`Graph.Allows`).

The main fact is `bare?_after`: what an event does to all of a record but its children.  `lists_started` and its
like tell what it does to the children.
-/

namespace ScriptModules

/-- A module of a cache. -/
abbrev Identity := CacheId × Path

namespace Identity

/-- The same module, up to the spelling of its path. -/
def same (a b : Identity) : Bool := a.1 == b.1 && a.2.same b.2

@[simp] theorem same_refl (a : Identity) : same a a = true := by simp [same]

/-- Two modules are the same if they are in the same cache and their paths are made of the same steps. -/
theorem same_iff {a b : Identity} : same a b = true ↔ a.1 = b.1 ∧ a.2.components = b.2.components := by
  simp [same, Path.same_iff]

theorem same_comm (a b : Identity) : same a b = same b a := by
  rw [Bool.eq_iff_iff, same_iff, same_iff]
  exact and_congr eq_comm eq_comm

theorem same_trans {a b c : Identity} (h : same a b = true) (h' : same b c = true) : same a c = true := by
  rw [same_iff] at h h' ⊢
  exact ⟨h.1.trans h'.1, h.2.trans h'.2⟩

theorem same_congr {a b : Identity} (h : same a b = true) (c : Identity) : same a c = same b c := by
  rw [Bool.eq_iff_iff]
  exact ⟨same_trans (by rwa [same_comm]), same_trans h⟩

end Identity

/-- The record without what the module required. -/
def Record.bare (record : Record) : Record := { record with children := [] }

/-- Did the module require this one? -/
def Record.lists (record : Record) (child : Path) : Bool := record.children.any (·.same child)

@[simp] theorem Record.bare_addChild (record : Record) (child : Path) :
    (record.addChild child).bare = record.bare := by
  unfold addChild
  split <;> rfl

@[simp] theorem Record.bare_dropChild (record : Record) (child : Path) :
    (record.dropChild child).bare = record.bare := rfl

private theorem Record.lists_addChild (record : Record) (child other : Path) :
    (record.addChild child).lists other = (child.same other || record.lists other) := by
  unfold addChild lists
  split
  · next h =>
    by_cases hs : child.same other
    · rw [hs, Bool.true_or]
      rw [List.any_eq_true] at h ⊢
      obtain ⟨c, hc, hsame⟩ := h
      exact ⟨c, hc, Path.same_trans hsame hs⟩
    · simp [hs]
  · simp [Bool.or_comm]

/-- A record from which a child is dropped lists all other children still. -/
theorem Record.lists_dropChild (record : Record) (child other : Path) :
    (record.dropChild child).lists other = (!child.same other && record.lists other) := by
  unfold dropChild lists
  rw [List.any_filter]
  by_cases hs : child.same other
  · have h : ∀ c : Path, (!c.same child && c.same other) = false := by
      intro c
      rw [Path.same_comm c child, Path.same_congr hs, Path.same_comm]
      simp
    simp [hs, h]
  · have h : ∀ c : Path, (!c.same child && c.same other) = c.same other := by
      intro c
      by_cases hc : c.same other
      · rw [Path.same_congr hc, Path.same_comm, hc]
        simp [hs]
      · simp [hc]
    simp [hs, h]

/-- What an event makes of all of a record but its children. -/
def Event.onRecord (a : Identity) (record? : Option Record) : Event → Option Record
  | .started cache id parent exports =>
    if Identity.same (cache, id) a then some (.unloaded id parent exports) else record?
  | .assigned cache id exports =>
    if Identity.same (cache, id) a then record?.map ({ · with exports }) else record?
  | .finished cache id _ =>
    if Identity.same (cache, id) a then record?.map ({ · with loaded := true }) else record?
  | .failed cache id _ => if Identity.same (cache, id) a then none else record?
  | _ => record?

/-- The caches, and the loads that have begun and not ended, the innermost first. -/
structure Graph where
  caches : Array Cache
  loading : List Identity

/-- The module graph of a machine. -/
def Machine.graph (machine : Machine) : Graph := ⟨machine.heap.caches, machine.loading⟩

namespace Graph

/-- A cache. -/
def cache (graph : Graph) (id : CacheId) : Cache := graph.caches[id.index]?.getD Cache.empty

/-- Changes a cache. -/
def updateCache (graph : Graph) (id : CacheId) (change : Cache → Cache) : Graph :=
  { graph with caches := graph.caches.modify id.index change }

/-- The record of a module. -/
def find? (graph : Graph) (a : Identity) : Option Record := (graph.cache a.1).find? a.2

/-- All that is known of a module but what it required. -/
def bare? (graph : Graph) (a : Identity) : Option Record := (graph.find? a).map Record.bare

/-- Does the record of the first module list the second one? -/
def lists (graph : Graph) (a b : Identity) : Bool :=
  a.1 == b.1 && (graph.find? a).any (·.lists b.2)

/-- What a module exports now, if it is in the cache. -/
def exports? (graph : Graph) (a : Identity) : Option Value := (graph.find? a).map Record.exports

/-- What an event makes of the graph. -/
def after (graph : Graph) : Event → Graph
  | .started cache id parent exports =>
    { graph.updateCache cache fun c => (c.reserve id parent exports).link parent id with
      loading := (cache, id) :: graph.loading }
  | .assigned cache id exports => graph.updateCache cache (·.setExports id exports)
  | .found cache id parent _ => graph.updateCache cache (·.link parent id)
  | .finished cache id _ =>
    { graph.updateCache cache (·.markLoaded id) with loading := graph.loading.tail }
  | .failed cache id _ => { graph.updateCache cache (·.erase id) with loading := graph.loading.tail }
  | _ => graph

/-- When an event may happen: what starts is not in the cache, what is given away is what the module exports
now, and the body that begins and the load that ends are those of the innermost load. -/
def Allows (graph : Graph) : Event → Prop
  | .started cache id _ _ => cache.index < graph.caches.size ∧ graph.find? (cache, id) = none
  | .assigned cache id _ => graph.exports? (cache, id) ≠ none
  | .found cache id _ exports => graph.exports? (cache, id) = some exports
  | .entered cache id exports | .finished cache id exports =>
    graph.loading.head? = some (cache, id) ∧ graph.exports? (cache, id) = some exports
  | .failed cache id _ => graph.loading.head? = some (cache, id)
  | _ => True

variable {graph other : Graph} {a b : Identity}

/-! ## What an event does to a record -/

/-- The record of a module does not depend on how its path is spelled. -/
theorem find?_congr (h : Identity.same a b = true) : graph.find? a = graph.find? b := by
  rw [Identity.same_iff] at h
  rw [find?, find?, h.1]
  exact Cache.find?_congr (Path.same_iff.2 h.2)

theorem bare?_congr (h : Identity.same a b = true) : graph.bare? a = graph.bare? b := by
  rw [bare?, bare?, find?_congr h]

theorem bare?_eq_none_iff : graph.bare? a = none ↔ graph.find? a = none := by simp [bare?]

theorem bare?_of_find? {record : Record} (h : graph.find? a = some record) :
    graph.bare? a = some record.bare := by
  rw [bare?, h]
  rfl

theorem exports?_of_find? {record : Record} (h : graph.find? a = some record) :
    graph.exports? a = some record.exports := by
  rw [exports?, h]
  rfl

/-- A module that is not in the cache lists none. -/
theorem lists_of_find?_eq_none (h : graph.find? a = none) : graph.lists a b = false := by
  rw [lists, h]
  simp

private theorem find?_updateCache {cache : CacheId} {change : Cache → Cache}
    (h : cache.index < graph.caches.size ∨ change .empty = .empty) :
    (graph.updateCache cache change).find? a =
      if cache = a.1 then (change (graph.cache cache)).find? a.2 else graph.find? a := by
  simp only [find?, Graph.cache, updateCache, Array.getElem?_modify]
  by_cases hc : cache = a.1
  · subst hc
    by_cases hs : a.1.index < graph.caches.size
    · simp [hs]
    · rcases h with h | h
      · exact absurd h hs
      · simp [hs, h]
  · have hi : cache.index ≠ a.1.index := fun hi => hc (by cases cache; simp_all)
    simp [hc, hi]

/-- A change that puts a module into no cache leaves out what is not in one. -/
theorem find?_updateCache_of_none {cache : CacheId} {change : Cache → Cache} (hn : graph.find? a = none)
    (h : ∀ c : Cache, cache = a.1 → c.find? a.2 = none → (change c).find? a.2 = none) :
    (graph.updateCache cache change).find? a = none := by
  simp only [find?, Graph.cache, updateCache, Array.getElem?_modify] at hn ⊢
  split
  · next hi =>
    have hc : cache = a.1 := by cases cache; cases hi; rfl
    cases hcache : graph.caches[a.1.index]? with
    | none => rfl
    | some c =>
      rw [hcache] at hn
      exact h c hc hn
  · exact hn

/-- A load that starts makes a record, and the parent gets the module as a child. -/
theorem find?_started {cache : CacheId} {id : Path} {parent : Option Path} {exports : Value}
    (h : graph.Allows (.started cache id parent exports)) :
    (graph.after (.started cache id parent exports)).find? a =
      if Identity.same (cache, id) a then some (.unloaded id parent exports)
      else if cache = a.1 ∧ parent.any (fun p => !p.same id && p.same a.2) then
        (graph.find? a).map (·.addChild id)
      else graph.find? a := by
  obtain ⟨c, p⟩ := a
  change (graph.updateCache cache fun c => (c.reserve id parent exports).link parent id).find? (c, p) = _
  rw [find?_updateCache (.inl h.1)]
  by_cases hc : cache = c
  · subst hc
    have hself : id.same p = true → parent.any (fun q => !q.same id && q.same p) = false := by
      intro hs
      cases parent with
      | none => rfl
      | some q =>
        rw [Option.any_some, Path.same_comm q p, ← Path.same_congr hs, Path.same_comm]
        simp
    simp only [Cache.find?_link, Cache.find?_reserve, Identity.same, find?]
    by_cases hs : id.same p <;> simp [hs, hself]
  · simp [hc, Identity.same]

/-- A change of the record of one module. -/
private theorem find?_updateCache_update {cache : CacheId} {id : Path} {change : Record → Record} :
    (graph.updateCache cache (·.update id change)).find? a =
      if Identity.same (cache, id) a then (graph.find? a).map change else graph.find? a := by
  rw [find?_updateCache (.inr rfl)]
  by_cases hc : cache = a.1
  · subst hc
    simp [Cache.find?_update, Identity.same, find?]
  · simp [hc, Identity.same]

/-- What a module exports is the only thing that an assignment changes. -/
theorem find?_assigned {cache : CacheId} {id : Path} {exports : Value} :
    (graph.after (.assigned cache id exports)).find? a =
      if Identity.same (cache, id) a then (graph.find? a).map ({ · with exports })
      else graph.find? a :=
  find?_updateCache_update

/-- A module that is found in the cache becomes a child of the module that required it. -/
theorem find?_found {cache : CacheId} {id : Path} {parent : Option Path} {exports : Value} :
    (graph.after (.found cache id parent exports)).find? a =
      if cache = a.1 ∧ parent.any (fun p => !p.same id && p.same a.2) then
        (graph.find? a).map (·.addChild id)
      else graph.find? a := by
  rw [after, find?_updateCache (.inr (by cases parent <;> simp [Cache.link, Cache.addChild,
    Cache.update, Cache.empty]))]
  by_cases hc : cache = a.1
  · subst hc
    simp [Cache.find?_link, find?]
  · simp [hc]

/-- A load that succeeds marks the record of its module as loaded. -/
theorem find?_finished {cache : CacheId} {id : Path} {exports : Value} :
    (graph.after (.finished cache id exports)).find? a =
      if Identity.same (cache, id) a then (graph.find? a).map ({ · with loaded := true })
      else graph.find? a :=
  find?_updateCache_update

/-- A load that fails takes the record of its module away, and the first parent loses this child. -/
theorem find?_failed {cache : CacheId} {id : Path} {failure : Failure} :
    (graph.after (.failed cache id failure)).find? a =
      if Identity.same (cache, id) a then none
      else if cache = a.1 ∧ ((graph.find? (cache, id)).bind Record.parent).any (·.same a.2) then
        (graph.find? a).map (·.dropChild id)
      else graph.find? a := by
  change (graph.updateCache cache _).find? a = _
  rw [find?_updateCache (.inr rfl)]
  by_cases hc : cache = a.1
  · subst hc
    simp [Cache.find?_erase, Identity.same, find?]
  · simp [hc, Identity.same]

/-- What an event does to all of a record but its children depends on the event and on that record only. -/
theorem bare?_after {event : Event} (h : graph.Allows event) :
    (graph.after event).bare? a = event.onRecord a (graph.bare? a) := by
  cases event with
  | started cache id parent exports =>
    rw [bare?, find?_started h, Event.onRecord]
    split
    · rfl
    · split <;> simp [bare?, Function.comp_def]
  | assigned cache id exports =>
    rw [bare?, find?_assigned, Event.onRecord]
    split <;> simp [bare?, Function.comp_def, Record.bare]
  | found cache id parent exports =>
    rw [bare?, find?_found]
    split <;> simp [bare?, Function.comp_def, Event.onRecord]
  | finished cache id exports =>
    rw [bare?, find?_finished, Event.onRecord]
    split <;> simp [bare?, Function.comp_def, Record.bare]
  | failed cache id failure =>
    rw [bare?, find?_failed, Event.onRecord]
    split
    · rfl
    · split <;> simp [bare?, Function.comp_def]
  | _ => rfl

/-! ## What an event does to the children -/

/-- Is the second module required by the first one here?  No module counts as required by itself. -/
def requires (cache : CacheId) (id : Path) (parent : Option Path) (a b : Identity) : Bool :=
  parent.any (fun p => Identity.same (cache, p) a) && Identity.same (cache, id) b && !Identity.same a b

private theorem lists_linked {cache : CacheId} {id : Path} {parent : Option Path} :
    (a.1 == b.1 && (if cache = a.1 ∧ parent.any (fun p => !p.same id && p.same a.2) then
        (graph.find? a).map (·.addChild id) else graph.find? a).any (·.lists b.2)) =
      (requires cache id parent a b && (graph.find? a).isSome || graph.lists a b) := by
  obtain ⟨c, p⟩ := a
  obtain ⟨d, q⟩ := b
  rw [lists]
  by_cases hcd : c = d
  · subst hcd
    by_cases hc : cache = c
    · subst hc
      cases parent with
      | none => simp [requires]
      | some parent =>
        by_cases hp : parent.same p
        · have hi : parent.same id = p.same id := Path.same_congr hp id
          have hq : id.same q = true → p.same q = p.same id := by
            intro hs
            rw [Path.same_comm p q, Path.same_comm p id, Path.same_congr hs]
          cases graph.find? (cache, p) with
          | none => simp
          | some record =>
            by_cases hs : id.same q <;> by_cases hn : p.same id <;>
              simp [requires, Identity.same, Record.lists_addChild, hp, hi, hs, hn, hq]
        · simp [requires, Identity.same, hp]
    · have hb : (cache == c) = false := by simpa using hc
      cases parent <;> simp [requires, Identity.same, hc, hb]
  · have hb : (c == d) = false := by simpa using hcd
    have hr : requires cache id parent (c, p) (d, q) = false := by
      by_cases hc : cache = c
      · subst hc
        simp [requires, Identity.same, hb]
      · have hb' : (cache == c) = false := by simpa using hc
        cases parent <;> simp [requires, Identity.same, hb']
    simp [hb, hr]

/-- A load that starts adds the module to what its parent lists, and the module itself lists nothing yet. -/
theorem lists_started {cache : CacheId} {id : Path} {parent : Option Path} {exports : Value}
    (h : graph.Allows (.started cache id parent exports)) :
    (graph.after (.started cache id parent exports)).lists a b =
      (!Identity.same (cache, id) a &&
        (requires cache id parent a b && (graph.find? a).isSome || graph.lists a b)) := by
  rw [lists, find?_started h]
  by_cases hs : Identity.same (cache, id) a
  · simp [hs, Record.unloaded, Record.lists]
  · simp only [hs, Bool.false_eq_true, if_false, Bool.not_false, Bool.true_and]
    exact lists_linked

/-- A module that is found in the cache is added to what the module that required it lists. -/
theorem lists_found {cache : CacheId} {id : Path} {parent : Option Path} {exports : Value} :
    (graph.after (.found cache id parent exports)).lists a b =
      (requires cache id parent a b && (graph.find? a).isSome || graph.lists a b) := by
  rw [lists, find?_found]
  exact lists_linked

theorem lists_assigned {cache : CacheId} {id : Path} {exports : Value} :
    (graph.after (.assigned cache id exports)).lists a b = graph.lists a b := by
  rw [lists, find?_assigned, lists]
  split
  · cases graph.find? a <;> rfl
  · rfl

theorem lists_finished {cache : CacheId} {id : Path} {exports : Value} :
    (graph.after (.finished cache id exports)).lists a b = graph.lists a b := by
  rw [lists, find?_finished, lists]
  split
  · cases graph.find? a <;> rfl
  · rfl

/-- A load that fails takes away what its module lists, and the module from what its first parent lists. -/
theorem lists_failed {cache : CacheId} {id : Path} {failure : Failure} :
    (graph.after (.failed cache id failure)).lists a b =
      (!Identity.same (cache, id) a && !(Identity.same (cache, id) b && cache == a.1 &&
        ((graph.find? (cache, id)).bind Record.parent).any (·.same a.2)) && graph.lists a b) := by
  rw [lists, find?_failed, lists]
  by_cases hs : Identity.same (cache, id) a
  · simp [hs]
  · simp only [hs, Bool.false_eq_true, if_false, Bool.not_false, Bool.true_and]
    by_cases hab : a.1 = b.1
    · by_cases hc : cache = a.1
      · by_cases hp : ((graph.find? (cache, id)).bind Record.parent).any (·.same a.2)
        · rw [if_pos ⟨hc, hp⟩, hp]
          cases graph.find? a <;> simp [Record.lists_dropChild, Identity.same, hc, hab]
        · simp [hp]
      · have hb : (cache == a.1) = false := by simpa using hc
        simp [hc, hb]
    · have hb : (a.1 == b.1) = false := by simpa using hab
      simp [hb]

end Graph
end ScriptModules
