import ScriptModules.Path.Basic
import ScriptModules.Value.Basic

/-!
# The cache of modules

The cache holds a record for every module that is loaded or being loaded, in the order of the paths that
are their identities.  Records refer to each other by identity only.  Two spellings of a path are the
same identity.
-/

namespace ScriptModules

/-- What is known of a module. -/
structure Record where
  id : Path
  filename : Path
  exports : Value
  loaded : Bool
  /-- The module that first required this one. -/
  parent : Option Path
  /-- The modules that this one required, in order. -/
  children : List Path
  deriving DecidableEq, Inhabited

/-- The record of a module that is not loaded yet. -/
def Record.unloaded (id : Path) (parent : Option Path) (exports : Value) : Record :=
  { id, filename := id, exports, loaded := false, parent, children := [] }

/-- The directory of the module's file. -/
def Record.dirname (record : Record) : Path := record.filename.parent?.getD ⟨"/"⟩

/-- Notes that the module required another one, once. -/
def Record.addChild (record : Record) (child : Path) : Record :=
  if record.children.any (·.same child) then record
  else { record with children := record.children ++ [child] }

/-- Takes a module out of those that were required. -/
def Record.dropChild (record : Record) (child : Path) : Record :=
  { record with children := record.children.filter fun c => !c.same child }

/-- The records by identity, in order. -/
structure Cache where
  entries : List (Path × Record)
  deriving Inhabited

namespace Cache

def empty : Cache := ⟨[]⟩

/-- The record of a module. -/
def find? (cache : Cache) (id : Path) : Option Record :=
  (cache.entries.find? fun entry => entry.1.same id).map Prod.snd

/-- Is there a record of the module? -/
def contains (cache : Cache) (id : Path) : Bool := (cache.find? id).isSome

/-- The identities, in order. -/
def keys (cache : Cache) : List Path := cache.entries.map Prod.fst

/-- The number of records. -/
def size (cache : Cache) : Nat := cache.entries.length

private def put (id : Path) (record : Record) : List (Path × Record) → List (Path × Record)
  | [] => [(id, record)]
  | (key, old) :: rest =>
    match id.compare key with
    | .lt => (id, record) :: (key, old) :: rest
    | .eq => (key, record) :: rest
    | .gt => (key, old) :: put id record rest

/-- Changes the record of a module, if there is one. -/
def update (cache : Cache) (id : Path) (change : Record → Record) : Cache :=
  ⟨cache.entries.map fun (key, record) => (key, if key.same id then change record else record)⟩

/-- Puts in a record that is not loaded yet. -/
def reserve (cache : Cache) (id : Path) (parent : Option Path) (exports : Value) : Cache :=
  ⟨put id (.unloaded id parent exports) cache.entries⟩

/-- Takes a record out, and the module out of the children of its parent. -/
def erase (cache : Cache) (id : Path) : Cache :=
  match cache.find? id with
  | none => cache
  | some record =>
    let rest : Cache := ⟨cache.entries.filter fun entry => !entry.1.same id⟩
    match record.parent with
    | none => rest
    | some parent => rest.update parent (·.dropChild id)

/-- Replaces what a module exports. -/
def setExports (cache : Cache) (id : Path) (exports : Value) : Cache :=
  cache.update id fun r => { r with exports }

/-- Marks a module as loaded. -/
def markLoaded (cache : Cache) (id : Path) : Cache :=
  cache.update id fun r => { r with loaded := true }

/-- Notes that `parent` required `child`; no module is its own child. -/
def addChild (cache : Cache) (parent child : Path) : Cache :=
  if parent.same child then cache else cache.update parent (·.addChild child)

/-- Notes that a module was required by its parent, if it has one. -/
def link (cache : Cache) (parent : Option Path) (child : Path) : Cache :=
  match parent with
  | some parent => cache.addChild parent child
  | none => cache

/-! ## What is found after a change -/

variable {cache : Cache} {id other : Path}

@[simp] theorem find?_empty (id : Path) : empty.find? id = none := rfl

/-- A record is found by every spelling of its identity. -/
theorem find?_congr (h : id.same other = true) : cache.find? id = cache.find? other := by
  have e : (fun entry : Path × Record => entry.1.same id) = fun entry => entry.1.same other := by
    funext entry
    rw [Path.same_comm, Path.same_congr h, Path.same_comm]
  rw [find?, find?, e]

private theorem find?_put (record : Record) (entries : List (Path × Record)) :
    (Cache.mk (put id record entries)).find? other =
      if id.same other then some record else (Cache.mk entries).find? other := by
  induction entries with
  | nil => by_cases h : id.same other <;> simp [put, find?, h]
  | cons entry rest ih =>
    obtain ⟨key, old⟩ := entry
    unfold put
    split
    · by_cases h : id.same other <;> simp [find?, h]
    · next heq =>
      have hk := Path.same_congr (Path.compare_eq_iff.1 heq) other
      by_cases h : id.same other <;> simp [find?, h, ← hk]
    · next hgt =>
      simp only [find?] at ih
      by_cases h : id.same other
      · have hk : key.same other = false := by
          rw [← Bool.not_eq_true]
          intro hk
          have he : id.compare key = .eq :=
            Path.compare_eq_iff.2 (Path.same_trans h (by rwa [Path.same_comm]))
          rw [he] at hgt
          contradiction
        simp [find?, hk, h, ih]
      · by_cases hk : key.same other <;> simp [find?, hk, h, ih]

/-- A new identity comes between those before it and those behind it; one that there is keeps its place and its
spelling. -/
private theorem keys_put (id : Path) (record : Record) (entries : List (Path × Record)) :
    (Cache.mk (put id record entries)).keys = (Cache.mk entries).keys ∨ ∃ before after,
      (Cache.mk entries).keys = before ++ after ∧ (∀ key ∈ before, id.compare key = .gt) ∧
        (∀ key ∈ after.head?, id.compare key = .lt) ∧ (Cache.mk (put id record entries)).keys = before ++ id :: after := by
  induction entries with
  | nil => exact .inr ⟨[], [], rfl, nofun, nofun, rfl⟩
  | cons entry rest ih =>
    obtain ⟨key, old⟩ := entry
    unfold put
    split
    · next hlt =>
      refine .inr ⟨[], key :: (Cache.mk rest).keys, rfl, nofun, fun other ho => ?_, rfl⟩
      rwa [← Option.some.inj ho]
    · exact .inl rfl
    · next hgt =>
      rcases ih with hsame | ⟨before, after, hkeys, hbefore, hafter, hput⟩
      · exact .inl (congrArg (key :: ·) hsame)
      · refine .inr ⟨key :: before, after, congrArg (key :: ·) hkeys, ?_, hafter, congrArg (key :: ·) hput⟩
        exact List.forall_mem_cons.2 ⟨hgt, hbefore⟩

/-- A module whose path is no key yet becomes one at the place that its path has in the order. -/
theorem keys_reserve (cache : Cache) (id : Path) (parent : Option Path) (exports : Value) :
    (cache.reserve id parent exports).keys = cache.keys ∨ ∃ before after,
      cache.keys = before ++ after ∧ (∀ key ∈ before, id.compare key = .gt) ∧
        (∀ key ∈ after.head?, id.compare key = .lt) ∧
        (cache.reserve id parent exports).keys = before ++ id :: after :=
  keys_put id _ cache.entries

/-- The record of a module that starts is new, and the other records stay. -/
theorem find?_reserve (parent : Option Path) (exports : Value) :
    (cache.reserve id parent exports).find? other =
      if id.same other then some (.unloaded id parent exports) else cache.find? other :=
  find?_put _ cache.entries

/-- A change concerns the record of one module only. -/
theorem find?_update (change : Record → Record) :
    (cache.update id change).find? other =
      if id.same other then (cache.find? other).map change else cache.find? other := by
  simp only [find?, update, List.find?_map, Function.comp_def]
  cases h : cache.entries.find? fun entry => entry.1.same other with
  | none => simp
  | some entry =>
    have hs : entry.1.same other = true := by
      simpa using List.find?_some h
    have hc : entry.1.same id = id.same other := by
      rw [Path.same_congr hs, Path.same_comm]
    by_cases hi : id.same other <;> simp [hc, hi]

/-- The record whose list of children is the longer for it, if a module was required by its parent. -/
theorem find?_link (parent : Option Path) :
    (cache.link parent id).find? other =
      if parent.any fun p => !p.same id && p.same other then (cache.find? other).map (·.addChild id)
      else cache.find? other := by
  cases parent with
  | none => simp [link]
  | some p =>
    by_cases h : p.same id <;> simp [link, addChild, h, find?_update]

private theorem find?_filter (entries : List (Path × Record)) :
    (Cache.mk (entries.filter fun entry => !entry.1.same id)).find? other =
      if id.same other then none else (Cache.mk entries).find? other := by
  simp only [find?, List.find?_filter]
  by_cases h : id.same other
  · have hn : entries.find? (fun entry => !entry.1.same id && entry.1.same other) = none := by
      rw [List.find?_eq_none]
      intro entry _
      rw [Path.same_comm entry.1 other, ← Path.same_congr h, Path.same_comm]
      simp
    simp [h, hn]
  · have he : (fun entry : Path × Record => !entry.1.same id && entry.1.same other) =
        fun entry => entry.1.same other := by
      funext entry
      by_cases hk : entry.1.same other
      · rw [Path.same_congr hk, Path.same_comm, hk]
        simp [h]
      · simp [hk]
    simp [h, he]

/-- With a module its record goes, and its first parent lists it no longer. -/
theorem find?_erase :
    (cache.erase id).find? other =
      if id.same other then none
      else if ((cache.find? id).bind Record.parent).any (·.same other) then
        (cache.find? other).map (·.dropChild id)
      else cache.find? other := by
  unfold erase
  split
  · next h =>
    by_cases hs : id.same other
    · simp [hs, ← find?_congr hs, h]
    · simp [hs, h]
  · next record h =>
    split
    · next hp => simp [find?_filter, h, hp]
    · next parent hp =>
      rw [find?_update, find?_filter]
      by_cases hs : id.same other <;> by_cases ho : parent.same other <;> simp [hs, ho, h, hp]

end Cache
end ScriptModules
