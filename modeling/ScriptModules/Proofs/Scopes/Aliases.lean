import ScriptModules.Proofs.Scopes.Bindings

/-!
# Environments that share scopes

A family of environments over one heap: calls make environments and copies of them, enter and leave scopes, declare
names and assign to them (`Family.serve`).  The environments share scopes, so that an assignment through one of them
may be read through others.

An assignment changes the binding that is read through its own environment, the innermost one, and so what is read
through each environment whose innermost binding of the name is that same one, and nothing else
(`Family.AssignsWhereRead`).  A scope that one environment enters is never a scope of the others that are there
(`Family.not_sees_enter`).
-/

namespace ScriptModules

/-- Environments over the same scopes, in the order in which they were made.  Each is known by its place. -/
structure Family where
  heap : Heap
  environments : List Environment

namespace Family

def empty : Family := ⟨.empty, []⟩

/-- What may be done with one environment of a family, or to make another one. -/
inductive Call where
  /-- A new environment with nothing but globals. -/
  | withGlobals (globals : List (String × Value))
  | copy (handle : Nat)
  | push (handle : Nat)
  | pushFunction (handle : Nat)
  | pop (handle : Nat)
  | declareVariable (handle : Nat) (name : String) (value? : Option Value)
  | declareLexical (handle : Nat) (name : String) (value : Value) (mutable : Bool)
  | assign (handle : Nat) (name : String) (value : Value)

/-- The scope of globals; of two with the same name the last one counts. -/
def globalScope (globals : List (String × Value)) : Scope :=
  globals.foldl (fun scope (name, value) => scope.bind name ⟨value, true⟩) ⟨0, []⟩

/-- Lets an environment enter a new scope. -/
def enter (family : Family) (handle : Nat) (into : Environment → ScopeId → Environment) : Family :=
  let (id, heap) := family.heap.newScope ⟨0, []⟩
  ⟨heap, family.environments.modify handle (into · id)⟩

/-- Changes what the scopes of an environment bind.  What fails changes nothing. -/
def bindIn (family : Family) (handle : Nat) (change : Environment → Except Failure Heap) :
    Except Failure Unit × Family :=
  match family.environments[handle]? with
  | none => (.ok (), family)
  | some env => match change env with
    | .ok heap => (.ok (), { family with heap })
    | .error failure => (.error failure, family)

/-- The answer to a call, and the family after it. -/
def serve (family : Family) : Call → Except Failure Unit × Family
  | .withGlobals globals =>
    let (id, heap) := family.heap.newScope (globalScope globals)
    (.ok (), ⟨heap, family.environments ++ [⟨[], id, []⟩]⟩)
  | .copy handle =>
    (.ok (), { family with environments := family.environments ++ family.environments[handle]?.toList })
  | .push handle => (.ok (), family.enter handle Environment.push)
  | .pushFunction handle => (.ok (), family.enter handle Environment.pushFunction)
  | .pop handle => (.ok (), { family with environments := family.environments.modify handle Environment.pop })
  | .declareVariable handle name value? =>
    family.bindIn handle fun env => .ok (family.heap.declareVariable env name value?)
  | .declareLexical handle name value mutable =>
    family.bindIn handle fun env => family.heap.declareLexical env name value mutable
  | .assign handle name value => family.bindIn handle fun env => family.heap.assign env name value

/-- The family after calls, whatever they answer. -/
def serveAll (family : Family) (calls : List Call) : Family :=
  calls.foldl (fun family call => (family.serve call).2) family

/-- What is read under a name through an environment. -/
def get (family : Family) (handle : Nat) (name : String) : Option Value :=
  family.environments[handle]?.bind fun env => family.heap.lookup? env name

end Family

/-! ## The binding that is read -/

namespace Heap

variable {heap : Heap} {env : Environment} {name : String} {value : Value} {id : ScopeId} {binding : Binding}

/-- Of the scopes of the environment, this is the innermost one that binds the name. -/
def Reads (heap : Heap) (env : Environment) (name : String) (id : ScopeId) (binding : Binding) : Prop :=
  ∃ inner outer, env.scopes = inner ++ id :: outer ∧ (∀ other ∈ inner, (heap.scope other).find? name = none) ∧
    (heap.scope id).find? name = some binding

private theorem reads_iff : heap.Reads env name id binding ↔ heap.resolveName env.scopes name = some (id, binding) := by
  unfold resolveName
  rw [List.findSome?_eq_some_iff]
  constructor
  · rintro ⟨inner, outer, hscopes, hinner, hfind⟩
    refine ⟨inner, id, outer, hscopes, by rw [hfind]; rfl, fun other ho => ?_⟩
    rw [hinner other ho]
    rfl
  · rintro ⟨inner, other, outer, hscopes, hfind, hinner⟩
    obtain ⟨found, hfound, heq⟩ := Option.map_eq_some_iff.1 hfind
    obtain ⟨rfl, rfl⟩ := Prod.mk.inj heq
    exact ⟨inner, outer, hscopes, fun other ho => Option.map_eq_none_iff.1 (hinner other ho), hfound⟩

private theorem lookup?_eq_some_iff : heap.lookup? env name = some value ↔
    ∃ id binding, heap.Reads env name id binding ∧ binding.value = value := by
  rw [lookup?, Option.map_eq_some_iff]
  constructor
  · rintro ⟨⟨id, binding⟩, hresolve, hvalue⟩
    exact ⟨id, binding, reads_iff.2 hresolve, hvalue⟩
  · rintro ⟨id, binding, hreads, hvalue⟩
    exact ⟨(id, binding), reads_iff.1 hreads, hvalue⟩

private theorem Reads.unique {id' : ScopeId} {binding' : Binding} (h : heap.Reads env name id binding)
    (h' : heap.Reads env name id' binding') : id = id' ∧ binding = binding' :=
  Prod.mk.inj (Option.some.inj ((reads_iff.1 h).symm.trans (reads_iff.1 h')))

private theorem Reads.find? (h : heap.Reads env name id binding) : (heap.scope id).find? name = some binding := by
  obtain ⟨_, _, _, _, hfind⟩ := h
  exact hfind

/-- A binding that is bound anew is read where the old one was, and all else is read as before. -/
theorem resolveName_bind (h : (heap.scope id).find? name = some binding) (new : Binding) (scopes : List ScopeId)
    (other : String) : (heap.bind id name new).resolveName scopes other =
      (heap.resolveName scopes other).map fun found => if other = name ∧ found.1 = id then (id, new) else found := by
  unfold resolveName
  rw [List.map_findSome?]
  congr 1
  funext scope
  rw [Function.comp, Option.map_map, scope_bind heap id name new scope (lt_of_find? h)]
  by_cases hscope : id = scope
  · subst hscope
    rw [if_pos rfl, Scope.find?_bind]
    by_cases hname : other = name
    · subst hname
      rw [if_pos rfl, h]
      simp
    · rw [if_neg hname]
      simp [hname, Function.comp_def]
  · rw [if_neg hscope]
    simp [Ne.symm hscope, Function.comp_def]

/-- An assignment succeeds where the binding that is read may be assigned to, and gives it the value. -/
theorem assign_eq_ok_iff {later : Heap} : heap.assign env name value = .ok later ↔
    ∃ id binding, heap.Reads env name id binding ∧ binding.mutable = true ∧
      later = heap.bind id name { binding with value } := by
  unfold assign
  constructor
  · intro h
    split at h
    · contradiction
    · next id binding hresolve =>
      split at h
      · next hmutable => exact ⟨id, binding, reads_iff.2 hresolve, hmutable, (Except.ok.inj h).symm⟩
      · contradiction
  · rintro ⟨id, binding, hreads, hmutable, rfl⟩
    rw [reads_iff.1 hreads]
    exact if_pos hmutable

/-- What is read after an assignment through any environment. -/
theorem lookup?_of_assign {later : Heap} (h : heap.assign env name value = .ok later)
    (hreads : heap.Reads env name id binding) (other : Environment) (name' : String) :
    later.lookup? other name' = (heap.resolveName other.scopes name').map fun found =>
      if name' = name ∧ found.1 = id then value else found.2.value := by
  obtain ⟨id', binding', hreads', _, rfl⟩ := assign_eq_ok_iff.1 h
  obtain ⟨rfl, rfl⟩ := hreads.unique hreads'
  rw [lookup?, resolveName_bind hreads.find?, Option.map_map]
  congr 1
  funext found
  by_cases hfound : name' = name ∧ found.1 = id
  · simp [hfound]
  · simp [hfound]

end Heap

namespace Family

variable {family : Family} {handle other : Nat} {name : String} {value : Value} {id : ScopeId} {binding : Binding}

/-- The innermost binding of the name that the environment reads is the one in this scope. -/
def Reads (family : Family) (handle : Nat) (name : String) (id : ScopeId) (binding : Binding) : Prop :=
  ∃ env, family.environments[handle]? = some env ∧ family.heap.Reads env name id binding

/-- The two environments read the same binding of the name. -/
def ReadAlike (family : Family) (name : String) (handle other : Nat) : Prop :=
  ∃ id binding, family.Reads handle name id binding ∧ family.Reads other name id binding

private theorem get_eq_some_iff : family.get handle name = some value ↔
    ∃ id binding, family.Reads handle name id binding ∧ binding.value = value := by
  unfold get Reads
  rw [Option.bind_eq_some_iff]
  constructor
  · rintro ⟨env, henv, hlookup⟩
    obtain ⟨id, binding, hreads, hvalue⟩ := Heap.lookup?_eq_some_iff.1 hlookup
    exact ⟨id, binding, ⟨env, henv, hreads⟩, hvalue⟩
  · rintro ⟨id, binding, ⟨env, henv, hreads⟩, hvalue⟩
    exact ⟨env, henv, Heap.lookup?_eq_some_iff.2 ⟨id, binding, hreads, hvalue⟩⟩

/-! ## Assignments -/

/-- The assignment hits the binding that its environment reads, and no other one. -/
structure AssignsWhereRead (family : Family) (handle : Nat) (name : String) (value : Value) : Prop where
  /-- It succeeds if the name is bound and its innermost binding may be assigned to. -/
  succeeds : (family.serve (.assign handle name value)).1 = .ok () ↔
    (family.get handle name).isSome ∧ ∀ id binding, family.Reads handle name id binding → binding.mutable = true
  /-- The value is read through the environment itself. -/
  hit : (family.serve (.assign handle name value)).1 = .ok () →
    (family.serve (.assign handle name value)).2.get handle name = some value
  /-- It is read through all environments that read the same binding. -/
  shared : (family.serve (.assign handle name value)).1 = .ok () → ∀ other, family.ReadAlike name handle other →
    (family.serve (.assign handle name value)).2.get other name = some value
  /-- All else is read as before. -/
  kept : (family.serve (.assign handle name value)).1 = .ok () →
    ∀ other name', ¬(name' = name ∧ family.ReadAlike name handle other) →
      (family.serve (.assign handle name value)).2.get other name' = family.get other name'
  /-- If it fails, everything is read as before. -/
  failed : (family.serve (.assign handle name value)).1 ≠ .ok () →
    ∀ other name', (family.serve (.assign handle name value)).2.get other name' = family.get other name'

section Assign

variable {env : Environment} {later : Heap}

private theorem reads_iff (henv : family.environments[handle]? = some env) :
    family.Reads handle name id binding ↔ family.heap.Reads env name id binding := by
  simp [Reads, henv]

/-- An assignment succeeds where a binding is read that may be assigned to; else nothing is changed. -/
theorem serve_assign (henv : family.environments[handle]? = some env) (name : String) (value : Value) :
    (∃ id binding later, family.Reads handle name id binding ∧ binding.mutable = true ∧
      family.heap.assign env name value = .ok later ∧
        family.serve (.assign handle name value) = (.ok (), { family with heap := later })) ∨
    ∃ failure, (∀ id binding, family.Reads handle name id binding → binding.mutable = false) ∧
      family.serve (.assign handle name value) = (.error failure, family) := by
  cases hassign : family.heap.assign env name value with
  | ok later =>
    obtain ⟨id, binding, hread, hmutable, _⟩ := Heap.assign_eq_ok_iff.1 hassign
    exact .inl ⟨id, binding, later, (reads_iff henv).2 hread, hmutable, rfl, by simp [serve, bindIn, henv, hassign]⟩
  | error failure =>
    refine .inr ⟨failure, fun id binding hread => ?_, by simp [serve, bindIn, henv, hassign]⟩
    refine Bool.eq_false_iff.2 fun hmutable => ?_
    have hok : family.heap.assign env name value = .ok (family.heap.bind id name { binding with value }) :=
      Heap.assign_eq_ok_iff.2 ⟨id, binding, (reads_iff henv).1 hread, hmutable, rfl⟩
    rw [hassign] at hok
    contradiction

section

variable (henv : family.environments[handle]? = some env) (h : family.heap.assign env name value = .ok later)

include henv h

private theorem get_of_readAlike (hother : family.ReadAlike name handle other) :
    get { family with heap := later } other name = some value := by
  obtain ⟨id, binding, hread, env', henv', hread'⟩ := hother
  rw [get, henv', Option.bind_some, Heap.lookup?_of_assign h ((reads_iff henv).1 hread), Heap.reads_iff.1 hread']
  simp

private theorem get_of_not_readAlike {name' : String} (hother : ¬(name' = name ∧ family.ReadAlike name handle other)) :
    get { family with heap := later } other name' = family.get other name' := by
  obtain ⟨id, binding, hread, _⟩ := Heap.assign_eq_ok_iff.1 h
  refine Option.bind_congr fun env' henv' => ?_
  rw [Heap.lookup?_of_assign h hread, Heap.lookup?]
  cases hfound : family.heap.resolveName env'.scopes name' with
  | none => rfl
  | some found =>
    have hapart : ¬(name' = name ∧ found.1 = id) := by
      rintro ⟨rfl, rfl⟩
      have hread' := Heap.reads_iff.2 hfound
      obtain rfl : binding = found.2 := Option.some.inj (hread.find?.symm.trans hread'.find?)
      exact hother ⟨rfl, found.1, found.2, (reads_iff henv).2 hread, env', henv', hread'⟩
    simp [hapart]

end

private theorem assignsWhereRead (henv : family.environments[handle]? = some env) (name : String) (value : Value) :
    family.AssignsWhereRead handle name value := by
  obtain ⟨id, binding, later, hread, hmutable, hassign, hserve⟩ | ⟨failure, hconstant, hserve⟩ :=
    serve_assign henv name value
  · have hok : (family.serve (.assign handle name value)).1 = .ok () := by rw [hserve]
    refine ⟨iff_of_true hok ⟨?_, fun id' binding' hread' => ?_⟩, ?_, ?_, ?_, fun h => absurd hok h⟩
    · exact Option.isSome_iff_exists.2 ⟨_, get_eq_some_iff.2 ⟨id, binding, hread, rfl⟩⟩
    · obtain ⟨rfl, rfl⟩ := ((reads_iff henv).1 hread).unique ((reads_iff henv).1 hread')
      exact hmutable
    all_goals rw [hserve]
    · exact fun _ => get_of_readAlike henv hassign ⟨id, binding, hread, hread⟩
    · exact fun _ other hother => get_of_readAlike henv hassign hother
    · exact fun _ other name' hother => get_of_not_readAlike henv hassign hother
  · have herror : (family.serve (.assign handle name value)).1 ≠ .ok () := by simp [hserve]
    refine ⟨iff_of_false herror ?_, fun h => absurd h herror, fun h => absurd h herror, fun h => absurd h herror, ?_⟩
    · rintro ⟨hsome, hmutable⟩
      obtain ⟨old, hold⟩ := Option.isSome_iff_exists.1 hsome
      obtain ⟨id, binding, hread, _⟩ := get_eq_some_iff.1 hold
      exact Bool.false_ne_true ((hconstant id binding hread).symm.trans (hmutable id binding hread))
    · rw [hserve]
      exact fun _ _ _ => rfl

end Assign

/-! ## Scopes that are entered -/

/-- All scopes that environments see are there. -/
def Scoped (family : Family) : Prop :=
  ∀ env ∈ family.environments, ∀ id ∈ env.scopes, id.index < family.heap.scopes.size

/-- The scope is one of those that the environment sees. -/
def Sees (family : Family) (handle : Nat) (id : ScopeId) : Prop :=
  ∃ env, family.environments[handle]? = some env ∧ id ∈ env.scopes

/-- What a call does to the scopes that environments see: none is lost, and each environment that is there comes to see
no scopes but new ones. -/
structure GoesOn (family later : Family) : Prop where
  size_le : family.heap.scopes.size ≤ later.heap.scopes.size
  stays : family.Scoped → later.Scoped
  seen : ∀ (other : Nat) (env : Environment), family.environments[other]? = some env →
    ∃ env' : Environment, later.environments[other]? = some env' ∧
      ∀ id ∈ env'.scopes, id ∈ env.scopes ∨ family.heap.scopes.size ≤ id.index

namespace GoesOn

variable {later last : Family} {heap : Heap}

private theorem refl (family : Family) : family.GoesOn family :=
  ⟨Nat.le_refl _, id, fun _ env henv => ⟨env, henv, fun _ => .inl⟩⟩

private theorem trans (h : family.GoesOn later) (h' : later.GoesOn last) : family.GoesOn last where
  size_le := Nat.le_trans h.size_le h'.size_le
  stays hs := h'.stays (h.stays hs)
  seen other env henv := by
    obtain ⟨middle, hmiddle, hscopes⟩ := h.seen other env henv
    obtain ⟨env', henv', hscopes'⟩ := h'.seen other middle hmiddle
    refine ⟨env', henv', fun id hid => ?_⟩
    obtain hid | hid := hscopes' id hid
    · exact hscopes id hid
    · exact .inr (Nat.le_trans h.size_le hid)

/-- More environments, which see scopes that are there. -/
private theorem append {more : List Environment} (hle : family.heap.scopes.size ≤ heap.scopes.size)
    (hmore : family.Scoped → ∀ env ∈ more, ∀ id ∈ env.scopes, id.index < heap.scopes.size) :
    family.GoesOn ⟨heap, family.environments ++ more⟩ where
  size_le := hle
  stays hs := by
    refine List.forall_mem_append.2 ⟨fun env henv id hid => ?_, hmore hs⟩
    exact Nat.lt_of_lt_of_le (hs env henv id hid) hle
  seen other env henv := by
    refine ⟨env, ?_, fun _ => .inl⟩
    rw [List.getElem?_append_left (List.getElem?_eq_some_iff.1 henv).1]
    exact henv

/-- One environment is changed. -/
private theorem modify {handle : Nat} {change : Environment → Environment}
    (hle : family.heap.scopes.size ≤ heap.scopes.size)
    (hchange : ∀ env, ∀ id ∈ (change env).scopes,
      id ∈ env.scopes ∨ family.heap.scopes.size ≤ id.index ∧ id.index < heap.scopes.size) :
    family.GoesOn ⟨heap, family.environments.modify handle change⟩ where
  size_le := hle
  stays hs env henv id hid := by
    obtain ⟨place, hplace⟩ := List.mem_iff_getElem?.1 henv
    rw [List.getElem?_modify] at hplace
    obtain ⟨old, hold, rfl⟩ := Option.map_eq_some_iff.1 hplace
    have hmem := List.mem_of_getElem? hold
    split at hid
    · obtain hid | hid := hchange old id hid
      · exact Nat.lt_of_lt_of_le (hs old hmem id hid) hle
      · exact hid.2
    · exact Nat.lt_of_lt_of_le (hs old hmem id hid) hle
  seen other env henv := by
    refine ⟨_, by rw [List.getElem?_modify, henv]; rfl, fun id hid => ?_⟩
    split at hid
    · exact (hchange env id hid).imp_right And.left
    · exact .inl hid

private theorem enter (family : Family) (handle : Nat) {into : Environment → ScopeId → Environment}
    (hinto : ∀ env id, (into env id).scopes = id :: env.scopes) : family.GoesOn (family.enter handle into) := by
  refine modify (by simp) fun env id hid => ?_
  rw [hinto] at hid
  obtain rfl | hid := List.mem_cons.1 hid
  · exact .inr (by simp)
  · exact .inl hid

private theorem bindIn {change : Environment → Except Failure Heap}
    (h : ∀ env later, change env = .ok later → family.heap.Binds env later) :
    family.GoesOn (family.bindIn handle change).2 := by
  unfold Family.bindIn
  split
  · exact refl family
  · next env henv =>
    split
    · next heap hchange =>
      have hsize : family.heap.scopes.size = heap.scopes.size := by
        obtain rfl | ⟨id, _, name, binding, rfl⟩ := h env heap hchange
        · rfl
        · simp [Heap.bind]
      have hmore : family.GoesOn ⟨heap, family.environments ++ []⟩ := append (Nat.le_of_eq hsize) (by simp)
      rwa [List.append_nil] at hmore
    · exact refl family

private theorem serve (family : Family) (call : Call) : family.GoesOn (family.serve call).2 := by
  cases call with
  | withGlobals globals =>
    refine append (by simp) fun _ env henv id hid => ?_
    obtain rfl := List.mem_singleton.1 henv
    obtain rfl := List.mem_singleton.1 hid
    simp
  | copy handle =>
    refine append (Nat.le_refl _) fun hs env henv => hs env ?_
    exact List.mem_of_getElem? (Option.mem_toList.1 henv)
  | push handle => exact enter family handle Environment.scopes_push
  | pushFunction handle => exact enter family handle Environment.scopes_pushFunction
  | pop handle =>
    refine modify (Nat.le_refl _) fun env id hid => .inl ?_
    obtain hid | hid := List.mem_append.1 hid
    · exact List.mem_append_left _ (List.mem_of_mem_tail hid)
    · exact List.mem_append_right _ hid
  | declareVariable handle name value? =>
    exact bindIn fun env later h => Except.ok.inj h ▸ Heap.binds_declareVariable ..
  | declareLexical handle name value mutable => exact bindIn fun env later h => Heap.binds_declareLexical h
  | assign handle name value => exact bindIn fun env later h => Heap.binds_assign h

private theorem serveAll (family : Family) (calls : List Call) : family.GoesOn (family.serveAll calls) := by
  induction calls generalizing family with
  | nil => exact refl family
  | cons call calls ih => exact (serve family call).trans (ih _)

end GoesOn

private theorem scoped_serveAll (calls : List Call) : (empty.serveAll calls).Scoped :=
  (GoesOn.serveAll empty calls).stays (by simp [Scoped, empty])

section Enter

variable {env : Environment} {into : Environment → ScopeId → Environment}

private theorem sees_enter (henv : family.environments[handle]? = some env)
    (hinto : ∀ env id, (into env id).scopes = id :: env.scopes) :
    (family.enter handle into).Sees handle ⟨family.heap.scopes.size⟩ := by
  refine ⟨into env ⟨family.heap.scopes.size⟩, ?_, ?_⟩
  · rw [enter, Heap.newScope]
    simp [henv]
  · rw [hinto]
    exact List.mem_cons_self

/-- The scope was not there before, and calls that follow let the other environments see no scopes but newer ones. -/
theorem not_sees_enter (hs : family.Scoped) (henv : family.environments[other]? = some env) (hne : other ≠ handle)
    (calls : List Call) : ¬((family.enter handle into).serveAll calls).Sees other ⟨family.heap.scopes.size⟩ := by
  rintro ⟨later, hlater, hmem⟩
  have hkept : (family.enter handle into).environments[other]? = some env := by
    rw [enter, Heap.newScope]
    simp [hne.symm, henv]
  have hsize : (family.enter handle into).heap.scopes.size = family.heap.scopes.size + 1 := by
    simp [enter, Heap.newScope]
  obtain ⟨env', henv', hscopes⟩ := (GoesOn.serveAll (family.enter handle into) calls).seen other env hkept
  obtain rfl : env' = later := Option.some.inj (henv'.symm.trans hlater)
  obtain hid | hid := hscopes _ hmem
  · exact Nat.lt_irrefl _ (hs env (List.mem_of_getElem? henv) _ hid)
  · exact Nat.not_succ_le_self _ (hsize ▸ hid)

end Enter

/-- In all families that calls make, assignments hit the bindings that are read through their environments, and the
scopes that one environment enters are never seen through the others that are there. -/
theorem assigns_where_read_and_enters_apart (calls : List Call)
    (h : handle < (empty.serveAll calls).environments.length) :
    (∀ name value, (empty.serveAll calls).AssignsWhereRead handle name value) ∧
      ∀ call ∈ [Call.push handle, .pushFunction handle],
        ((empty.serveAll calls).serve call).2.Sees handle ⟨(empty.serveAll calls).heap.scopes.size⟩ ∧
        ∀ other < (empty.serveAll calls).environments.length, other ≠ handle → ∀ later : List Call,
          ¬(((empty.serveAll calls).serve call).2.serveAll later).Sees other
            ⟨(empty.serveAll calls).heap.scopes.size⟩ := by
  have henv := List.getElem?_eq_getElem h
  have hinto : ∀ call ∈ [Call.push handle, .pushFunction handle], ∃ into : Environment → ScopeId → Environment,
      (∀ env id, (into env id).scopes = id :: env.scopes) ∧
        ((empty.serveAll calls).serve call).2 = (empty.serveAll calls).enter handle into := by
    intro call hcall
    obtain rfl | rfl : call = .push handle ∨ call = .pushFunction handle := by simpa using hcall
    · exact ⟨_, Environment.scopes_push, rfl⟩
    · exact ⟨_, Environment.scopes_pushFunction, rfl⟩
  refine ⟨assignsWhereRead henv, fun call hcall => ?_⟩
  obtain ⟨into, hscopes, hserve⟩ := hinto call hcall
  rw [hserve]
  refine ⟨sees_enter henv hscopes, fun other hother hne later => ?_⟩
  exact not_sees_enter (scoped_serveAll calls) (List.getElem?_eq_getElem hother) hne later

/-- A variable is declared, the environment is copied, and the copy enters a scope of its own: the variable is
assigned to through the copy and read through the first one, which does not see the scope. -/
theorem assigns_where_read_and_enters_apart_copied :
    let calls : List Call := [.withGlobals [("undefined", .undefined)], .pushFunction 0,
      .declareVariable 0 "count" (some .null), .copy 0]
    1 < (empty.serveAll calls).environments.length ∧
      ((empty.serveAll calls).serve (.assign 1 "count" (.boolean true))).1 = .ok () ∧
      ((empty.serveAll calls).serve (.assign 1 "count" (.boolean true))).2.get 0 "count" = some (.boolean true) ∧
      ((empty.serveAll calls).serve (.push 1)).2.Sees 1 ⟨2⟩ ∧
      ¬((empty.serveAll calls).serve (.push 1)).2.Sees 0 ⟨2⟩ := by
  intro calls
  have hlt : 1 < (empty.serveAll calls).environments.length := by decide
  obtain ⟨hassign, hpush⟩ := assigns_where_read_and_enters_apart calls hlt
  have hreads (handle : Nat) (hh : handle = 0 ∨ handle = 1) :
      (empty.serveAll calls).Reads handle "count" ⟨1⟩ ⟨.null, true⟩ := by
    refine ⟨⟨[], ⟨1⟩, [⟨0⟩]⟩, ?_, [], [⟨0⟩], rfl, by simp, by rfl⟩
    obtain rfl | rfl := hh <;> rfl
  have hok : ((empty.serveAll calls).serve (.assign 1 "count" (.boolean true))).1 = .ok () := rfl
  refine ⟨hlt, hok, ?_, ?_, ?_⟩
  · exact (hassign "count" (.boolean true)).shared hok 0 ⟨_, _, hreads 1 (.inr rfl), hreads 0 (.inl rfl)⟩
  · exact (hpush (.push 1) (by simp)).1
  · exact (hpush (.push 1) (by simp)).2 0 (by decide) (by decide) []

end Family
end ScriptModules
