import ScriptModules.Proofs.Scopes.Ownership

/-!
# What happens to constants

Every change of the scopes is a new scope, a declaration or an assignment (`Machine.Rebinds`).  Assignments and
declarations of the innermost scope leave constants alone.  The declaration of a variable does not look for constants:
in the scope of the function it gives one another value (`Machine.Redeclares`), and so does nothing else
(`Machine.Rebinds.constant_iff`).  Scopes of blocks are not reached by it (`Machine.Rebinds.constant_of_isBlock`).
-/

namespace ScriptModules

/-- The scope binds the name to the value as a constant. -/
def Heap.HoldsConstant (heap : Heap) (id : ScopeId) (name : String) (value : Value) : Prop :=
  (heap.scope id).find? name = some ⟨value, false⟩

/-- The environment tells blocks and functions apart as `isBlock` does, and their scopes are there. -/
structure Heap.Sorts (heap : Heap) (isBlock : ScopeId → Bool) (env : Environment) : Prop where
  blocks : ∀ id ∈ env.blocks, id.index < heap.scopes.size ∧ isBlock id = true
  function : env.function.index < heap.scopes.size ∧ isBlock env.function = false

theorem Heap.Sorts.innermost_lt {heap : Heap} {isBlock : ScopeId → Bool} {env : Environment}
    (h : heap.Sorts isBlock env) : env.innermost.index < heap.scopes.size := by
  obtain ⟨_ | ⟨id, blocks⟩, function, outer⟩ := env
  · exact h.function.1
  · exact (h.blocks id List.mem_cons_self).1

/-- Code is run, in scopes that are told apart. -/
structure Machine.InCode (machine : Machine) (isBlock : ScopeId → Bool) : Prop where
  outer : machine.environment.outer ≠ []
  sorts : machine.heap.Sorts isBlock machine.environment

/-- What one change does to the scopes. -/
inductive Machine.Rebinds (isBlock : ScopeId → Bool) (before after : Machine) : Prop
  | same : after.heap.scopes = before.heap.scopes → Rebinds isBlock before after
  | newScope (scope : Scope) : after.heap.scopes = before.heap.scopes.push scope → Rebinds isBlock before after
  | declared (name : String) (value? : Option Value) : before.InCode isBlock →
      after = { before with heap := before.heap.declareVariable before.environment name value? } →
      Rebinds isBlock before after
  | lexical (name : String) (value : Value) (mutable : Bool) : before.InCode isBlock →
      before.heap.declareLexical before.environment name value mutable = .ok after.heap → Rebinds isBlock before after
  | assigned (name : String) (value : Value) :
      before.heap.assign before.environment name value = .ok after.heap → Rebinds isBlock before after

/-- The change is the declaration of a variable that gives the constant another value. -/
def Machine.Redeclares (before after : Machine) (id : ScopeId) (name : String) (value : Value) : Prop :=
  before.environment.function = id ∧ ∃ other, other ≠ value ∧
    after = { before with heap := before.heap.declareVariable before.environment name (some other) }

/-! ## Scopes and their bindings -/

private theorem lookup_filter {name other : String} (h : other ≠ name) (bindings : List (String × Binding)) :
    (bindings.filter fun b => b.1 ≠ name).lookup other = bindings.lookup other := by
  induction bindings with
  | nil => rfl
  | cons b bindings ih =>
    obtain ⟨key, value⟩ := b
    by_cases hkey : key = name
    · have hne : (other == key) = false := beq_eq_false_iff_ne.2 (hkey ▸ h)
      rw [List.filter_cons_of_neg (by simpa using hkey), ih, List.lookup_cons, hne]
    · rw [List.filter_cons_of_pos (by simpa using hkey), List.lookup_cons, List.lookup_cons, ih]

theorem Scope.find?_bind (scope : Scope) (name : String) (binding : Binding) (other : String) :
    (scope.bind name binding).find? other = if other = name then some binding else scope.find? other := by
  unfold Scope.find? Scope.bind
  rw [List.lookup_cons]
  by_cases h : other = name
  · rw [if_pos h, beq_iff_eq.2 h]
  · rw [if_neg h, beq_eq_false_iff_ne.2 h]
    exact lookup_filter h scope.bindings

namespace Heap

variable {heap later : Heap} {id : ScopeId} {name : String} {value : Value} {binding : Binding}

/-- A new binding concerns its scope only. -/
theorem scope_bind (heap : Heap) (id : ScopeId) (name : String) (binding : Binding) (other : ScopeId)
    (h : id.index < heap.scopes.size) :
    (heap.bind id name binding).scope other = if id = other then (heap.scope id).bind name binding
      else heap.scope other := by
  unfold Heap.scope
  rw [scopes_bind]
  by_cases hid : id = other
  · subst hid
    rw [if_pos rfl, if_pos rfl, Array.getElem?_eq_getElem h]
    rfl
  · have hindex : id.index ≠ other.index := fun heq => hid (by cases id; cases other; simpa using heq)
    rw [if_neg hindex, if_neg hid]

/-- Only scopes that are there bind anything. -/
theorem lt_of_find? (h : (heap.scope id).find? name = some binding) : id.index < heap.scopes.size := by
  cases hs : heap.scopes[id.index]? with
  | none =>
    rw [Heap.scope, hs] at h
    contradiction
  | some scope => exact (Array.getElem?_eq_some_iff.1 hs).1

private theorem find?_of_resolveName {scopes : List ScopeId} (h : heap.resolveName scopes name = some (id, binding)) :
    (heap.scope id).find? name = some binding := by
  obtain ⟨other, _, hb⟩ := List.exists_of_findSome?_eq_some h
  obtain ⟨found, hfound, he⟩ := Option.map_eq_some_iff.1 hb
  obtain ⟨rfl, rfl⟩ := Prod.mk.inj he
  exact hfound

private theorem HoldsConstant.lt (h : heap.HoldsConstant id name value) : id.index < heap.scopes.size := lt_of_find? h

private theorem HoldsConstant.of_scopes (h : heap.HoldsConstant id name value) (hs : later.scopes = heap.scopes) :
    later.HoldsConstant id name value := by
  unfold HoldsConstant scope at *
  rwa [hs]

private theorem HoldsConstant.newScope (h : heap.HoldsConstant id name value) {scope : Scope}
    (hs : later.scopes = heap.scopes.push scope) : later.HoldsConstant id name value := by
  have hlt := h.lt
  unfold HoldsConstant Heap.scope at *
  rwa [hs, Array.getElem?_push, if_neg (Nat.ne_of_lt hlt)]

/-- What is bound is held, if the scope is there. -/
theorem holdsConstant_bind (h : id.index < heap.scopes.size) :
    (heap.bind id name ⟨value, false⟩).HoldsConstant id name value := by
  unfold HoldsConstant
  rw [scope_bind _ _ _ _ _ h, if_pos rfl, Scope.find?_bind, if_pos rfl]

/-- The declaration of a variable does not ask whether there is a constant. -/
theorem holdsConstant_declareVariable {env : Environment} (h : heap.HoldsConstant env.function name value)
    (other : Value) : (heap.declareVariable env name (some other)).HoldsConstant env.function name other := by
  have hbound : heap.declareVariable env name (some other) = heap.bind env.function name ⟨other, false⟩ := by
    unfold declareVariable
    rw [h]
  rw [hbound]
  exact holdsConstant_bind (lt_of_find? h)

/-- Another binding is bound. -/
theorem HoldsConstant.bind (h : heap.HoldsConstant id name value) {id' : ScopeId} {name' : String}
    (hlt : id'.index < heap.scopes.size)
    (hb : id' = id → name' = name → binding = ⟨value, false⟩) :
    (heap.bind id' name' binding).HoldsConstant id name value := by
  unfold HoldsConstant
  rw [scope_bind _ _ _ _ _ hlt]
  split
  · next hid =>
    subst hid
    rw [Scope.find?_bind]
    split
    · next hname => rw [hb rfl hname.symm]
    · exact h
  · exact h

end Heap

/-! ## Changes -/

namespace Machine

variable {isBlock : ScopeId → Bool} {before after : Machine} {id : ScopeId} {name : String} {value : Value}

/-- What declares a variable with this value, if it is one, leaves of a constant. -/
private theorem stays_declareVariable {heap : Heap} {env : Environment} (h : heap.HoldsConstant id name value)
    (henv : env.function.index < heap.scopes.size) {name' : String} {value? : Option Value}
    (hvalue : env.function = id → name' = name → ∀ other ∈ value?, other = value) :
    (heap.declareVariable env name' value?).HoldsConstant id name value := by
  unfold Heap.declareVariable
  split
  · next binding other hfind =>
    refine h.bind henv fun hid hname => ?_
    rw [hid, hname, h] at hfind
    rw [hvalue hid hname other rfl, ← Option.some.inj hfind]
  · exact h
  · next hfind =>
    refine h.bind henv fun hid hname => ?_
    rw [hid, hname, h] at hfind
    contradiction

private theorem Redeclares.not_holdsConstant (h : before.Redeclares after id name value)
    (hc : before.heap.HoldsConstant id name value) : ¬after.heap.HoldsConstant id name value := by
  obtain ⟨rfl, other, hne, rfl⟩ := h
  intro ha
  have hother := Heap.holdsConstant_declareVariable hc other
  exact hne (Binding.mk.inj (Option.some.inj (hother.symm.trans ha))).1

/-- Declarations of the innermost scope fail where the name is bound. -/
private theorem stays_declareLexical {heap later : Heap} {env : Environment}
    (h : heap.HoldsConstant id name value) (henv : env.innermost.index < heap.scopes.size) (hglobal : env.outer ≠ [])
    {name' : String} {value' : Value} {mutable : Bool}
    (hd : heap.declareLexical env name' value' mutable = .ok later) : later.HoldsConstant id name value := by
  unfold Heap.declareLexical at hd
  split at hd
  · contradiction
  · next hnew =>
    rw [← Except.ok.inj hd]
    refine h.bind henv fun hid hname => absurd ?_ hnew
    rw [hid, hname, h]
    simp [Environment.isGlobal, hglobal]

/-- Assignments fail where the name is bound to a constant. -/
private theorem stays_assign {heap later : Heap} {env : Environment} (h : heap.HoldsConstant id name value)
    {name' : String} {value' : Value} (hd : heap.assign env name' value' = .ok later) :
    later.HoldsConstant id name value := by
  unfold Heap.assign at hd
  split at hd
  · contradiction
  · next id' binding hresolve =>
    split at hd
    · next hmutable =>
      have hfind : (heap.scope id').find? name' = some binding := Heap.find?_of_resolveName hresolve
      rw [← Except.ok.inj hd]
      refine h.bind (Heap.lt_of_find? hfind) fun hid hname => ?_
      rw [hid, hname, h] at hfind
      rw [← Option.some.inj hfind] at hmutable
      contradiction
    · contradiction

private theorem Rebinds.holdsConstant (h : before.Rebinds isBlock after) (hc : before.heap.HoldsConstant id name value)
    (hr : isBlock id = true ∨ ¬before.Redeclares after id name value) : after.heap.HoldsConstant id name value := by
  cases h with
  | same h => exact hc.of_scopes h
  | newScope scope h => exact hc.newScope h
  | declared name' value? hcode h =>
    subst h
    refine stays_declareVariable hc hcode.sorts.function.1 fun hid hname other hother => ?_
    obtain hblock | hnot := hr
    · rw [← hid, hcode.sorts.function.2] at hblock
      contradiction
    · refine Classical.byContradiction fun hne => hnot ⟨hid, other, hne, ?_⟩
      rw [hname, show value? = some other from hother]
  | lexical name' value' mutable hcode h =>
    exact stays_declareLexical hc hcode.sorts.innermost_lt hcode.outer h
  | assigned name' value' h => exact stays_assign hc h

/-- A constant stays what it is but for the declaration of a variable that gives it another value. -/
theorem Rebinds.constant_iff (h : before.Rebinds isBlock after) (hc : before.heap.HoldsConstant id name value) :
    after.heap.HoldsConstant id name value ↔ ¬before.Redeclares after id name value :=
  ⟨fun ha hr => hr.not_holdsConstant hc ha, fun hr => h.holdsConstant hc (.inr hr)⟩

/-- What is bound in the scope of a block stays what it is. -/
theorem Rebinds.constant_of_isBlock (h : before.Rebinds isBlock after) (hc : before.heap.HoldsConstant id name value)
    (hb : isBlock id = true) : after.heap.HoldsConstant id name value :=
  h.holdsConstant hc (.inl hb)

end Machine
end ScriptModules
