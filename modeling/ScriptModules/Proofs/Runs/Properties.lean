import ScriptModules.Machine.Calls
import ScriptModules.Proofs.Runs.Outcome

/-!
# Properties and calls of host objects

A host object is what it was made as (`Heap.host_newHost`), and that decides what its properties are and what a call of
it does.  The properties of a load function are other host objects; the views of modules and of caches look into the
cache each time.
-/

namespace ScriptModules

/-- A host object is what it was made as. -/
theorem Heap.host_newHost (heap : Heap) (host : Host) : (heap.newHost host).2.host (heap.newHost host).1 = host := by
  simp [Heap.host, Heap.newHost]

variable {machine : Machine} {host : HostId} {loaderId : LoaderId} {dir : Path} {parent : Option Path} {cache : CacheId}
  {id : Path}

namespace Run

/-- A new host object is added to the heap, and a reference to it is the result. -/
theorem newHost_eq (host : Host) (machine : Machine) :
    newHost host machine = (.ok (.host (machine.heap.newHost host).1),
      { machine with heap := (machine.heap.newHost host).2 }) := rfl

/-! ## Load functions -/

section

variable (h : machine.heap.host host = .require loaderId dir parent)

include h

/-- The function `resolve` of a load function is made anew each time it is asked for. -/
theorem hostProperty_resolve :
    hostProperty host "resolve" machine = newHost (.native "resolve" (.resolve loaderId dir)) machine := by
  rw [hostProperty, heap_bind, h]
  rfl

theorem hostProperty_cache :
    hostProperty host "cache" machine = newHost (.cacheView (machine.loader loaderId).cache) machine := by
  rw [hostProperty, heap_bind, h]
  exact read_bind _ _ _

theorem hostProperty_main : hostProperty host "main" machine = mainView loaderId machine := by
  rw [hostProperty, heap_bind, h]
  rfl

end

/-- Once there is an entry module, the load functions of a loader show it. -/
theorem mainView_of_main (h : (machine.loader loaderId).main = some id) :
    mainView loaderId machine = newHost (.module (machine.loader loaderId).cache id) machine := by
  refine (read_bind _ _ _).trans ?_
  rw [h]

/-! ## Views -/

/-- The view of the cache shows a view of each module that is in the cache. -/
theorem hostProperty_cacheView (h : machine.heap.host host = .cacheView cache)
    (hc : (machine.heap.cache cache).contains id = true) :
    hostProperty host id.text machine = newHost (.module cache id) machine := by
  rw [hostProperty, heap_bind, h]
  refine (heap_bind _ _).trans ?_
  rw [if_pos hc]

section

variable (h : machine.heap.host host = .module cache id)

include h

/-- The view of a module shows what it exports. -/
theorem hostProperty_exports {record : Record} (hr : (machine.heap.cache cache).find? id = some record) :
    hostProperty host "exports" machine = (.ok record.exports, machine) := by
  rw [hostProperty, heap_bind, h]
  refine (heap_bind _ _).trans ?_
  dsimp only
  rw [hr]
  rfl

/-- The view of a module that is not in the cache shows nothing. -/
theorem hostProperty_of_find?_eq_none (hr : (machine.heap.cache cache).find? id = none) (key : String) :
    hostProperty host key machine = (.ok .undefined, machine) := by
  rw [hostProperty, heap_bind, h]
  refine (heap_bind _ _).trans ?_
  dsimp only
  rw [hr]
  rfl

/-- What is assigned to the exports of a module view is kept in the record, which has to be there. -/
theorem setHostProperty_exports (exports : Value) : setHostProperty host "exports" exports machine =
    Run.bind (assignExports cache id exports) (fun cached =>
      if cached then Run.pure () else failType (.notCached id)) machine := by
  rw [setHostProperty, heap_bind, h]
  rfl

end
end Run

/-! ## Calls -/

namespace Steps

open Run

variable (next : Steps)

theorem callHost_native {label : String} {action : Native} (h : machine.heap.host host = .native label action)
    (args : List Value) : next.callHost host args machine = native action args machine := by
  rw [callHost, heap_bind, h]

/-- A call of a load function notes whether the request was refused. -/
theorem callHost_require (h : machine.heap.host host = .require loaderId dir parent) (specifier : String)
    (rest : List Value) : next.callHost host (.string specifier :: rest) machine =
      onFailure (next.require loaderId specifier dir parent) (fun failure => note (.refused failure)) machine := by
  rw [callHost, heap_bind, h]
  exact congrArg (fun run => onFailure run _ machine) (Run.pure_bind specifier)

end Steps
end ScriptModules
