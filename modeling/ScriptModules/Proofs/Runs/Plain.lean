import ScriptModules.Machine.Calls
import ScriptModules.Proofs.Values.Arrays

/-!
# Plain runs

Properties of values, native functions and all else that does not run a script itself: such a run always comes to
an end, and what scripts and modules rest on (`Machine.SameFrame`) is the same after each of its steps.
`Run.Plain` is closed under the ways in which these runs are made of one another.
-/

namespace ScriptModules

/-- The function of the builtin module that writes files is the only native one that changes a site. -/
def Native.writes : Native → Bool
  | .file .write _ => true
  | _ => false

/-- Is the object no function written in a script, no load function, and none that writes files? -/
def Host.isPassive : Host → Bool
  | function .. | require .. => false
  | native _ action => !action.writes
  | _ => true

/-- Is the event a sign to the surroundings only? -/
def Event.isSign : Event → Bool
  | printed .. | warned .. => true
  | _ => false

/-- The second heap has the same scopes, caches and host objects, and all arrays; there may be other data. -/
structure Heap.SameButData (heap later : Heap) : Prop where
  arrays : heap.KeepsArrays later
  elsewhere : later = { heap with arrays := later.arrays, objects := later.objects }

/-- The second heap has the same scopes and caches, all arrays after at most one write, and no other host objects than
passive ones. -/
structure Heap.SameFrame (heap later : Heap) : Prop where
  arrays : heap.WritesItems later
  scopes : later.scopes = heap.scopes
  caches : later.caches = heap.caches
  hosts : later.hosts = heap.hosts ∨ ∃ host : Host, host.isPassive = true ∧ later.hosts = heap.hosts.push host

/-- The second machine differs from the first one in nothing that scripts and modules rest on.  There may be
other data, and one more view or native function. -/
structure Machine.SameFrame (machine later : Machine) : Prop where
  heap : machine.heap.SameFrame later.heap
  elsewhere : later = { machine with heap := later.heap }

namespace Heap

variable {heap later last : Heap}

theorem SameButData.of_arrays (ha : later.arrays = heap.arrays)
    (h : later = { heap with arrays := later.arrays, objects := later.objects }) : heap.SameButData later :=
  ⟨.of_arrays ha, h⟩

private theorem SameButData.refl (heap : Heap) : heap.SameButData heap := .of_arrays rfl rfl

private theorem SameButData.trans (h : heap.SameButData later) (h' : later.SameButData last) : heap.SameButData last :=
  ⟨h.arrays.trans h'.arrays, by rw [h'.elsewhere, h.elsewhere]⟩

/-- Where all data is kept but for new ones, scripts and modules find what they rest on. -/
theorem SameButData.sameFrame (h : heap.SameButData later) : heap.SameFrame later := by
  refine ⟨h.arrays.writesItems, ?_, ?_, .inl ?_⟩ <;> rw [h.elsewhere]

private theorem SameFrame.refl (heap : Heap) : heap.SameFrame heap := (SameButData.refl heap).sameFrame

/-! ## Documents -/

mutual

/-- A document becomes new data. -/
theorem sameButData_ofJson (document : Json) (heap : Heap) : heap.SameButData ((ofJson document).run heap).2 := by
  cases document with
  | array items => exact (sameButData_ofJsonItems items heap).trans ⟨.of_push rfl, rfl⟩
  | object entries => exact (sameButData_ofJsonEntries entries heap).trans (.of_arrays rfl rfl)
  | _ => exact .refl heap

private theorem sameButData_ofJsonItems (items : List Json) (heap : Heap) :
    heap.SameButData ((ofJsonItems items).run heap).2 := by
  cases items with
  | nil => exact .refl heap
  | cons item items =>
    exact (sameButData_ofJson item heap).trans (sameButData_ofJsonItems items ((ofJson item).run heap).2)

private theorem sameButData_ofJsonEntries (entries : List (String × Json)) (heap : Heap) :
    heap.SameButData ((ofJsonEntries entries).run heap).2 := by
  cases entries with
  | nil => exact .refl heap
  | cons entry entries =>
    exact (sameButData_ofJson entry.2 heap).trans
      (sameButData_ofJsonEntries entries ((ofJson entry.2).run heap).2)

end

/-! ## Other data -/

/-- A write to an array leaves all that scripts and modules rest on. -/
theorem sameFrame_writeItem {id : ArrayId} {index : Nat} {value : Value}
    (h : (heap.writeItem id index value).mapError Failure.type = .ok later) : heap.SameFrame later := by
  unfold writeItem at h
  cases hw : writtenItems (heap.items id) index value with
  | error cause =>
    rw [hw] at h
    contradiction
  | ok items =>
    rw [hw] at h
    rw [← Except.ok.inj h]
    exact ⟨writesItems_setItems hw, rfl, rfl, .inl rfl⟩

theorem sameButData_newError (name message : String) (more : List (String × Value)) :
    heap.SameButData (heap.newError name message more).2 := .of_arrays rfl rfl

/-- The value of a failure that is caught is new data. -/
theorem sameButData_caught (failure : Failure) : heap.SameButData (heap.caught failure).2 := by
  cases failure <;> exact .of_arrays rfl rfl

private theorem sameButData_newArray (items : Array Value) : heap.SameButData (heap.newArray items).2 :=
  ⟨.of_push rfl, rfl⟩

private theorem sameButData_newObject (entries : Keyed Value) : heap.SameButData (heap.newObject entries).2 :=
  .of_arrays rfl rfl

end Heap

namespace Run

/-- The runs that do not run a script.  With `writes` they may change sites. -/
inductive Plain (writes : Bool) : {α : Type} → Run α → Prop
  | pure {α : Type} (a : α) : Plain writes (Run.pure a)
  | fail {α : Type} (failure : Failure) : Plain writes (Run.fail failure : Run α)
  | bind {α β : Type} {run : Run α} {next : α → Run β} :
      Plain writes run → (∀ a, Plain writes (next a)) → Plain writes (Run.bind run next)
  | update {α : Type} {f : Machine → α × Machine} :
      (∀ machine, Machine.SameFrame machine (f machine).2) → Plain writes (Run.update f)
  | note {event : Event} : event.isSign = true → Plain writes (Run.note event)
  | changeSite (id : SiteId) (f : Site → Site) : writes = true → Plain writes (Run.changeSite id f)
  | assignExports (cache : CacheId) (id : Path) (exports : Value) :
      Plain writes (Run.assignExports cache id exports)

namespace Plain

variable {α β : Type} {writes : Bool}

theorem widen {run : Run α} (h : Plain writes run) : Plain true run := by
  induction h with
  | pure a => exact .pure a
  | fail failure => exact .fail failure
  | bind _ _ ih ihn => exact .bind ih ihn
  | update h => exact .update h
  | note h => exact .note h
  | changeSite id f _ => exact .changeSite id f rfl
  | assignExports cache id exports => exact .assignExports cache id exports

theorem of_false {run : Run α} (h : Plain false run) : Plain writes run := by
  cases writes with
  | false => exact h
  | true => exact h.widen

/-- A plain run changes nothing but the heap, the sites and what has happened. -/
theorem eq_of_passes {run : Run α} (h : Plain writes run) {machine later : Machine} (hp : run.passes machine later) :
    later = { machine with heap := later.heap, sites := later.sites, events := later.events } := by
  induction h generalizing machine later with
  | pure a =>
    obtain rfl : later = machine := hp
    rfl
  | fail failure =>
    obtain rfl : later = machine := hp
    rfl
  | @bind _ _ run next _ _ ih ihn =>
    rcases hp with hp | ⟨a, middle, hr, hp⟩
    · exact ih hp
    · have hend := run.passes_end machine
      rw [show (run.apply machine).2 = middle by rw [hr]] at hend
      rw [ihn a hp, ih hend]
  | update h =>
    rcases hp with rfl | rfl
    · rfl
    · rw [(h machine).elsewhere]
  | note _ => rcases hp with rfl | rfl <;> rfl
  | changeSite id f _ => rcases hp with rfl | rfl <;> rfl
  | assignExports cache id exports =>
    rcases hp with rfl | rfl
    · rfl
    · dsimp only
      split <;> rfl

/-! ## Steps -/

theorem read (f : Machine → α) : Plain writes (Run.read f) :=
  .update fun _ => ⟨.refl _, rfl⟩

theorem heap : Plain writes Run.heap := .read _

theorem make {f : Heap → α × Heap} (h : ∀ heap, Heap.SameFrame heap (f heap).2) : Plain writes (Run.make f) :=
  .update fun m => ⟨h m.heap, rfl⟩

theorem changeHeap {f : Heap → Heap} (h : ∀ heap, Heap.SameButData heap (f heap)) :
    Plain writes (Run.changeHeap f) :=
  .make fun heap => (h heap).sameFrame

theorem ofExcept (result : Except Failure α) : Plain writes (Run.ofExcept result) := by
  cases result with
  | ok a => exact .pure a
  | error failure => exact .fail failure

/-- A change of the heap that may fail is plain, if it keeps what scripts and modules rest on. -/
theorem tryHeap {f : Heap → Except Failure Heap}
    (h : ∀ heap later, f heap = .ok later → Heap.SameFrame heap later) : Plain writes (Run.tryHeap f) := by
  unfold Run.tryHeap
  refine .bind (.make fun heap => ?_) fun result => .ofExcept result
  cases hf : f heap with
  | ok later => exact h heap later hf
  | error failure => exact .refl heap

theorem failType (cause : TypeCause) : Plain writes (Run.failType cause : Run α) := .fail _

theorem newArray (items : List Value) : Plain writes (Run.newArray items) := by
  unfold Run.newArray
  exact .bind (.make fun _ => (Heap.sameButData_newArray _).sameFrame) fun _ => .pure _

theorem makeObject (entries : Keyed Value) : Plain writes (Run.make fun heap => heap.newObject entries) :=
  .make fun _ => (Heap.sameButData_newObject entries).sameFrame

theorem newObject (entries : List (String × Value)) : Plain writes (Run.newObject entries) := by
  unfold Run.newObject
  exact .bind (.makeObject _) fun _ => .pure _

/-- A new host object that is passive runs nothing. -/
theorem newHost {host : Host} (h : host.isPassive = true) : Plain writes (Run.newHost host) := by
  unfold Run.newHost
  exact .bind (.make fun _ => ⟨(Heap.KeepsArrays.of_arrays rfl).writesItems, rfl, rfl, .inr ⟨host, h, rfl⟩⟩) fun _ =>
    .pure _

/-! ## Lists -/

theorem mapM {f : α → Run β} (h : ∀ a, Plain writes (f a)) (items : List α) : Plain writes (items.mapM f) := by
  suffices hl : ∀ done, Plain writes (List.mapM.loop f items done) from hl []
  induction items with
  | nil => exact fun done => .pure _
  | cons item items ih => exact fun done => .bind (h item) fun b => ih (b :: done)

theorem forM {f : α → Run PUnit} (h : ∀ a, Plain writes (f a)) (items : List α) :
    Plain writes (items.forM f) := by
  induction items with
  | nil => exact .pure _
  | cons item items ih => exact .bind (h item) fun _ => ih

end Plain
end Run
end ScriptModules
