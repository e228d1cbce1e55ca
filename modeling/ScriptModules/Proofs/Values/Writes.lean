import ScriptModules.Proofs.Runs.Changes
import ScriptModules.Proofs.Values.Keys

/-!
# Bounds of arrays

Setting an item of an array either does just that or changes nothing (`Machine.SetsItem`).  No run does anything else
to an array that there is (`Machine.WritesOnce`), so that arrays do not get longer than there are indices
(`Machine.BoundsArrays`).
-/

namespace ScriptModules

/-- What setting this item of an array does. -/
structure Machine.SetsItem (machine : Machine) (id : ArrayId) (index : Nat) (value : Value) : Prop where
  /-- A script sets it by the keys that stand for the index. -/
  keys : ∀ key, Decimal.word? key = some index →
    Run.setProperty (.array id) key value machine = Run.setItem id index value machine
  /-- All that is computed on the way are words. -/
  words : Heap.writtenItems? (machine.heap.items id) index value =
    some (Heap.writtenItems (machine.heap.items id) index value)
  /-- Where it may, it writes the item, and changes nothing else. -/
  writes : Heap.IsWritable (machine.heap.items id).size index → ∃ later,
    Run.setItem id index value machine = (.ok (), later) ∧
    Heap.IsWritten (machine.heap.items id) index value (later.heap.items id) ∧
    later = { machine with heap := machine.heap.setItems id (later.heap.items id) }
  /-- Elsewhere it fails, and changes nothing. -/
  refuses : ¬Heap.IsWritable (machine.heap.items id).size index → ∃ cause,
    Run.setItem id index value machine = (.failed (.type cause), machine)

/-- At the second machine an array of the first one is as it was, or one item of it was written. -/
structure Machine.WritesOnce (machine later : Machine) (id : ArrayId) : Prop where
  stays : id.index < later.heap.arrays.size
  items : later.heap.items id = machine.heap.items id ∨ ∃ index value,
    Heap.IsWritable (machine.heap.items id).size index ∧
      Heap.IsWritten (machine.heap.items id) index value (later.heap.items id)
  grows : (later.heap.items id).size ≤ (machine.heap.items id).size + 65537

/-- By these changes an array of this machine gets no longer than there are indices. -/
def Machine.BoundsArrays (moves : Machine → Machine → Prop) (machine : Machine) : Prop :=
  ∀ (id : ArrayId) (later : Machine), id.index < machine.heap.arrays.size →
    (machine.heap.items id).size ≤ 4294967295 → Machine.Reaches moves machine later →
    (later.heap.items id).size ≤ 4294967295

namespace Heap

variable {heap later : Heap} {id : ArrayId}

private theorem getElem?_items (h : id.index < heap.arrays.size) : heap.arrays[id.index]? = some (heap.items id) := by
  rw [Heap.items, Array.getElem?_eq_getElem h]
  rfl

private theorem items_setItems (h : id.index < heap.arrays.size) (items : Array Value) :
    (heap.setItems id items).items id = items :=
  items_eq_of_getElem? (Array.getElem?_setIfInBounds_self_of_lt h)

private theorem WritesItems.admits : Heap.Admits WritesItems where
  sameFrame h := h.arrays
  sameData h _ := (KeepsArrays.of_arrays h).writesItems
  newHost _ _ := (KeepsArrays.of_arrays rfl).writesItems

end Heap

namespace Machine

variable {machine later : Machine} {id : ArrayId}

private theorem setsItem (h : id.index < machine.heap.arrays.size) (index : Nat) (value : Value) :
    machine.SetsItem id index value where
  keys key hk := (Run.standsFor_of_word? hk).write machine id value
  words := Heap.writtenItems?_eq
  writes hw := by
    obtain ⟨items, hitems⟩ := Heap.exists_writtenItems hw value
    have hset : (machine.heap.writeItem id index value).mapError Failure.type =
        .ok (machine.heap.setItems id items) := by
      rw [Heap.writeItem, hitems]
      rfl
    have hread := Heap.items_setItems h items
    refine ⟨_, Run.tryHeap_ok hset, ?_, ?_⟩
    · rw [hread]
      exact (Heap.writtenItems_eq_ok_iff.1 hitems).2
    · rw [hread]
  refuses hw := by
    cases hitems : Heap.writtenItems (machine.heap.items id) index value with
    | ok items => exact absurd (Heap.writtenItems_eq_ok_iff.1 hitems).1 hw
    | error cause =>
      have hset : (machine.heap.writeItem id index value).mapError Failure.type = .error (.type cause) := by
        rw [Heap.writeItem, hitems]
        rfl
      exact ⟨cause, Run.tryHeap_error hset⟩

private theorem WritesOnce.of_writesItems (h : machine.heap.WritesItems later.heap)
    (hid : id.index < machine.heap.arrays.size) : machine.WritesOnce later id := by
  obtain ⟨written, hw, hitems⟩ := h id.index _ (Heap.getElem?_items hid)
  have hlt := (Array.getElem?_eq_some_iff.1 hw).1
  obtain rfl := Heap.items_eq_of_getElem? hw
  refine ⟨hlt, hitems.imp_right fun ⟨index, value, h⟩ => ⟨index, value, Heap.writtenItems_eq_ok_iff.1 h⟩, ?_⟩
  rcases hitems with hitems | ⟨index, value, hitems⟩
  · rw [hitems]
    omega
  · exact (Heap.size_le_of_writtenItems hitems).1

/-- A write makes an array no longer than there are indices. -/
theorem WritesOnce.size_le (h : machine.WritesOnce later id) (hs : (machine.heap.items id).size ≤ 4294967295) :
    (later.heap.items id).size ≤ 4294967295 := by
  rcases h.items with hitems | ⟨index, value, hwritable, hwritten⟩
  · rwa [hitems]
  · rw [hwritten.size]
    rcases hwritable with hlt | ⟨hlast, _⟩
    · omega
    · unfold Heap.lastArrayIndex at hlast
      omega

private theorem boundsArrays {moves : Machine → Machine → Prop}
    (hm : ∀ before after, moves before after → ∀ id : ArrayId, id.index < before.heap.arrays.size →
      before.WritesOnce after id) (machine : Machine) : machine.BoundsArrays moves := by
  intro id later hid hsize hr
  suffices h : id.index < later.heap.arrays.size ∧ (later.heap.items id).size ≤ 4294967295 from h.2
  induction hr with
  | refl => exact ⟨hid, hsize⟩
  | step _ hmove ih =>
    have hwrites := hm _ _ hmove id ih.1
    exact ⟨hwrites.stays, hwrites.size_le ih.2⟩

end Machine

namespace Run

/-- To set an item of an array is to write it, or to fail and change nothing, and is the only way in which an array is
changed while requests are served.  Every change makes it longer by at most one item and the largest gap, and never
longer than there are indices. -/
theorem boundsArrays_of_serveAll (fuel : Nat) (requests : List Request) (machine : Machine) :
    (∀ (given : Machine) (id : ArrayId), id.index < given.heap.arrays.size → ∀ index value,
      given.SetsItem id index value) ∧
    (∀ before after, (serveAll fuel requests).moves machine before after →
      ∀ id : ArrayId, id.index < before.heap.arrays.size → before.WritesOnce after id) ∧
    ∀ given : Machine, given.BoundsArrays ((serveAll fuel requests).moves machine) := by
  have hmoves : ∀ before after, (serveAll fuel requests).moves machine before after →
      ∀ id : ArrayId, id.index < before.heap.arrays.size → before.WritesOnce after id := by
    intro before after hmove id hid
    exact .of_writesItems (Changes.serveAll Heap.WritesItems.admits fuel requests _ _ _ hmove) hid
  exact ⟨fun _ _ hid index value => Machine.setsItem hid index value, hmoves, Machine.boundsArrays hmoves⟩

/-- A program that sets the item at `3` of an array with one item. -/
theorem boundsArrays_of_set :
    ∃ later, serveAll 10 [.program [.expression (.assign (.index (.identifier "a") (.string "3")) .null)]
        [("a", .array ⟨0⟩)]] (.ofArray #[.null]) = (.ok (), later) ∧
      later.heap.items ⟨0⟩ = #[.null, .undefined, .undefined, .null] ∧
      (later.heap.items ⟨0⟩).size ≤ 4294967295 ∧ later.SetsItem ⟨0⟩ 65540 .null := by
  let requests : List Request := [.program [.expression (.assign (.index (.identifier "a") (.string "3")) .null)]
    [("a", .array ⟨0⟩)]]
  have hrun : (serveAll 10 requests (.ofArray #[.null])).1 = .ok () ∧
      (serveAll 10 requests (.ofArray #[.null])).2.heap.items ⟨0⟩ = #[.null, .undefined, .undefined, .null] ∧
      0 < (serveAll 10 requests (.ofArray #[.null])).2.heap.arrays.size := by
    decide +kernel
  obtain ⟨hsets, _, hbounds⟩ := boundsArrays_of_serveAll 10 requests (.ofArray #[.null])
  have hreaches := (serveAll 10 requests).passes_moves (.ofArray #[.null]) _ (passes_end _ _)
  refine ⟨_, Prod.ext hrun.1 rfl, hrun.2.1, ?_, hsets _ ⟨0⟩ hrun.2.2 65540 .null⟩
  exact hbounds (.ofArray #[.null]) ⟨0⟩ _ (by decide) (by decide) hreaches

end Run
end ScriptModules
