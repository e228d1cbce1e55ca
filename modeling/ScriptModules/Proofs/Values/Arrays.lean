import ScriptModules.Decimal.Word
import ScriptModules.Value.Heap

/-!
# Writing items of arrays

A write succeeds where there is an item, and at indices that are not too large and not too far behind the last item
(`Heap.IsWritable`).  It puts the value there, keeps all other items, and fills the places in between
(`Heap.IsWritten`).  All that it computes on the way are words (`Heap.writtenItems?_eq`).

Steps of a run leave the arrays of the heap as they are (`Heap.KeepsArrays`), or write an item (`Heap.WritesItems`).
-/

namespace ScriptModules.Heap

/-- An array of this size has an item at the index, or can get one there. -/
def IsWritable (size index : Nat) : Prop :=
  index < size ∨ index ≤ lastArrayIndex ∧ index - size ≤ arrayGap

/-- The second items are the first ones with this value written at the index. -/
structure IsWritten (items : Array Value) (index : Nat) (value : Value) (later : Array Value) : Prop where
  size : later.size = max items.size (index + 1)
  item : later[index]? = some value
  others : ∀ i, i < items.size → i ≠ index → later[i]? = items[i]?
  between : ∀ i, items.size ≤ i → i < index → later[i]? = some .undefined

variable {items later last : Array Value} {index : Nat} {value : Value}

/-! ## What a write does -/

private theorem IsWritten.unique (h : IsWritten items index value later) (h' : IsWritten items index value last) :
    later = last := by
  have hsize : later.size = last.size := h.size.trans h'.size.symm
  refine Array.ext_getElem? fun i => ?_
  rcases Nat.lt_trichotomy i index with hlt | rfl | hgt
  · rcases Nat.lt_or_ge i items.size with hi | hi
    · rw [h.others i hi (Nat.ne_of_lt hlt), h'.others i hi (Nat.ne_of_lt hlt)]
    · rw [h.between i hi hlt, h'.between i hi hlt]
  · rw [h.item, h'.item]
  · rcases Nat.lt_or_ge i items.size with hi | hi
    · rw [h.others i hi (Nat.ne_of_gt hgt), h'.others i hi (Nat.ne_of_gt hgt)]
    · have hout : later.size ≤ i := by
        rw [h.size]
        omega
      rw [Array.getElem?_eq_none hout, Array.getElem?_eq_none (hsize ▸ hout)]

private theorem isWritten_set (h : index < items.size) : IsWritten items index value (items.set index value) where
  size := by
    rw [Array.size_set]
    omega
  item := Array.getElem?_set_self h
  others i _ hne := Array.getElem?_set_ne h hne.symm
  between i hi hlt := absurd (Nat.lt_trans hlt h) (Nat.not_lt.2 hi)

/-- Items that are filled up to an index. -/
private theorem size_filled (h : items.size ≤ index) :
    (items ++ Array.replicate (index - items.size) Value.undefined).size = index := by
  rw [Array.size_append, Array.size_replicate]
  omega

private theorem isWritten_push (h : items.size ≤ index) :
    IsWritten items index value ((items ++ Array.replicate (index - items.size) Value.undefined).push value) := by
  have hfilled := size_filled h
  refine ⟨?_, ?_, fun i hi hne => ?_, fun i hi hlt => ?_⟩
  · rw [Array.size_push, hfilled]
    omega
  · rw [Array.getElem?_push, if_pos hfilled.symm]
  · rw [Array.getElem?_push, hfilled, if_neg hne, Array.getElem?_append_left hi]
  · rw [Array.getElem?_push, hfilled, if_neg (Nat.ne_of_lt hlt), Array.getElem?_append_right hi,
      Array.getElem?_replicate, if_pos (by omega)]

private theorem isWritten_of_writtenItems (h : writtenItems items index value = .ok later) :
    IsWritable items.size index ∧ IsWritten items index value later := by
  unfold writtenItems at h
  split at h
  · next hlt =>
    obtain rfl := Except.ok.inj h
    exact ⟨.inl hlt, isWritten_set hlt⟩
  · next hge =>
    split at h
    · contradiction
    · next hlast =>
      split at h
      · contradiction
      · next hgap =>
        obtain rfl := Except.ok.inj h
        exact ⟨.inr ⟨Nat.not_lt.1 hlast, Nat.not_lt.1 hgap⟩, isWritten_push (Nat.not_lt.1 hge)⟩

/-- What can be written at an index is written. -/
theorem exists_writtenItems (h : IsWritable items.size index) (value : Value) :
    ∃ later, writtenItems items index value = .ok later := by
  unfold writtenItems
  split
  · exact ⟨_, rfl⟩
  · next hge =>
    obtain ⟨hlast, hgap⟩ := h.resolve_left hge
    rw [if_neg (Nat.not_lt.2 hlast), if_neg (Nat.not_lt.2 hgap)]
    exact ⟨_, rfl⟩

/-- A write succeeds just where it may, and then it is as it should be. -/
theorem writtenItems_eq_ok_iff :
    writtenItems items index value = .ok later ↔ IsWritable items.size index ∧ IsWritten items index value later := by
  refine ⟨isWritten_of_writtenItems, fun ⟨hw, hwritten⟩ => ?_⟩
  obtain ⟨other, hother⟩ := exists_writtenItems hw value
  rw [hother, (isWritten_of_writtenItems hother).2.unique hwritten]

/-- One write makes an array at most this much longer, and no longer than there are indices. -/
theorem size_le_of_writtenItems (h : writtenItems items index value = .ok later) :
    later.size ≤ items.size + (arrayGap + 1) ∧ later.size ≤ max items.size (lastArrayIndex + 1) := by
  obtain ⟨hwritable, hwritten⟩ := writtenItems_eq_ok_iff.1 h
  rw [hwritten.size]
  rcases hwritable with hlt | ⟨hlast, hgap⟩ <;> omega

/-! ## In words -/

/-- The sum of two words, if it is a word. -/
def sum? (a b : Nat) : Option Nat := if a + b < Decimal.wordCount then some (a + b) else none

/-- The difference of two words, if it is a word. -/
def difference? (a b : Nat) : Option Nat := if b ≤ a then some (a - b) else none

/-- The items with another value at the index, if there is one. -/
def put? (items : Array Value) (index : Nat) (value : Value) : Option (Array Value) :=
  if h : index < items.size then some (items.set index value) else none

/-- The items after a write, made step by step.  There are none if a step has no result. -/
def writtenItems? (items : Array Value) (index : Nat) (value : Value) :
    Option (Except TypeCause (Array Value)) :=
  if index < items.size then (put? items index value).map .ok
  else
    match (sum? index 1).filter fun _ => decide (index ≤ lastArrayIndex) with
    | none => some (.error (.arrayIndexTooLarge index))
    | some size => do
      let gap ← difference? index items.size
      if arrayGap < gap then return .error (.arrayGapTooLarge index items.size)
      let missing ← difference? size items.size
      return .ok (← put? (items ++ Array.replicate missing Value.undefined) index value)

private theorem difference?_of_le {a b : Nat} (h : b ≤ a) : difference? a b = some (a - b) := if_pos h

/-- To fill up to the index itself and then put the value there is to fill up to the index and append the value. -/
private theorem put?_filled (h : items.size ≤ index) :
    put? (items ++ Array.replicate (index + 1 - items.size) Value.undefined) index value =
      some ((items ++ Array.replicate (index - items.size) Value.undefined).push value) := by
  have hfilled := size_filled h
  rw [Nat.succ_sub h, Array.replicate_succ, Array.append_push, put?, dif_pos (by rw [Array.size_push, hfilled]; omega),
    Array.set_push, dif_neg (by rw [hfilled]; omega)]

/-- No step of a write is without a result. -/
theorem writtenItems?_eq : writtenItems? items index value = some (writtenItems items index value) := by
  unfold writtenItems? writtenItems
  by_cases hlt : index < items.size
  · rw [if_pos hlt, dif_pos hlt, put?, dif_pos hlt]
    rfl
  rw [if_neg hlt, dif_neg hlt]
  have hge : items.size ≤ index := Nat.not_lt.1 hlt
  by_cases hlast : lastArrayIndex < index
  · have hnone : (sum? index 1).filter (fun _ => decide (index ≤ lastArrayIndex)) = none := by
      rw [decide_eq_false (Nat.not_le.2 hlast)]
      cases sum? index 1 <;> rfl
    rw [hnone, if_pos hlast]
  · have hle : index ≤ lastArrayIndex := Nat.not_lt.1 hlast
    have hword : index + 1 < Decimal.wordCount :=
      Nat.lt_of_le_of_lt (Nat.succ_le_succ hle) (by decide)
    have hsize : (sum? index 1).filter (fun _ => decide (index ≤ lastArrayIndex)) = some (index + 1) := by
      rw [sum?, if_pos hword, decide_eq_true hle]
      rfl
    rw [hsize, if_neg hlast]
    dsimp only
    rw [difference?_of_le hge, difference?_of_le (show items.size ≤ index + 1 by omega)]
    by_cases hgap : arrayGap < index - items.size
    · rw [if_pos hgap]
      exact if_pos hgap
    · rw [if_neg hgap]
      refine (if_neg hgap).trans ?_
      change (put? (items ++ Array.replicate (index + 1 - items.size) Value.undefined) index value).bind
        (fun later => some (Except.ok later)) = _
      rw [put?_filled hge]
      rfl

/-! ## Arrays of the heap -/

theorem getElem?_push_of_eq_some {α : Type} {xs : Array α} {i : Nat} {a : α} (h : xs[i]? = some a) (b : α) :
    (xs.push b)[i]? = some a := by
  have hlt := (Array.getElem?_eq_some_iff.1 h).1
  rw [Array.getElem?_push, if_neg (Nat.ne_of_lt hlt), h]

/-- All arrays are in the second heap as well, as they were. -/
def KeepsArrays (heap later : Heap) : Prop :=
  ∀ (i : Nat) (items : Array Value), heap.arrays[i]? = some items → later.arrays[i]? = some items

/-- All arrays are in the second heap as well, as they were or after one write. -/
def WritesItems (heap later : Heap) : Prop :=
  ∀ (i : Nat) (items : Array Value), heap.arrays[i]? = some items → ∃ written, later.arrays[i]? = some written ∧
    (written = items ∨ ∃ index value, writtenItems items index value = .ok written)

variable {heap middle after : Heap} {id : ArrayId}

theorem KeepsArrays.of_arrays (h : after.arrays = heap.arrays) : heap.KeepsArrays after := by
  intro i items hi
  rw [h]
  exact hi

theorem KeepsArrays.of_push {items : Array Value} (h : after.arrays = heap.arrays.push items) :
    heap.KeepsArrays after := by
  intro i other hi
  rw [h]
  exact getElem?_push_of_eq_some hi items

theorem KeepsArrays.trans (h : heap.KeepsArrays middle) (h' : middle.KeepsArrays after) : heap.KeepsArrays after :=
  fun i items hi => h' i items (h i items hi)

theorem KeepsArrays.writesItems (h : heap.KeepsArrays after) : heap.WritesItems after :=
  fun i items hi => ⟨items, h i items hi, .inl rfl⟩

theorem items_eq_of_getElem? (h : heap.arrays[id.index]? = some items) : heap.items id = items := by
  rw [Heap.items, h]
  rfl

/-- One write of an array leaves all others as they are. -/
theorem writesItems_setItems (h : writtenItems (heap.items id) index value = .ok later) :
    heap.WritesItems (heap.setItems id later) := by
  intro i items hi
  change ∃ written, (heap.arrays.setIfInBounds id.index later)[i]? = some written ∧ _
  by_cases hid : id.index = i
  · subst hid
    have hlt := (Array.getElem?_eq_some_iff.1 hi).1
    rw [items_eq_of_getElem? hi] at h
    exact ⟨later, Array.getElem?_setIfInBounds_self_of_lt hlt, .inr ⟨index, value, h⟩⟩
  · exact ⟨items, by rw [Array.getElem?_setIfInBounds_ne hid, hi], .inl rfl⟩

end ScriptModules.Heap
