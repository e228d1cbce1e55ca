import Mathlib.Logic.Relation
import ScriptModules.Proofs.Values.Unfolding

/-!
# Plain data

Values that are data and nothing else: null, booleans, finite numbers, texts, and arrays and objects of them.  Parts
may be shared, but no place stands inside of itself (`Heap.IsData`).  Then what is below a value is a finite tree
(`Heap.isTree_iff`), on which one may induct.
-/

namespace ScriptModules.Heap

open Relation (ReflTransGen TransGen)

/-- The second value stands in the place that the first one refers to. -/
inductive HasItem (heap : Heap) : Value → Value → Prop
  | item {id : ArrayId} {item : Value} : item ∈ (heap.items id).toList → HasItem heap (.array id) item
  | entry {id : ObjectId} {entry : String × Value} : entry ∈ heap.entries id → HasItem heap (.object id) entry.2

/-- Is the value data, whatever it refers to?  The keys of an object are in order. -/
def IsPlain (heap : Heap) : Value → Prop
  | .null | .boolean _ | .string _ | .array _ => True
  | .number x => x.isFinite = true
  | .object id => (heap.entries id).Rising
  | .undefined | .host _ => False

/-- The value and all that it refers to are data, and no place stands inside of itself. -/
structure IsData (heap : Heap) (value : Value) : Prop where
  plain : ∀ other, ReflTransGen heap.HasItem value other → heap.IsPlain other
  acyclic : ∀ other, ReflTransGen heap.HasItem value other → ¬TransGen heap.HasItem other other

/-- What is below the value is a finite tree of data, if what is shared counts as often as it is met. -/
inductive IsTree (heap : Heap) : Value → Prop
  | node {value : Value} : heap.IsPlain value → (∀ item, heap.HasItem value item → IsTree heap item) → IsTree heap value

variable {heap : Heap} {value item : Value}

private theorem HasItem.mem_places (h : heap.HasItem value item) : value ∈ heap.places := by
  cases h with
  | item hitem => exact array_mem_places hitem
  | entry hentry => exact object_mem_places hentry

private theorem IsTree.of_hasItem (h : heap.IsTree value) (hitem : heap.HasItem value item) : heap.IsTree item := by
  obtain ⟨-, hitems⟩ := h
  exact hitems item hitem

/-- On the way around a place that stands inside of itself, there is one of its items that does. -/
theorem IsTree.acyclic (h : heap.IsTree value) : ¬TransGen heap.HasItem value value := by
  induction h with
  | node _ _ ih =>
    intro hcycle
    obtain ⟨item, hitem, hback⟩ := (Relation.TransGen.head'_iff).1 hcycle
    exact ih item hitem (Relation.TransGen.tail' hback hitem)

/-- A finite tree of data has no place inside of itself. -/
theorem IsTree.isData (h : heap.IsTree value) : heap.IsData value := by
  have hbelow {other : Value} (hother : ReflTransGen heap.HasItem value other) : heap.IsTree other := by
    induction hother with
    | refl => exact h
    | tail _ hitem ih => exact ih.of_hasItem hitem
  refine ⟨fun other hother => ?_, fun other hother => (hbelow hother).acyclic⟩
  obtain ⟨hplain, -⟩ := hbelow hother
  exact hplain

private theorem IsData.of_hasItem (h : heap.IsData value) (hitem : heap.HasItem value item) : heap.IsData item :=
  ⟨fun other hother => h.plain other (.head hitem hother), fun other hother => h.acyclic other (.head hitem hother)⟩

/-- A path that leads to a value does not meet it, so that there are places left below. -/
private theorem isTree_of_path (path : List Value) {value : Value} (h : heap.IsData value)
    (hpath : ∀ place ∈ path, TransGen heap.HasItem place value) : heap.IsTree value := by
  refine .node (h.plain value .refl) fun item hitem => ?_
  have hnotMem : value ∉ path := fun hmem => h.acyclic value .refl (hpath value hmem)
  have hlt := offPath_cons_lt hitem.mem_places hnotMem
  refine isTree_of_path (value :: path) (h.of_hasItem hitem) fun place hplace => ?_
  obtain rfl | hplace := List.mem_cons.1 hplace
  · exact .single hitem
  · exact (hpath place hplace).tail hitem
termination_by offPath heap.places path

/-- To be data is to be a finite tree of data. -/
theorem isTree_iff : heap.IsTree value ↔ heap.IsData value :=
  ⟨IsTree.isData, fun h => isTree_of_path [] h (by simp)⟩

end ScriptModules.Heap
