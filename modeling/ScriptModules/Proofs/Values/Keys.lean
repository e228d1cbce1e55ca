import ScriptModules.Machine.Property
import ScriptModules.Proofs.Decimal.Words

/-!
# Keys of items and units

Items of arrays and units of texts are properties.  A key stands for the index that it is a numeral of
(`Run.standsFor_iff_writes`), and other keys stand for none.  An index has more than one numeral
(`Run.not_all_canonical`), but only one without a plus and without zeros before it.
-/

namespace ScriptModules

/-- A machine with just this array. -/
def Machine.ofArray (items : Array Value) : Machine :=
  { Machine.empty with heap := { Heap.empty with arrays := #[items] } }

namespace Run

/-- The key stands for this index: by it one reads what an array or a text has there, whatever that is, and writes what
an array has there. -/
structure StandsFor (key : String) (i : Nat) : Prop where
  item : ∀ (machine : Machine) (id : ArrayId),
    property (.array id) key machine = (.ok ((machine.heap.items id)[i]?.getD .undefined), machine)
  unit : ∀ (machine : Machine) (text : String), property (.string text) key machine =
    (.ok (((Text.unitAt? text.toList i).map fun unit => .string unit.toString).getD .undefined), machine)
  write : ∀ (machine : Machine) (id : ArrayId) (value : Value),
    setProperty (.array id) key value machine = setItem id i value machine

/-- The key stands for no index: by it one reads nothing, unless it asks for a length, and can write nothing. -/
structure StandsForNone (key : String) : Prop where
  item : key ≠ "length" → ∀ (machine : Machine) (id : ArrayId),
    property (.array id) key machine = (.ok .undefined, machine)
  unit : key ≠ "length" → ∀ (machine : Machine) (text : String),
    property (.string text) key machine = (.ok .undefined, machine)
  write : ∀ (machine : Machine) (id : ArrayId) (value : Value),
    setProperty (.array id) key value machine = (.failed (.type (.arrayProperty key)), machine)

variable {key : String} {i : Nat}

/-! ## Reading and writing -/

private theorem property_array (machine : Machine) (id : ArrayId) (h : key ≠ "length") :
    property (.array id) key machine = (.ok (itemAt (machine.heap.items id) key), machine) := by
  have hread : property (.array id) key machine =
      (.ok (if key = "length" then count (machine.heap.items id).size else itemAt (machine.heap.items id) key),
        machine) := rfl
  rw [hread, if_neg h]

private theorem property_string (machine : Machine) (text : String) (h : key ≠ "length") :
    property (.string text) key machine = (.ok (unitOf text key), machine) := by
  have hread : property (.string text) key machine =
      (.ok (if key = "length" then count (Text.unitLength text.toList) else unitOf text key), machine) := rfl
  rw [hread, if_neg h]

private theorem unitOf_eq (text key : String) : unitOf text key =
    (((Decimal.word? key).bind (Text.unitAt? text.toList)).map fun unit => .string unit.toString).getD .undefined := by
  unfold unitOf
  cases (Decimal.word? key).bind (Text.unitAt? text.toList) <;> rfl

private theorem ne_length_of_word? (h : Decimal.word? key = some i) : key ≠ "length" := by
  rintro rfl
  have hnone : Decimal.word? "length" = none := by decide +kernel
  rw [hnone] at h
  contradiction

/-! ## What keys stand for -/

/-- A key that is read as a word stands for that index. -/
theorem standsFor_of_word? (h : Decimal.word? key = some i) : StandsFor key i := by
  have hne := ne_length_of_word? h
  refine ⟨fun machine id => ?_, fun machine text => ?_, fun machine id value => ?_⟩
  · rw [property_array machine id hne, itemAt, h]
    rfl
  · rw [property_string machine text hne, unitOf_eq, h]
    rfl
  · unfold setProperty
    simp only [h]

theorem standsForNone_of_word? (h : Decimal.word? key = none) : StandsForNone key := by
  refine ⟨fun hne machine id => ?_, fun hne machine text => ?_, fun machine id value => ?_⟩
  · rw [property_array machine id hne, itemAt, h]
    rfl
  · rw [property_string machine text hne, unitOf_eq, h]
    rfl
  · unfold setProperty
    simp only [h]
    rfl

/-! ## Telling keys apart -/

/-- Undefined items, with one that is not undefined behind them. -/
private def marked (n : Nat) : Array Value := (Array.replicate n Value.undefined).push .null

private theorem getElem?_marked (n : Nat) : (marked n)[n]? = some .null := by
  rw [marked, Array.getElem?_push, if_pos Array.size_replicate.symm]

private theorem eq_of_getElem?_marked {n j : Nat} (h : (marked n)[j]?.getD .undefined = .null) : j = n := by
  rw [marked, Array.getElem?_push, Array.size_replicate] at h
  split at h
  · assumption
  · rw [Array.getElem?_replicate] at h
    split at h <;> cases h

/-- A key that reads the marked one of some items has the number of items before it as its word. -/
theorem StandsFor.word?_eq (h : StandsFor key i) : Decimal.word? key = some i := by
  have hread : property (.array ⟨0⟩) key (.ofArray (marked i)) = (.ok .null, .ofArray (marked i)) := by
    rw [h.item, show (Machine.ofArray (marked i)).heap.items ⟨0⟩ = marked i from rfl, getElem?_marked]
    rfl
  have hlength : key ≠ "length" := by
    rintro rfl
    cases (Prod.mk.inj hread).1
  rw [property_array _ ⟨0⟩ hlength] at hread
  have hitem : itemAt (marked i) key = .null := Outcome.ok.inj (Prod.mk.inj hread).1
  unfold itemAt at hitem
  cases hw : Decimal.word? key with
  | none =>
    rw [hw] at hitem
    cases hitem
  | some j =>
    rw [hw, Option.bind_some] at hitem
    rw [eq_of_getElem?_marked hitem]

private theorem standsFor_iff : StandsFor key i ↔ Decimal.word? key = some i :=
  ⟨StandsFor.word?_eq, standsFor_of_word?⟩

/-- A key stands for the index that it is a numeral of: the canonical numeral, or one with zeros before it, or with a
plus before those.  A key that is no numeral of a word stands for no index.  So a key without a plus and without zeros
before it stands for an index just if it is its canonical numeral. -/
theorem standsFor_iff_writes (key : String) :
    (∀ i, StandsFor key i ↔ Decimal.Writes key i ∧ i < Decimal.wordCount) ∧
      ((∀ i, ¬StandsFor key i) → StandsForNone key) ∧
      (Decimal.isPlain key = true → ∀ i, StandsFor key i ↔ key = toString i ∧ i < Decimal.wordCount) := by
  have hnumeral : ∀ i, StandsFor key i ↔ Decimal.Writes key i ∧ i < Decimal.wordCount := fun i =>
    standsFor_iff.trans Decimal.word?_eq_some_iff
  refine ⟨hnumeral, fun hnone => standsForNone_of_word? ?_, fun hplain i => (hnumeral i).trans ?_⟩
  · exact Option.eq_none_iff_forall_ne_some.2 fun i hi => hnone i (standsFor_of_word? hi)
  · refine and_congr_left fun _ => ⟨fun h => h.eq_toString hplain, ?_⟩
    rintro rfl
    exact Decimal.writes_toString i

/-- Of the numeral `01`, of a text that is no numeral, and of a canonical numeral. -/
theorem standsFor_samples : StandsFor "01" 1 ∧ StandsForNone "-1" ∧ StandsFor "12" 12 := by
  refine ⟨((standsFor_iff_writes "01").1 1).2 ?_, (standsFor_iff_writes "-1").2.1 fun i hi => ?_,
    ((standsFor_iff_writes "12").2.2 rfl 12).2 ⟨rfl, by decide⟩⟩
  · exact Decimal.word?_eq_some_iff.1 (by decide +kernel)
  · have hnone : Decimal.word? "-1" = none := by decide +kernel
    rw [standsFor_iff, hnone] at hi
    contradiction

/-- A key with a zero before the canonical numeral stands for the same index as the canonical numeral. -/
theorem not_all_canonical : ¬∀ key i, StandsFor key i → key = toString i := by
  intro h
  have hkey : "01" = toString 1 := h "01" 1 (standsFor_of_word? (by decide +kernel))
  contradiction

end Run
end ScriptModules
