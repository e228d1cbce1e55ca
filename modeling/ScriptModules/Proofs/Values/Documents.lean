import Mathlib.Algebra.Group.Int.Defs
import Mathlib.Data.List.Forall2
import ScriptModules.Proofs.Decimal.Integers
import ScriptModules.Value.Json

/-!
# Documents up to their numbers

The same number can stand in a document as an integer and as a double.  Documents are alike (`Json.Alike`) if they
differ in nothing but the form of equal numbers.  In a normal document each number has the form in which values are
written (`Json.normalize`): this makes a document that is alike, and once it has been done it changes nothing.
-/

namespace ScriptModules

open Decimal

/-! ## Numbers -/

namespace Heap

/-- A finite number is written as the integer that it is, or as it is. -/
theorem numberToJson_cases {x : Float} (h : x.isFinite = true) :
    (∃ n : Int, n.natAbs < 2 ^ 53 ∧ (x == ofInt n) = true ∧ numberToJson x = .integer n) ∨
      numberToJson x = .float x := by
  obtain ⟨negative, m, q, hx⟩ := Binary.isFinite_iff.1 h
  cases htruncate : truncate? x with
  | none => simp [truncate?, hx] at htruncate
  | some n =>
    have hjson : numberToJson x =
        if isIntegral x && n.natAbs < Nat.pow 2 53 then .integer n else .float x := by
      simp only [numberToJson, hx, htruncate]
    rw [hjson]
    split
    · next hn =>
      simp only [Bool.and_eq_true, decide_eq_true_eq] at hn
      exact .inl ⟨n, hn.2, Binary.truncate_beq_ofInt hn.1 htruncate hn.2, rfl⟩
    · exact .inr rfl

private theorem numberToJson_ofInt {n : Int} (h : n.natAbs < 2 ^ 53) : numberToJson (ofInt n) = .integer n := by
  have hfinite : (ofInt n).isFinite = true := Binary.isFinite_ofInt (Nat.lt_trans h (by decide))
  obtain ⟨negative, m, q, hx⟩ := Binary.isFinite_iff.1 hfinite
  simp only [numberToJson, hx, Binary.truncate?_ofInt h, Binary.isIntegral_ofInt h]
  simpa using h

end Heap

namespace Json

/-- The number that a document is. -/
def number? : Json → Option Float
  | .integer n => some (ofInt n)
  | .float x => some x
  | _ => none

/-- The document can be held: its integers are signed or unsigned words, its other numbers are finite, and the keys of
its objects are in order. -/
inductive Proper : Json → Prop
  | null : Proper .null
  | boolean (b : Bool) : Proper (.boolean b)
  | integer {n : Int} : -2 ^ 63 ≤ n → n < 2 ^ 64 → Proper (.integer n)
  | float {x : Float} : x.isFinite = true → Proper (.float x)
  | string (s : String) : Proper (.string s)
  | array {items : List Json} : (∀ item ∈ items, Proper item) → Proper (.array items)
  | object {entries : List (String × Json)} : Keyed.Rising entries → (∀ entry ∈ entries, Proper entry.2) →
      Proper (.object entries)

/-- The documents have the same shape, with the same keys, texts and booleans, and with equal numbers. -/
inductive Alike : Json → Json → Prop
  | null : Alike .null .null
  | boolean (b : Bool) : Alike (.boolean b) (.boolean b)
  | number {document other : Json} {x y : Float} : document.number? = some x → other.number? = some y →
      (x == y) = true → Alike document other
  | string (s : String) : Alike (.string s) (.string s)
  | array {items others : List Json} : List.Forall₂ Alike items others → Alike (.array items) (.array others)
  | object {entries others : List (String × Json)} : entries.map Prod.fst = others.map Prod.fst →
      List.Forall₂ Alike (entries.map Prod.snd) (others.map Prod.snd) → Alike (.object entries) (.object others)

mutual

/-- Writes each number of a document in the form in which values are written. -/
def normalize : Json → Json
  | .integer n => Heap.numberToJson (ofInt n)
  | .float x => Heap.numberToJson x
  | .array items => .array (normalizeItems items)
  | .object entries => .object (normalizeEntries entries)
  | document => document

def normalizeItems : List Json → List Json
  | [] => []
  | item :: items => normalize item :: normalizeItems items

def normalizeEntries : List (String × Json) → List (String × Json)
  | [] => []
  | (key, item) :: entries => (key, normalize item) :: normalizeEntries entries

end

theorem normalizeItems_eq_map (items : List Json) : normalizeItems items = items.map normalize := by
  induction items with
  | nil => rfl
  | cons item items ih => rw [normalizeItems, ih, List.map_cons]

theorem normalizeEntries_eq_map (entries : List (String × Json)) :
    normalizeEntries entries = entries.map fun (key, item) => (key, normalize item) := by
  induction entries with
  | nil => rfl
  | cons entry entries ih => rw [normalizeEntries, ih, List.map_cons]

theorem map_fst_normalizeEntries (entries : List (String × Json)) :
    (normalizeEntries entries).map Prod.fst = entries.map Prod.fst := by
  rw [normalizeEntries_eq_map, List.map_map]
  rfl

variable {document : Json}

private theorem Proper.isFinite {x : Float} (h : document.Proper) (hx : document.number? = some x) :
    x.isFinite = true := by
  cases h with
  | integer hlo hhi =>
    obtain rfl := Option.some.inj hx
    exact Binary.isFinite_ofInt (by omega)
  | float hfinite =>
    obtain rfl := Option.some.inj hx
    exact hfinite
  | null | boolean | string | array | object => contradiction

private theorem alike_numberToJson {x : Float} (hx : document.number? = some x) (h : x.isFinite = true) :
    document.Alike (Heap.numberToJson x) := by
  obtain ⟨n, -, hbeq, hjson⟩ | hjson := Heap.numberToJson_cases h
  · rw [hjson]
    exact .number hx rfl hbeq
  · rw [hjson]
    exact .number hx rfl (Binary.beq_self h)

/-- A document that can be held has the same shape as its normal form, and equal numbers. -/
theorem Proper.alike_normalize (h : document.Proper) : document.Alike document.normalize := by
  induction h with
  | null => exact .null
  | boolean b => exact .boolean b
  | string s => exact .string s
  | integer hlo hhi => exact alike_numberToJson rfl (Proper.integer hlo hhi |>.isFinite rfl)
  | float hfinite => exact alike_numberToJson rfl hfinite
  | array _ ih =>
    rw [normalize, normalizeItems_eq_map]
    exact .array (List.forall₂_map_right_iff.2 (List.forall₂_same.2 ih))
  | @object entries _ _ ih =>
    rw [normalize]
    refine .object (map_fst_normalizeEntries entries).symm ?_
    rw [normalizeEntries_eq_map, List.map_map, List.forall₂_map_left_iff, List.forall₂_map_right_iff]
    exact List.forall₂_same.2 ih

private theorem normalize_numberToJson {x : Float} (h : x.isFinite = true) :
    (Heap.numberToJson x).normalize = Heap.numberToJson x := by
  obtain ⟨n, hn, -, hjson⟩ | hjson := Heap.numberToJson_cases h
  · rw [hjson, normalize, Heap.numberToJson_ofInt hn]
  · rw [hjson, normalize, hjson]

/-- A normal form is its own normal form. -/
theorem Proper.normalize_normalize (h : document.Proper) : document.normalize.normalize = document.normalize := by
  induction h with
  | null | boolean | string => rfl
  | integer hlo hhi => exact normalize_numberToJson (Proper.integer hlo hhi |>.isFinite rfl)
  | float hfinite => exact normalize_numberToJson hfinite
  | array _ ih =>
    simp only [normalize, normalizeItems_eq_map, List.map_map]
    exact congrArg Json.array (List.map_congr_left ih)
  | object _ _ ih =>
    simp only [normalize, normalizeEntries_eq_map, List.map_map]
    exact congrArg Json.object (List.map_congr_left fun entry hentry => Prod.ext rfl (ih entry hentry))

private theorem proper_numberToJson {x : Float} (h : x.isFinite = true) : (Heap.numberToJson x).Proper := by
  obtain ⟨n, hn, -, hjson⟩ | hjson := Heap.numberToJson_cases h
  · rw [hjson]
    exact .integer (by omega) (by omega)
  · rw [hjson]
    exact .float h

/-- The normal form of a document that can be held can be held. -/
theorem Proper.normalize (h : document.Proper) : document.normalize.Proper := by
  induction h with
  | null => exact .null
  | boolean b => exact .boolean b
  | string s => exact .string s
  | integer hlo hhi => exact proper_numberToJson (Proper.integer hlo hhi |>.isFinite rfl)
  | float hfinite => exact proper_numberToJson hfinite
  | array _ ih =>
    rw [Json.normalize, normalizeItems_eq_map]
    exact .array (List.forall_mem_map.2 ih)
  | @object entries hrising _ ih =>
    rw [Json.normalize]
    refine .object ?_ ?_
    · unfold Keyed.Rising Keyed.keys
      rwa [map_fst_normalizeEntries]
    · rw [normalizeEntries_eq_map]
      exact List.forall_mem_map.2 ih

end Json
end ScriptModules
