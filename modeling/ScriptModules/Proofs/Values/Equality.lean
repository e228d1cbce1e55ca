import ScriptModules.Proofs.Decimal.Doubles
import ScriptModules.Value.Number

/-!
# Equality of values

Values that are equal without conversion are equal with it, and neither equality depends on the order of its sides.
Beside a number or a boolean a boolean counts as its number.  Beside a text it does not: no boolean equals a text, and
so a boolean and its number tell the texts apart that write the number (`Value.comparesAlike_iff`).
-/

namespace ScriptModules.Value

/-- Is it a boolean, a number or a text? -/
def isScalar : Value → Bool
  | boolean _ | number _ | string _ => true
  | _ => false

/-- The boolean and its number are both equal to the value, on either side, or none of them is. -/
def ComparesAlike (b : Bool) (value : Value) : Prop :=
  ∃ answer, (boolean b).looseEquals value = answer ∧ value.looseEquals (boolean b) = answer ∧
    (number (if b then 1 else 0)).looseEquals value = answer ∧ value.looseEquals (number (if b then 1 else 0)) = answer

/-! ## The order of the sides -/

private theorem strictEquals_comm (a b : Value) : a.strictEquals b = b.strictEquals a := by
  cases a with
  | undefined | null => cases b <;> rfl
  | number x =>
    cases b with
    | number y => exact Decimal.Binary.beq_comm x y
    | _ => rfl
  | boolean x | string x | array x | object x | host x =>
    cases b with
    | boolean y | string y | array y | object y | host y =>
      first
      | rfl
      | exact Bool.beq_comm
    | _ => rfl

private theorem looseEquals_comm (a b : Value) : a.looseEquals b = b.looseEquals a := by
  unfold looseEquals
  rw [Bool.and_comm, Bool.or_comm]
  split
  · rfl
  split
  · rfl
  · have hnumbers := Decimal.Binary.beq_comm a.toNumber b.toNumber
    have hstrict := strictEquals_comm a b
    cases a <;> cases b <;> first | exact hnumbers | exact hstrict

private theorem looseEquals_of_strictEquals {a b : Value} (h : a.strictEquals b = true) : a.looseEquals b = true := by
  cases a <;> cases b <;> first | contradiction | exact h

/-! ## Booleans -/

private theorem looseEquals_boolean_string (b : Bool) (text : String) : (boolean b).looseEquals (string text) = false :=
  rfl

private theorem looseEquals_number_of_isScalar (x : Float) {value : Value} (h : value.isScalar = true) :
    (number x).looseEquals value = (x == value.toNumber) := by
  cases value <;> first | contradiction | rfl

/-- Booleans are equal just if their numbers are. -/
private theorem beq_toNumber (b c : Bool) : ((if b then 1 else 0 : Float) == if c then 1 else 0) = (b == c) := by
  cases b <;> cases c <;> decide +kernel

/-- A boolean compares to booleans and numbers as its number does, and to the texts that do not write its number.  It
is never equal to a text, so it does not compare alike to those that do.  Values that are equal without conversion are
equal with it, and it does not matter which of two values comes first. -/
theorem comparesAlike_iff (b : Bool) (value : Value) (hs : value.isScalar = true) (written : String) (a c : Value) :
    (ComparesAlike b value ↔ ∀ text, value = string text → ((if b then 1 else 0) == numberOfText text) = false) ∧
      (boolean b).looseEquals (string written) = false ∧ (a.strictEquals c = true → a.looseEquals c = true) ∧
      a.looseEquals c = c.looseEquals a := by
  refine ⟨?_, looseEquals_boolean_string b written, looseEquals_of_strictEquals, looseEquals_comm a c⟩
  have hnumber := looseEquals_number_of_isScalar (if b then 1 else 0) hs
  unfold ComparesAlike
  rw [looseEquals_comm value, looseEquals_comm value, hnumber]
  cases value with
  | boolean c =>
    have hequal : (boolean b).looseEquals (boolean c) = (b == c) := rfl
    refine iff_of_true ⟨b == c, hequal, hequal, ?_, ?_⟩ nofun
    · exact beq_toNumber b c
    · exact beq_toNumber b c
  | number y => exact iff_of_true ⟨_, rfl, rfl, rfl, rfl⟩ nofun
  | string text =>
    rw [looseEquals_boolean_string]
    constructor
    · rintro ⟨_, rfl, -, halike, -⟩ text' htext
      obtain rfl := string.inj htext
      exact halike
    · intro halike
      exact ⟨false, rfl, rfl, halike text rfl, halike text rfl⟩
  | _ => contradiction

/-- Of a text that writes another number, and of one that writes the number of the boolean. -/
theorem comparesAlike_samples : ComparesAlike true (string " 2 ") ∧ ¬ComparesAlike false (string "") ∧
    (number 1).looseEquals (number 1) = true := by
  have hother := comparesAlike_iff true (string " 2 ") rfl "" (number 1) (number 1)
  have hsame := comparesAlike_iff false (string "") rfl "" (number 1) (number 1)
  refine ⟨hother.1.2 ?_, fun halike => ?_, hother.2.2.1 (by decide +kernel)⟩
  · intro text htext
    rw [← string.inj htext]
    decide +kernel
  · have hdiffers := hsame.1.1 halike "" rfl
    have hequal : ((if false then 1 else 0 : Float) == numberOfText "") = true := by decide +kernel
    rw [hequal] at hdiffers
    contradiction

/-- The number of a boolean is equal to a text that the boolean is not equal to. -/
theorem not_always_comparesAlike :
    ¬∀ (b : Bool) (value : Value), value.isScalar = true → ComparesAlike b value := by
  intro h
  obtain ⟨_, rfl, -, halike, -⟩ := h true (string "1") rfl
  have hequal : (number (if true then 1 else 0)).looseEquals (string "1") = true := by decide +kernel
  rw [hequal] at halike
  contradiction

end ScriptModules.Value
