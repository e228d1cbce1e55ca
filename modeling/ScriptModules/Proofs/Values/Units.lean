import ScriptModules.Proofs.Decimal.Integers
import ScriptModules.Proofs.Values.Keys
import ScriptModules.Value.Operator

/-!
# Texts in code units

A text is a sequence of code units: a character of the first 65536 code points is one, and any other character is a pair
of surrogates (`Text.units`).  The length of a text is the number of its units, and what stands at an index is the unit
there on its own (`Run.ShowsUnits`).  The units of a sum are those of its sides, one after the other, and so are all
that scripts see of them (`Run.showsUnits_add`).
-/

namespace ScriptModules

namespace Text

/-- The code units of a character. -/
def encode (c : Char) : List Nat :=
  if c.toNat < 0x10000 then [c.toNat]
  else [0xD800 + (c.toNat - 0x10000) / 0x400, 0xDC00 + (c.toNat - 0x10000) % 0x400]

/-- The code units of a text. -/
def units (text : List Char) : List Nat := text.flatMap encode

/-- Is the unit half of a pair? -/
def isSurrogate (unit : Nat) : Bool := decide (0xD800 ≤ unit ∧ unit < 0xE000)

/-- The character that a unit is on its own.  For half of a pair it is the replacement character. -/
def ofUnit (unit : Nat) : Char := if isSurrogate unit then '\uFFFD' else Char.ofNat unit

private theorem units_append (s t : List Char) : units (s ++ t) = units s ++ units t := List.flatMap_append

private theorem length_encode (c : Char) : (encode c).length = unitCount c := by
  unfold encode unitCount
  split <;> rfl

private theorem unitLength_eq (text : List Char) : unitLength text = (units text).length := by
  induction text with
  | nil => rfl
  | cons c cs ih => rw [unitLength, ih, ← length_encode, ← List.length_append]; rfl

/-- The code point of a character is no surrogate. -/
private theorem codePoint_cases (c : Char) : c.toNat < 0xD800 ∨ 0xDFFF < c.toNat ∧ c.toNat < 0x110000 := c.valid

/-- A character that is one unit is the character of this unit. -/
private theorem ofUnit_toNat (c : Char) : ofUnit c.toNat = c := by
  have hpoint := codePoint_cases c
  have hvalid : isSurrogate c.toNat = false := decide_eq_false (by omega)
  rw [ofUnit, hvalid]
  exact Char.ofNat_toNat c

/-- Both halves of a pair are surrogates. -/
private theorem map_ofUnit_encode (c : Char) :
    (encode c).map ofUnit = List.replicate (unitCount c) (if unitCount c = 1 then c else '\uFFFD') := by
  unfold encode unitCount
  split
  · rw [List.map_singleton, ofUnit_toNat]
    rfl
  · have hpoint := codePoint_cases c
    have hhigh : isSurrogate (0xD800 + (c.toNat - 0x10000) / 0x400) = true := decide_eq_true (by omega)
    have hlow : isSurrogate (0xDC00 + (c.toNat - 0x10000) % 0x400) = true := decide_eq_true (by omega)
    rw [List.map_cons, List.map_singleton, ofUnit, if_pos hhigh, ofUnit, if_pos hlow]
    rfl

/-- What stands at an index is the unit there on its own. -/
theorem unitAt?_eq (text : List Char) (i : Nat) : unitAt? text i = (units text)[i]?.map ofUnit := by
  induction text generalizing i with
  | nil => rfl
  | cons c cs ih =>
    have hunits : (units (c :: cs)).map ofUnit = (encode c).map ofUnit ++ (units cs).map ofUnit := List.map_append
    rw [← List.getElem?_map, hunits, map_ofUnit_encode, unitAt?]
    split
    · next h => rw [List.getElem?_append_left (by rwa [List.length_replicate]), List.getElem?_replicate_of_lt h]
    · next h =>
      rw [List.getElem?_append_right (by rw [List.length_replicate]; omega), List.length_replicate, ih,
        List.getElem?_map]

private theorem unitCount_le_utf8Size (c : Char) : unitCount c ≤ c.utf8Size := by
  unfold unitCount
  split
  · exact c.utf8Size_pos
  · next h =>
    have hbeyond : 0xFFFF < c.val := UInt32.lt_iff_toNat_lt.2 (Nat.lt_of_not_le fun hle => h (Nat.lt_succ_of_le hle))
    rw [Char.utf8Size_eq_four_iff.2 hbeyond]
    decide

private theorem unitLength_le (cs : List Char) : unitLength cs ≤ (String.ofList cs).utf8ByteSize := by
  induction cs with
  | nil => exact Nat.zero_le _
  | cons c cs ih =>
    rw [unitLength, utf8ByteSize_ofList_cons]
    exact Nat.add_le_add (unitCount_le_utf8Size c) ih

/-- A text has no more units than bytes. -/
theorem length_units_le (text : String) : (units text.toList).length ≤ text.utf8ByteSize := by
  rw [← unitLength_eq]
  simpa using unitLength_le text.toList

end Text

/-! ## What scripts see -/

namespace Run

open Text

/-- What scripts see of a text: how many units it has, and at each index the unit there on its own. -/
structure ShowsUnits (machine : Machine) (text : String) : Prop where
  length : property (.string text) "length" machine = (.ok (count (units text.toList).length), machine)
  unit : ∀ (i : Nat) (unit : Nat), (units text.toList)[i]? = some unit →
    property (.string text) (toString i) machine = (.ok (.string (ofUnit unit).toString), machine)
  ends : ∀ i : Nat, property (.string text) (toString i) machine = (.ok .undefined, machine) ↔
    (units text.toList).length ≤ i

variable {machine : Machine} {text : String}

private theorem property_toString (h : (units text.toList).length ≤ Decimal.wordCount) (i : Nat) :
    property (.string text) (toString i) machine =
      (.ok (((units text.toList)[i]?.map fun unit => .string (ofUnit unit).toString).getD .undefined), machine) := by
  rcases Nat.lt_or_ge i Decimal.wordCount with hi | hi
  · rw [(standsFor_of_word? (Decimal.word?_toString hi)).unit machine text, unitAt?_eq, Option.map_map]
    rfl
  · have hlength : toString i ≠ "length" := by
      intro he
      have hdigit := Decimal.isDigit_of_mem_toString (show 'l' ∈ (toString i).toList by rw [he]; decide)
      contradiction
    rw [(standsForNone_of_word? (Decimal.word?_toString_of_le hi)).unit hlength machine text,
      List.getElem?_eq_none (Nat.le_trans h hi)]
    rfl

/-- Scripts see the units of every text that has no more of them than there are words. -/
theorem showsUnits (machine : Machine) (h : (units text.toList).length ≤ Decimal.wordCount) :
    ShowsUnits machine text := by
  refine ⟨?_, fun i unit hi => ?_, fun i => ?_⟩
  · rw [← unitLength_eq]
    rfl
  · rw [property_toString h, hi]
    rfl
  · rw [property_toString h]
    rcases Nat.lt_or_ge i (units text.toList).length with hi | hi
    · rw [List.getElem?_eq_getElem hi]
      refine iff_of_false (fun he => ?_) (Nat.not_le.2 hi)
      cases (Prod.mk.inj he).1
    · rw [List.getElem?_eq_none hi]
      exact iff_of_true rfl hi

/-- What scripts see of the sum of two texts is what they see of the first one and, from its end on, of the second one.
The length is the sum of the lengths, also for scripts as long as they count exactly. -/
theorem showsUnits_add (machine : Machine) {s t : String} (h : (s ++ t).utf8ByteSize < Decimal.wordCount) :
    machine.heap.binary .add (.string s) (.string t) = .string (s ++ t) ∧
    ShowsUnits machine s ∧ ShowsUnits machine t ∧ ShowsUnits machine (s ++ t) ∧
    (units (s ++ t).toList).length = (units s.toList).length + (units t.toList).length ∧
    ((units (s ++ t).toList).length < 2 ^ 53 →
      machine.heap.binary .add (count (units s.toList).length) (count (units t.toList).length) =
        count (units (s ++ t).toList).length) ∧
    ∀ i : Nat, property (.string (s ++ t)) (toString i) machine =
      if i < (units s.toList).length then property (.string s) (toString i) machine
      else property (.string t) (toString (i - (units s.toList).length)) machine := by
  have hunits : units (s ++ t).toList = units s.toList ++ units t.toList := by
    rw [String.toList_append, units_append]
  have hlength : (units (s ++ t).toList).length = (units s.toList).length + (units t.toList).length := by
    rw [hunits, List.length_append]
  have hsum : (units (s ++ t).toList).length ≤ Decimal.wordCount :=
    Nat.le_trans (length_units_le _) (Nat.le_of_lt h)
  have hs : (units s.toList).length ≤ Decimal.wordCount := by omega
  have ht : (units t.toList).length ≤ Decimal.wordCount := by omega
  refine ⟨rfl, showsUnits machine hs, showsUnits machine ht, showsUnits machine hsum, hlength, fun hsmall => ?_,
    fun i => ?_⟩
  · rw [hlength] at hsmall ⊢
    exact congrArg Value.number (Decimal.Binary.ofInt_add hsmall)
  · rw [property_toString hsum, property_toString hs, property_toString ht, hunits, List.getElem?_append]
    split <;> rfl

/-- Of a pair of surrogates and the unit behind it, where a sum puts them together. -/
theorem showsUnits_add_pair :
    property (.string ("a😀" ++ "b")) "length" .empty = (.ok (count 4), .empty) ∧
    property (.string ("a😀" ++ "b")) "2" .empty = (.ok (.string "\uFFFD"), .empty) ∧
    property (.string ("a😀" ++ "b")) "3" .empty = (.ok (.string "b"), .empty) ∧
    property (.string ("a😀" ++ "b")) "4" .empty = (.ok .undefined, .empty) := by
  obtain ⟨_, _, _, hshows, _, _, hitems⟩ := showsUnits_add .empty (s := "a😀") (t := "b") (by decide)
  exact ⟨hshows.length, hshows.unit 2 0xDE00 rfl, (hitems 3).trans rfl, (hshows.ends 4).2 (by decide)⟩

end Run
end ScriptModules
