import ScriptModules.Decimal.Read

/-!
# Unsigned words

Reading a natural number that fits into 64 bits: digits, with an optional plus before them.
-/

namespace ScriptModules.Decimal

/-- The number of values of a word. -/
def wordCount : Nat := Nat.pow 2 64

/-- Reads the whole text as a word. -/
def word? (text : String) : Option Nat :=
  let digits := match text.toList with
    | '+' :: digits => digits
    | digits => digits
  if digits.isEmpty || !digits.all Char.isDigit then none
  else
    let n := ofDigits digits
    if n < wordCount then some n else none

example : word? "+007" = some 7 ∧ word? "-0" = none ∧ word? "18446744073709551616" = none := by
  decide +kernel

end ScriptModules.Decimal
