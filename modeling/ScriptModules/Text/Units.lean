/-!
# Text in 16-bit units

Scripts count and index texts in the units of UTF-16: a character beyond the first 65536 code points
takes two of them.
-/

namespace ScriptModules.Text

/-- The number of units of a character. -/
def unitCount (c : Char) : Nat := if c.toNat < 0x10000 then 1 else 2

/-- The number of units of a text. -/
def unitLength : List Char → Nat
  | [] => 0
  | c :: cs => unitCount c + unitLength cs

/-- The unit at an index, as a character; a unit that is half a character is the replacement
character. -/
def unitAt? : List Char → Nat → Option Char
  | [], _ => none
  | c :: cs, i =>
    if i < unitCount c then some (if unitCount c = 1 then c else '\uFFFD')
    else unitAt? cs (i - unitCount c)

theorem utf8ByteSize_ofList_cons (c : Char) (cs : List Char) :
    (String.ofList (c :: cs)).utf8ByteSize = c.utf8Size + (String.ofList cs).utf8ByteSize := by
  rw [← List.singleton_append, String.ofList_append, String.utf8ByteSize_append]
  simp

end ScriptModules.Text
