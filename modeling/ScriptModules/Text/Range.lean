/-!
# Sets of characters given by ranges

A set of characters is a list of ranges of code points, both ends included.
-/

namespace ScriptModules.Text

/-- Is the code point of `c` in one of the ranges? -/
def inRanges (ranges : List (Nat × Nat)) (c : Char) : Bool :=
  ranges.any fun (first, last) => first ≤ c.toNat && c.toNat ≤ last

end ScriptModules.Text
