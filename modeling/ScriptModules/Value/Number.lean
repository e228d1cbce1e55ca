import ScriptModules.Decimal.Read
import ScriptModules.Decimal.Binary
import ScriptModules.Text.Blank
import ScriptModules.Value.Basic

/-!
# Values as numbers

How operators see a value as a number, the equality that converts, and the order of values.
-/

namespace ScriptModules.Value

/-- The number that a text writes between blanks: zero for none, and no number if it is not one. -/
def numberOfText (s : String) : Float :=
  match Text.trim s.toList with
  | [] => 0
  | cs => (Decimal.read? cs).getD (0.0 / 0.0)

/-- The value as a number; what is no number gives the number that is none. -/
def toNumber : Value → Float
  | undefined => 0.0 / 0.0
  | null => 0
  | boolean b => if b then 1 else 0
  | number x => x
  | string s => numberOfText s
  | array _ | object _ | host _ => 0.0 / 0.0

/-- Equality that takes a text or a boolean beside a number as a number, and holds `undefined` and
`null` for equal. -/
def looseEquals (a b : Value) : Bool :=
  if a.isNullish && b.isNullish then true
  else if a.isNullish || b.isNullish then false
  else match a, b with
    | number _, number _ | string _, number _ | boolean _, number _
    | number _, string _ | number _, boolean _ => a.toNumber == b.toNumber
    | _, _ => a.strictEquals b

/-- The order of two values: texts by code points, all else as numbers, of which one may be none. -/
def compare? (a b : Value) : Option Ordering :=
  match a, b with
  | string s, string t => some (compare s t)
  | _, _ =>
    let x := a.toNumber
    let y := b.toNumber
    if x < y then some .lt else if x == y then some .eq else if y < x then some .gt else none

/-- The remainder of a division that goes toward zero, with the sign of the dividend. -/
def remainder (x y : Float) : Float :=
  match Decimal.Binary.ofFloat x, Decimal.Binary.ofFloat y with
  | .nan, _ | _, .nan | .infinite _, _ => 0.0 / 0.0
  | .finite .., .infinite _ => x
  | .finite negative m q, .finite _ n r =>
    if n = 0 then 0.0 / 0.0
    else
      let e := min q r
      Decimal.Binary.toFloat negative (m * Nat.pow 2 (q - e).toNat % (n * Nat.pow 2 (r - e).toNat)) e

end ScriptModules.Value
