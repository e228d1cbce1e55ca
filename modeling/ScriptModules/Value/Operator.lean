import ScriptModules.Value.Number
import ScriptModules.Value.Text

/-!
# Operators

What the operators of a script make of values.
-/

namespace ScriptModules

/-- Is the sum with such a value a text? -/
def Value.concatenates : Value → Bool
  | .string _ | .array _ | .object _ | .host _ => true
  | _ => false

/-- Does a logical operator stop at this left side? -/
def Value.decides (a : Value) : Script.LogicalOperator → Bool
  | .and => !a.truthy
  | .or => a.truthy

namespace Heap

variable (heap : Heap)

/-- The sum of two values: of numbers, or of texts if one of the values is more than a number. -/
def add (a b : Value) : Value :=
  if a.concatenates || b.concatenates then .string (heap.display a ++ heap.display b)
  else .number (a.toNumber + b.toNumber)

/-- An operator with two sides. -/
def binary (operator : Script.BinaryOperator) (a b : Value) : Value :=
  match operator with
  | .add => heap.add a b
  | .subtract => .number (a.toNumber - b.toNumber)
  | .multiply => .number (a.toNumber * b.toNumber)
  | .divide => .number (a.toNumber / b.toNumber)
  | .modulo => .number (Value.remainder a.toNumber b.toNumber)
  | .equal => .boolean (a.looseEquals b)
  | .notEqual => .boolean (!a.looseEquals b)
  | .strictEqual => .boolean (a.strictEquals b)
  | .strictNotEqual => .boolean (!a.strictEquals b)
  | .lessThan => .boolean (a.compare? b == some .lt)
  | .lessThanEqual => .boolean (a.compare? b == some .lt || a.compare? b == some .eq)
  | .greaterThan => .boolean (a.compare? b == some .gt)
  | .greaterThanEqual => .boolean (a.compare? b == some .gt || a.compare? b == some .eq)

/-- An operator with one side. -/
def unary (operator : Script.UnaryOperator) (a : Value) : Value :=
  match operator with
  | .minus => .number (-a.toNumber)
  | .plus => .number a.toNumber
  | .not => .boolean !a.truthy
  | .typeof => .string (heap.kindOf a)

end Heap
end ScriptModules
