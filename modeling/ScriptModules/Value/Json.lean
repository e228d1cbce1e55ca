import ScriptModules.Decimal.Binary
import ScriptModules.Decimal.Read
import ScriptModules.Json.Document
import ScriptModules.Value.Heap

/-!
# Values as JSON

`Heap.toJson` writes what a value refers to as a document.  A place that is met again below itself is
replaced by a mark, and one that is met again beside itself is written out again: the walk keeps the
places above the one it is at, and leaves them as it found them.  `Heap.ofJson` makes a value of a
document.
-/

namespace ScriptModules

namespace Heap

/-- What stands for a place inside of itself. -/
def circular : Json := .string "[Circular]"

/-- A number as a document holds it: below `2 ^ 53` an integer is written as one, and what is not
finite is null. -/
def numberToJson (x : Float) : Json :=
  match Decimal.Binary.ofFloat x with
  | .finite .. =>
    match Decimal.truncate? x with
    | some n => if Decimal.isIntegral x && n.natAbs < Nat.pow 2 53 then .integer n else .float x
    | none => .float x
  | _ => .null

variable (heap : Heap)

/-- A walk that knows the places above it. -/
abbrev Walk (α : Type) := StateM (List Value) α

/-- Walks below a place, unless it is above itself. -/
def below (place : Value) (walk : Walk Json) : Walk (Option Json) := do
  if place ∈ (← get) then return some circular
  modify (place :: ·)
  let document ← walk
  modify fun above => above.erase place
  return some document

/-- An object without the entries that have no form as a document. -/
def presentEntries (entries : List (String × Option Json)) : Json :=
  .object (Keyed.ofList (entries.filterMap fun (key, document?) => document?.map (key, ·)))

/-- The view of a module record: nothing if there is no such record. -/
def recordToJson (exports : Value → Walk (Option Json)) (cache : CacheId) (id : Path) :
    Walk Json := do
  match (heap.cache cache).find? id with
  | none => return .object []
  | some record =>
    return presentEntries [
      ("id", some (.string record.id.text)), ("filename", some (.string record.id.text)),
      ("loaded", some (.boolean record.loaded)), ("exports", ← exports record.exports)]

/-- The document of a value, if it has one, for at most `fuel` places below each other. -/
def toJsonBelow : Nat → Value → Walk (Option Json)
  | 0, _ => return none
  | fuel + 1, value => match value with
    | .undefined => return none
    | .null => return some .null
    | .boolean b => return some (.boolean b)
    | .number x => return some (numberToJson x)
    | .string s => return some (.string s)
    | .array id => below value do
      return .array (← (heap.items id).toList.mapM fun item =>
        return (← toJsonBelow fuel item).getD .null)
    | .object id => below value do
      return presentEntries (← (heap.entries id).mapM fun (key, item) =>
        return (key, ← toJsonBelow fuel item))
    | .host id => match heap.host id with
      | .module cache record => below value (heap.recordToJson (toJsonBelow fuel) cache record)
      | .cacheView cache => below value do
        return presentEntries (← (heap.cache cache).keys.mapM fun record =>
          return (record.text, some (← heap.recordToJson (toJsonBelow fuel) cache record)))
      | _ => return none

/-- The number of places. -/
def size : Nat := heap.arrays.size + heap.objects.size + heap.hosts.size

/-- The document of a value; null for `undefined` and what can be called. -/
def toJson (value : Value) : Json :=
  ((heap.toJsonBelow (heap.size + 1) value).run []).1.getD .null

/-- Makes new places, and the heap that holds them. -/
abbrev Making (α : Type) := StateM Heap α

mutual

/-- Makes a value of a document. -/
def ofJson : Json → Making Value
  | .null => return .null
  | .boolean b => return .boolean b
  | .integer n => return .number (Decimal.ofInt n)
  | .float x => return .number x
  | .string s => return .string s
  | .array items => do
    let items ← ofJsonItems items
    return .array (← modifyGet fun heap => heap.newArray items.toArray)
  | .object entries => do
    let entries ← ofJsonEntries entries
    return .object (← modifyGet fun heap => heap.newObject entries)

def ofJsonItems : List Json → Making (List Value)
  | [] => return []
  | item :: items => return (← ofJson item) :: (← ofJsonItems items)

def ofJsonEntries : List (String × Json) → Making (Keyed Value)
  | [] => return []
  | (key, item) :: entries => return (key, ← ofJson item) :: (← ofJsonEntries entries)

end

end Heap
end ScriptModules
