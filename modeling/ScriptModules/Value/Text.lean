import ScriptModules.Text.Quoted
import ScriptModules.Value.Json

/-!
# Values as text

`Heap.display` is the text that a value has where a text is needed, `Heap.inspect` what a console prints
of it, and `Heap.debug` the form for the programs around.  An array that stands inside of itself is
displayed as nothing.
-/

namespace ScriptModules

/-- The text of a number. -/
def numberText (x : Float) : String := Decimal.script.write x

namespace Heap

variable (heap : Heap)

/-- The text of a host object. -/
def displayHost (id : HostId) : String :=
  let host := heap.host id
  (if host.isCallable then "[Function: " else "[object ") ++ host.className ++ "]"

/-- The text of an item where it stands in an array, with the text of an array in its place. -/
def displayItem (displayArray : ArrayId → StateM (List ArrayId) String) :
    Value → StateM (List ArrayId) String
  | .undefined | .null => return ""
  | .boolean b => return toString b
  | .number x => return numberText x
  | .string s => return s
  | .array id => displayArray id
  | .object _ => return "[object Object]"
  | .host id => return heap.displayHost id

/-- The items of an array with commas between them, for at most `fuel` arrays below each other.  The
state holds the arrays above the one that is displayed. -/
def displayArray : Nat → ArrayId → StateM (List ArrayId) String
  | 0, _ => return ""
  | fuel + 1, id => do
    if id ∈ (← get) then return ""
    modify (id :: ·)
    let texts ← (heap.items id).toList.mapM (heap.displayItem (displayArray fuel))
    modify fun above => above.erase id
    return ",".intercalate texts

/-- The text of a value. -/
def display : Value → String
  | .undefined => "undefined"
  | .null => "null"
  | value =>
    (heap.displayItem (heap.displayArray (heap.arrays.size + 1)) value |>.run []).1

/-- The form of a value for the programs around. -/
def debug : Value → String
  | .undefined => "Undefined"
  | .null => "Null"
  | .boolean b => "Boolean(" ++ toString b ++ ")"
  | .number x => "Number(" ++ Decimal.plain.write x ++ ")"
  | .string s => "String(" ++ Text.quote s ++ ")"
  | .array id => (heap.toJson (.array id)).write
  | .object id => (heap.toJson (.object id)).write
  | .host id => "Host(" ++ (heap.host id).className ++ ")"

/-- What is said of a thrown value: an object with a message is an error of its name. -/
def describeError (value : Value) : String :=
  match value with
  | .object id =>
    match (heap.entries id).find? "message" with
    | some (.string message) =>
      let name := match (heap.entries id).find? "name" with
        | some (.string name) => name
        | _ => "Error"
      name ++ ": " ++ message
    | _ => heap.display value
  | _ => heap.display value

/-- Items between brackets, on one line. -/
def bracket (opening closing : String) (items : List String) : String :=
  opening ++ " " ++ ", ".intercalate items ++ " " ++ closing

/-- What a console prints of a value, with `depth` more levels of places. -/
def inspect : Nat → Value → String
  | _, .string s => "'" ++ s ++ "'"
  | depth, .array id =>
    let items := (heap.items id).toList
    if items.isEmpty then "[]"
    else match depth with
      | 0 => "[Array]"
      | depth + 1 => bracket "[" "]" (items.map (inspect depth))
  | depth, .object id =>
    let entries := heap.entries id
    if (entries.find? "message").isSome && (entries.find? "name").isSome then
      heap.describeError (.object id)
    else if entries.isEmpty then "\x7b\x7d"
    else match depth with
      | 0 => "[Object]"
      | depth + 1 =>
        bracket "\x7b" "\x7d" (entries.map fun (key, item) => key ++ ": " ++ inspect depth item)
  | _, value => heap.display value

/-- The levels of places that a console prints. -/
def inspectDepth : Nat := 2

/-- The line that a console prints of its arguments. -/
def consoleLine (args : List Value) : String :=
  " ".intercalate (args.map fun arg => match arg with
    | .string s => s
    | value => heap.inspect inspectDepth value)

end Heap
end ScriptModules
