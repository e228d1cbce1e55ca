import ScriptModules.Decimal.Word
import ScriptModules.Machine.Basic
import ScriptModules.Text.Units
import ScriptModules.Value.Text

/-!
# Properties

Reading and writing the properties of values.  Items of arrays and units of texts are properties whose
key is their index.  The views of the loader are made anew each time that they are read.
-/

namespace ScriptModules.Run

/-- The number of something. -/
def count (n : Nat) : Value := .number (Decimal.ofInt n)

/-- The item of an array that a key stands for. -/
def itemAt (items : Array Value) (key : String) : Value :=
  ((Decimal.word? key).bind fun index => items[index]?).getD .undefined

/-- The unit of a text that a key stands for. -/
def unitOf (text key : String) : Value :=
  match (Decimal.word? key).bind (Text.unitAt? text.toList) with
  | some unit => .string unit.toString
  | none => .undefined

/-- The view of the entry module of a loader. -/
def mainView (id : LoaderId) : Run Value := do
  let loader ← loader id
  match loader.main with
  | some main => newHost (.module loader.cache main)
  | none => return .null

/-- A property of the view of a module; all are undefined once it is not in the cache. -/
def moduleProperty (cache : CacheId) (id : Path) (key : String) : Run Value := do
  let modules := (← heap).cache cache
  match modules.find? id with
  | none => return .undefined
  | some record =>
    match key with
    | "exports" => return record.exports
    | "id" | "filename" => return .string record.id.text
    | "path" => return .string record.dirname.text
    | "loaded" => return .boolean record.loaded
    | "parent" =>
      match record.parent with
      | some parent =>
        if modules.contains parent then newHost (.module cache parent) else return .null
      | none => return .null
    | "children" => newArray (← record.children.mapM fun child => newHost (.module cache child))
    | _ => return .undefined

/-- A property of a host object. -/
def hostProperty (id : HostId) (key : String) : Run Value := do
  match (← heap).host id with
  | .native name _ | .embedded name _ =>
    return if key = "name" then .string name else .undefined
  | .function definition _ properties =>
    match ((← heap).entries properties).find? key with
    | some value => return value
    | none =>
      match key with
      | "name" => return .string (definition.name.getD "")
      | "length" => return count definition.parameters.length
      | _ => return .undefined
  | .require loaderId dir _ =>
    match key with
    | "resolve" => newHost (.native "resolve" (.resolve loaderId dir))
    | "cache" => newHost (.cacheView (← loader loaderId).cache)
    | "main" => mainView loaderId
    | "name" => return .string "require"
    | _ => return .undefined
  | .module cache record => moduleProperty cache record key
  | .cacheView cache =>
    if ((← heap).cache cache).contains ⟨key⟩ then newHost (.module cache ⟨key⟩)
    else return .undefined

/-- A property of a value. -/
def property (target : Value) (key : String) : Run Value := do
  match target with
  | .object id => return (((← heap).entries id).find? key).getD .undefined
  | .array id =>
    let items := (← heap).items id
    return if key = "length" then count items.size else itemAt items key
  | .string text =>
    return if key = "length" then count (Text.unitLength text.toList) else unitOf text key
  | .host id => hostProperty id key
  | .undefined | .null => failType (.readFromNothing ((← heap).display target) key)
  | .boolean _ | .number _ => return .undefined

/-- Replaces what a module exports; tells if the module is in the cache. -/
def assignExports (cache : CacheId) (id : Path) (exports : Value) : Run Bool := update fun m =>
  if (m.heap.cache cache).contains id then
    (true, { m with
      heap := m.heap.updateCache cache (·.setExports id exports)
      events := .assigned cache id exports :: m.events })
  else (false, m)

/-- Sets a property of a host object. -/
def setHostProperty (id : HostId) (key : String) (value : Value) : Run Unit := do
  match (← heap).host id with
  | .function _ _ properties => changeHeap (·.setEntry properties key value)
  | .module cache record =>
    if key = "exports" then
      if ← assignExports cache record value then return ()
      else failType (.notCached record)
    else failType (.readOnly key "Module")
  | host => failType (.readOnly key host.className)

/-- Sets an item of an array. -/
def setItem (id : ArrayId) (index : Nat) (value : Value) : Run Unit :=
  tryHeap fun heap => (heap.writeItem id index value).mapError Failure.type

/-- Sets a property of a value.  Values that hold none take no notice. -/
def setProperty (target : Value) (key : String) (value : Value) : Run Unit := do
  match target with
  | .object id => changeHeap (·.setEntry id key value)
  | .array id =>
    match Decimal.word? key with
    | some index => setItem id index value
    | none => failType (.arrayProperty key)
  | .host id => setHostProperty id key value
  | .undefined | .null => failType (.writeToNothing ((← heap).display target) key)
  | .boolean _ | .number _ | .string _ => return ()

end ScriptModules.Run
