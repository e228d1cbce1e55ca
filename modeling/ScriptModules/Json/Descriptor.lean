import ScriptModules.Json.Read
import ScriptModules.Text.Quoted

/-!
# Package descriptors

Of a package descriptor only the field `main` is read; it may stand in an object, or first in a list.
Other fields are skipped: their values are checked for their shape, without a limit to how deep they
nest, and not for what they hold.
-/

namespace ScriptModules.Json

namespace Reader

/-- A bracket that has been opened. -/
inductive Bracket where
  | list
  | object
  deriving DecidableEq

/-- What a skipping reader does next. -/
inductive SkipMode where
  | value
  /-- Inside a bracket; a comma may come next if a value has been skipped there. -/
  | inside (afterValue : Bool)

/-- The digits of an exponent that is skipped, from its letter on. -/
def skipExponent : Reader Unit := do
  advance
  match ← peek? with
  | some '+' | some '-' => advance
  | _ => pure ()
  match ← peek? with
  | some c => if c.isDigit then let _ ← digits else failAt .badNumber
  | none => failAt .badNumber

/-- A number that is skipped, behind its sign. -/
def skipNumber : Reader Unit := do
  let ds ← digits
  if ds.isEmpty then failAt .badNumber
  else if ds.head? = some '0' ∧ 1 < ds.length then
    throw (.badNumber, (← get).offset - ds.length + 2)
  else
    if (← peek?) = some '.' then
      advance
      if (← digits).isEmpty then failAt .badNumber
    match ← peek? with
    | some 'e' | some 'E' => skipExponent
    | _ => return ()

/-- A value that is skipped, or the bracket that it opens. -/
def skipStart : Reader (Option Bracket) := do
  match ← peekBehindBlanks? with
  | none => failAt .endOfValue
  | some 'n' => advance; wordTail ['u', 'l', 'l']; return none
  | some 't' => advance; wordTail ['r', 'u', 'e']; return none
  | some 'f' => advance; wordTail ['a', 'l', 's', 'e']; return none
  | some '-' => advance; skipNumber; return none
  | some '"' =>
    advance
    let _ ← stringTail true ((← get).rest.length + 1)
    return none
  | some '[' => advance; return some .list
  | some '\x7b' => advance; return some .object
  | some c =>
    if c.isDigit then
      skipNumber
      return none
    else failAt .expectedValue

/-- The key before a value that is skipped, if it stands in an object. -/
def skipKey : Bracket → Reader Unit
  | .list => return ()
  | .object => do
    match ← peekBehindBlanks? with
    | some '"' =>
      advance
      let _ ← stringTail true ((← get).rest.length + 1)
      colon
    | some _ => failAt .keyNotString
    | none => failAt .endOfObject

/-- Skips a value, or the rest of the brackets that are open, the innermost first. -/
def skip : Nat → SkipMode → List Bracket → Reader Unit
  | 0, _, _ => failBehind .endOfValue
  | fuel + 1, .value, opened => do
    match ← skipStart with
    | some bracket => skip fuel (.inside false) (bracket :: opened)
    | none => skip fuel (.inside true) opened
  | _ + 1, .inside _, [] => return ()
  | fuel + 1, .inside afterValue, bracket :: outer => do
    match ← peekBehindBlanks?, bracket with
    | none, .list => failAt .endOfList
    | none, .object => failAt .endOfObject
    | some ']', .list => advance; skip fuel (.inside true) outer
    | some '\x7d', .object => advance; skip fuel (.inside true) outer
    | some c, _ =>
      if afterValue then
        if c = ',' then
          advance
          skipKey bracket
          skip fuel .value (bracket :: outer)
        else failAt (match bracket with | .list => .expectedListEnd | .object => .expectedObjectEnd)
      else
        skipKey bracket
        skip fuel .value (bracket :: outer)

/-- The fields of a descriptor, of which `main` is kept. -/
def descriptorFields : Nat → Bool → Option Json → Reader (Option Json)
  | 0, _, _ => failBehind .endOfObject
  | fuel + 1, first, main? => do
    if ← anotherKey first then
      advance
      let key ← string
      if key = "main" then
        if main?.isSome then
          -- the end of the object is still looked for
          if (← peekBehindBlanks?) = some '\x7d' then advance
          failBehind (.duplicateField "main")
        else
          colon
          let found ← value (nestingLimit - 1)
          descriptorFields fuel false (some found)
      else
        colon
        skip (2 * (← get).rest.length + 2) .value []
        descriptorFields fuel false main?
    else return main?

/-- The end of a descriptor that is a list of at most one item. -/
def descriptorListEnd : Reader Unit := do
  match ← peekBehindBlanks? with
  | some ']' => advance
  | some ',' =>
    advance
    if (← peekBehindBlanks?) = some ']' then failAt .trailingComma else failAt .trailingText
  | some _ => failAt .trailingText
  | none => failAt .endOfList

/-- What a value that is no descriptor is called. -/
def shownForm : Json → String
  | .null => "null"
  | .boolean b => "boolean \x60" ++ (if b then "true" else "false") ++ "\x60"
  | .integer n => "integer \x60" ++ toString n ++ "\x60"
  | .float x => "floating point \x60" ++ Decimal.json.write x ++ "\x60"
  | .string s => "string " ++ Text.quote s
  | .array _ => "sequence"
  | .object _ => "map"

/-- The value of `main` in a descriptor. -/
def descriptorMain : Reader (Option Json) := do
  match ← peekBehindBlanks? with
  | none => failAt .endOfValue
  | some '[' =>
    advance
    let main? ← if ← anotherItem true then some <$> value (nestingLimit - 1) else pure none
    descriptorListEnd
    return main?
  | some '\x7b' =>
    advance
    let main? ← descriptorFields ((← get).rest.length + 1) true none
    advance
    return main?
  | some _ =>
    let other ← valueOver none
    failBehind (.notDescriptor (shownForm other))

end Reader

/-- The text of the field `main` of a descriptor, if it is a text and not empty. -/
def descriptorMain? (text : String) : Except Fault (Option String) :=
  (Reader.descriptorMain.runAll text).map fun
    | some (.string s) => if s = "" then none else some s
    | _ => none

end ScriptModules.Json
