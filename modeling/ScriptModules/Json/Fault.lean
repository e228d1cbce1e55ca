/-!
# Why a text is no JSON document

A fault names its cause and the number of bytes up to where it was noticed; line and column are counted
from there.
-/

namespace ScriptModules.Json

inductive Cause where
  | endOfList | endOfObject | endOfString | endOfValue
  | expectedColon | expectedListEnd | expectedObjectEnd
  | expectedWord | expectedValue
  | badEscape | badNumber | numberRange | controlCharacter
  | keyNotString | loneSurrogate | trailingComma | trailingText | brokenSurrogatePair
  | tooDeep
  /-- A descriptor names this field twice. -/
  | duplicateField (name : String)
  /-- Something else stands where a descriptor is expected. -/
  | notDescriptor (found : String)
  deriving DecidableEq, Repr

/-- The cause in words. -/
def Cause.message : Cause → String
  | endOfList => "EOF while parsing a list"
  | endOfObject => "EOF while parsing an object"
  | endOfString => "EOF while parsing a string"
  | endOfValue => "EOF while parsing a value"
  | expectedColon => "expected " ++ "\x60:\x60"
  | expectedListEnd => "expected \x60,\x60 or \x60]\x60"
  | expectedObjectEnd => "expected \x60,\x60 or \x60\x7d\x60"
  | expectedWord => "expected ident"
  | expectedValue => "expected value"
  | badEscape => "invalid escape"
  | badNumber => "invalid number"
  | numberRange => "number out of range"
  | controlCharacter => "control character (\\u0000-\\u001F) found while parsing a string"
  | keyNotString => "key must be a string"
  | loneSurrogate => "lone leading surrogate in hex escape"
  | trailingComma => "trailing comma"
  | trailingText => "trailing characters"
  | brokenSurrogatePair => "unexpected end of hex escape"
  | tooDeep => "recursion limit exceeded"
  | duplicateField name => "duplicate field \x60" ++ name ++ "\x60"
  | notDescriptor found => "invalid type: " ++ found ++ ", expected struct PackageDescriptor"

/-- A cause with its line and its column; the first line is 1, and a column counts the bytes of the line
up to the fault. -/
structure Fault where
  cause : Cause
  line : Nat
  column : Nat
  deriving DecidableEq, Repr

/-- The line and the column after the first `bytes` bytes of a text. -/
def lineAndColumn : Nat → List Char → Nat → Nat → Nat × Nat
  | _, [], line, column => (line, column)
  | bytes, c :: cs, line, column =>
    if bytes < c.utf8Size then (line, column + bytes)
    else if c = '\n' then lineAndColumn (bytes - 1) cs (line + 1) 0
    else lineAndColumn (bytes - c.utf8Size) cs line (column + c.utf8Size)

/-- The fault with this cause after the first `bytes` bytes of a text. -/
def Fault.locate (text : List Char) (cause : Cause) (bytes : Nat) : Fault :=
  let (line, column) := lineAndColumn bytes text 1 0
  ⟨cause, line, column⟩

/-- The fault in words. -/
def Fault.message (fault : Fault) : String :=
  fault.cause.message ++ " at line " ++ toString fault.line ++ " column " ++ toString fault.column

end ScriptModules.Json
