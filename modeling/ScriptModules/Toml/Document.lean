import ScriptModules.Decimal.Binary
import ScriptModules.Decimal.Layout

/-!
# TOML values

The values of a TOML document, and how they are written on one line (`write` inside of others,
`writeAlone` by themselves).  A table holds its entries in the order of the document.
-/

namespace ScriptModules

inductive Toml where
  | string (value : String)
  | integer (value : Int)
  | float (value : Float)
  /-- The number that is none. -/
  | notNumber
  | boolean (value : Bool)
  /-- A date, a time, or both, as it is written. -/
  | moment (text : String)
  | array (items : List Toml)
  | table (entries : List (String × Toml))
  deriving Inhabited

namespace Toml

/-- A character that can only be written with an escape. -/
def isControl (c : Char) : Bool := c.toNat < 0x20 && c ≠ '\t' && c ≠ '\n' || c.toNat = 0x7f

private def hexDigits (n : Nat) : String :=
  String.ofList ((List.replicate 4 '0' ++ (Nat.toDigits 16 n).map Char.toUpper).reverse.take 4
    |>.reverse)

/-- A character other than a quote between double quotes; line feeds stay in a text of several lines. -/
def escape (lines : Bool) (c : Char) : String :=
  if c = '\\' then "\\\\"
  else if c = '\n' then if lines then "\n" else "\\n"
  else if c = '\t' then "\\t"
  else if c = '\r' then "\\r"
  else if c.toNat = 0x08 then "\\b"
  else if c.toNat = 0x0c then "\\f"
  else if isControl c then "\\u" ++ hexDigits c.toNat
  else c.toString

/-- The text between double quotes.  Of the quotes that follow each other, `quotes` may stand before one
has to be escaped; `room` of them are left. -/
def escapeAll (lines : Bool) (quotes : Nat) : Nat → List Char → String
  | _, [] => ""
  | room, c :: cs =>
    if c = '"' then
      match room with
      | 0 => "\\\"" ++ escapeAll lines quotes quotes cs
      | room + 1 => "\"" ++ escapeAll lines quotes room cs
    else escape lines c ++ escapeAll lines quotes quotes cs

/-- A text on one line between double quotes. -/
def quoted (cs : List Char) : String := "\"" ++ escapeAll false 0 0 cs ++ "\""

/-- A text as it is, on one line between single quotes. -/
def verbatim (cs : List Char) : String := "'" ++ String.ofList cs ++ "'"

/-- The longest run of a character. -/
def longestRun (q : Char) : Nat → Nat → List Char → Nat
  | run, best, [] => max run best
  | run, best, c :: cs => if c = q then longestRun q (run + 1) best cs
    else longestRun q 0 (max run best) cs

/-- Writes a text in the first of the forms that holds it with no more than its tabs escaped: between
double quotes, between single quotes, between three double quotes, between three single quotes; or else
with escapes.  Between three quotes, a text of several lines begins on a line of its own. -/
def writeString (s : String) : String :=
  let cs := s.toList
  let lines := cs.contains '\n'
  let doubles := longestRun '"' 0 0 cs
  let singles := longestRun '\'' 0 0 cs
  let control := cs.any isControl
  let backslash := cs.contains '\\'
  let start := if lines then "\n" else ""
  let quotedLines := "\"\"\"" ++ start ++ escapeAll true 2 2 cs ++ "\"\"\""
  if !control && !backslash && doubles = 0 && !lines then quoted cs
  else if !control && singles = 0 && !lines then verbatim cs
  else if !control && !backslash && doubles < 3 then quotedLines
  else if !control && singles < 3 then "'''" ++ start ++ s ++ "'''"
  else if lines then quotedLines
  else quoted cs

/-- A character of a key without quotes. -/
def isBare (c : Char) : Bool := c.isAlphanum || c = '_' || c = '-'

/-- Writes a key: without quotes if it can be, and on one line. -/
def writeKey (key : String) : String :=
  let cs := key.toList
  let control := cs.any fun c => isControl c || c = '\n'
  if key ≠ "" && cs.all isBare then key
  else if control || !cs.contains '"' && !cs.contains '\\' || cs.contains '\'' then quoted cs
  else verbatim cs

example : writeString "it's \"so\"" = "\"\"\"it's \"so\"\"\"\"" := by decide +kernel

example : writeString "\"\"\"'" = "'''\"\"\"''''" := by decide +kernel

/-- Writes a number with a fraction, if only a zero. -/
def writeFloat (x : Float) : String :=
  let text := Decimal.plain.write x
  if Decimal.isIntegral x then text ++ ".0" else text

mutual

/-- Writes a value on one line. -/
def write : Toml → String
  | string s => writeString s
  | integer n => toString n
  | float x => writeFloat x
  | notNumber => "nan"
  | boolean b => if b then "true" else "false"
  | moment text => text
  | array items => "[" ++ ", ".intercalate (writeItems items) ++ "]"
  | table [] => "\x7b\x7d"
  | table (entry :: entries) =>
    "\x7b " ++ ", ".intercalate (writeEntries (entry :: entries)) ++ " \x7d"

def writeItems : List Toml → List String
  | [] => []
  | item :: rest => write item :: writeItems rest

def writeEntries : List (String × Toml) → List String
  | [] => []
  | (key, value) :: rest => (writeKey key ++ " = " ++ write value) :: writeEntries rest

end

/-- The key that marks a moment. -/
def momentKey : String := "$__toml_private_datetime"

/-- Writes a value that stands alone.  A moment is then written as a table with its text under a key of
its own. -/
def writeAlone : Toml → String
  | moment text => (table [(momentKey, string text)]).write
  | value => value.write

end Toml
end ScriptModules
