import ScriptModules.Decimal.Layout
import ScriptModules.Keyed

/-!
# JSON documents

A document keeps integers and other numbers apart, and holds the entries of its objects in the order of
their keys.  `write` has no blanks; `writeIndented` puts each item on a line of its own.
-/

namespace ScriptModules

inductive Json where
  | null
  | boolean (value : Bool)
  | integer (value : Int)
  | float (value : Float)
  | string (value : String)
  | array (items : List Json)
  | object (entries : List (String × Json))
  deriving Inhabited

namespace Json

private def hexDigit (n : Nat) : Char := (Nat.digitChar n)

/-- One character of a string: quotes, backslashes and control characters are escaped. -/
def escape (c : Char) : String :=
  if c = '"' then "\\\""
  else if c = '\\' then "\\\\"
  else if c = '\n' then "\\n"
  else if c = '\r' then "\\r"
  else if c = '\t' then "\\t"
  else if c.toNat = 0x08 then "\\b"
  else if c.toNat = 0x0c then "\\f"
  else if c.toNat < 0x20 then
    "\\u00" ++ String.ofList [hexDigit (c.toNat / 16), hexDigit (c.toNat % 16)]
  else c.toString

/-- A string between quotes. -/
def writeString (s : String) : String :=
  s.toList.foldl (fun out c => out ++ escape c) "\"" ++ "\""

mutual

/-- Writes a document without blanks. -/
def write : Json → String
  | null => "null"
  | boolean b => if b then "true" else "false"
  | integer n => toString n
  | float x => Decimal.json.write x
  | string s => writeString s
  | array items => "[" ++ ",".intercalate (writeItems items) ++ "]"
  | object entries => "\x7b" ++ ",".intercalate (writeEntries entries) ++ "\x7d"

def writeItems : List Json → List String
  | [] => []
  | item :: rest => write item :: writeItems rest

def writeEntries : List (String × Json) → List String
  | [] => []
  | (key, value) :: rest => (writeString key ++ ":" ++ write value) :: writeEntries rest

end

/-- Lines of items between brackets, each indented by two more blanks than the brackets. -/
def bracketLines (opening closing : String) (indent : Nat) (lines : List String) : String :=
  let margin := String.ofList (List.replicate indent ' ')
  if lines.isEmpty then opening ++ closing
  else
    opening ++ "\n" ++ ",\n".intercalate (lines.map fun line => margin ++ "  " ++ line) ++ "\n"
      ++ margin ++ closing

mutual

/-- Writes a document with each item on a line of its own. -/
def writeIndented (indent : Nat) : Json → String
  | array items => bracketLines "[" "]" indent (indentedItems (indent + 2) items)
  | object entries => bracketLines "\x7b" "\x7d" indent (indentedEntries (indent + 2) entries)
  | document => document.write

def indentedItems (indent : Nat) : List Json → List String
  | [] => []
  | item :: rest => writeIndented indent item :: indentedItems indent rest

def indentedEntries (indent : Nat) : List (String × Json) → List String
  | [] => []
  | (key, value) :: rest =>
    (writeString key ++ ": " ++ writeIndented indent value) :: indentedEntries indent rest

end

end Json
end ScriptModules
