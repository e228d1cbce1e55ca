import ScriptModules.Text.Visible

/-!
# Quoted text

A text between double quotes, as messages show it: the quote and the backslash are escaped, line ends,
tabs and NUL have short forms, and every other character that cannot be seen is written by its code
point in hexadecimal.
-/

namespace ScriptModules.Text

/-- The code point of `c` in lower-case hexadecimal. -/
def hexCode (c : Char) : String := String.ofList (Nat.toDigits 16 c.toNat)

/-- One character inside double quotes. -/
def quoteChar (c : Char) : String :=
  if c = '"' then "\\\""
  else if c = '\\' then "\\\\"
  else if c = '\n' then "\\n"
  else if c = '\r' then "\\r"
  else if c = '\t' then "\\t"
  else if c.toNat = 0 then "\\0"
  else if isVisible c then c.toString
  else "\\u\x7b" ++ hexCode c ++ "\x7d"

/-- The text between double quotes. -/
def quote (s : String) : String :=
  s.toList.foldl (fun out c => out ++ quoteChar c) "\"" ++ "\""

end ScriptModules.Text
