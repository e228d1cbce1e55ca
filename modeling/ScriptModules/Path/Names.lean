import ScriptModules.Path.Basic

/-!
# The names in a path

What scripts see of a path as text: its directory, its base name, its extension, and the parts that it
can be rebuilt from.
-/

namespace ScriptModules.Path

/-- The part of a base name from its last dot; a dot at the start is no extension. -/
def extensionOfName (base : List Char) : List Char :=
  if '.' ∈ base.tail then '.' :: (base.reverse.takeWhile (· ≠ '.')).reverse else []

/-- The last step of a path, or nothing. -/
def baseName (text : String) : String := (Path.mk text).fileName?.getD ""

/-- The base name without `suffix`, unless it is nothing but `suffix`. -/
def baseNameWithout (text suffix : String) : String :=
  let name := baseName text
  if name ≠ suffix ∧ suffix.toList <:+ name.toList then
    String.ofList (name.toList.take (name.length - suffix.length))
  else name

/-- The directory of a path as it was written; `.` if it has none, and the root is its own. -/
def dirName (text : String) : String :=
  match (Path.mk text).parent? with
  | some ⟨""⟩ => "."
  | some parent => parent.text
  | none => if (Path.mk text).isAbsolute then text else "."

/-- The extension of the base name with its dot, or nothing. -/
def extName (text : String) : String :=
  String.ofList (extensionOfName (baseName text).toList)

/-- The extension of a path, if it has one. -/
def extension? (p : Path) : Option String :=
  match extName p.text with
  | "" => none
  | ext => some ext

/-- Joins the non-empty parts by separators and normalizes; a rooted part does not start anew. -/
def joinAll (parts : List String) : String :=
  (Path.mk ("/".intercalate (parts.filter (· ≠ "")))).normalize.text

/-- Appends the parts to `cwd` one by one, starting anew at a rooted part, and normalizes. -/
def resolveAll (cwd : Path) (parts : List String) : String :=
  (parts.foldl (fun p part => p.join ⟨part⟩) cwd).normalize.text

/-- The parts that a path can be rebuilt from. -/
structure Parts where
  root : String
  dir : String
  base : String
  ext : String
  name : String
  deriving DecidableEq, Repr

/-- Takes a path apart. -/
def parts (text : String) : Parts :=
  let root := if (Path.mk text).isAbsolute then "/" else ""
  let base := baseName text
  let ext := extName text
  { root
    dir := if base = "" then root else dirName text
    base
    ext
    name := String.ofList (base.toList.take (base.length - ext.length)) }

end ScriptModules.Path
