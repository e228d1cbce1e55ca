import ScriptModules.Machine.Native

/-!
# Globals and builtin modules

What every program finds in its outermost scope, and the modules that are offered by name.
-/

namespace ScriptModules.Run

/-- A new native function. -/
def newNative (name : String) (action : Native) : Run (String × Value) := do
  return (name, ← newHost (.native name action))

/-- The bindings of the outermost scope. -/
def globals : Run (List (String × Value)) := do
  let console ← newObject [
    ← newNative "log" (.print .output), ← newNative "info" (.print .output),
    ← newNative "warn" (.print .error), ← newNative "error" (.print .error)]
  let json ← newObject [← newNative "stringify" .writeJson, ← newNative "parse" .readJson]
  let errors ← ["Error", "TypeError", "RangeError", "SyntaxError"].mapM fun name =>
    newNative name (.makeError name)
  return [("undefined", .undefined), ("NaN", .number (0.0 / 0.0)),
    ("Infinity", .number (1.0 / 0.0)), ("console", console), ("JSON", json)] ++ errors

/-- The builtin module for the files of a site. -/
def fileModule (site : SiteId) : Run Value := do
  newObject (← [("readFileSync", FileCall.read), ("writeFileSync", .write), ("existsSync", .exists_),
    ("readdirSync", .list), ("statSync", .status)].mapM fun (name, call) =>
      newNative name (.file call site))

/-- The builtin module for paths. -/
def pathModule (site : SiteId) : Run Value := do
  let functions ← [("join", PathCall.join), ("resolve", .resolve), ("normalize", .normalize),
    ("dirname", .dirName), ("basename", .baseName), ("extname", .extName),
    ("isAbsolute", .isAbsolute)].mapM fun (name, call) => newNative name (.path call site)
  newObject ([("sep", .string Path.separator.toString),
    ("delimiter", .string Path.delimiter.toString)] ++ functions)

end ScriptModules.Run
