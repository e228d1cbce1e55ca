import ScriptModules.Value.Text

/-!
# Failures as text and as values

What is said of a failure, and the value that a script sees when it catches one.
-/

namespace ScriptModules

namespace Heap

variable (heap : Heap)

/-- The failure in words. -/
def describe : Failure → String
  | .notFound specifier base => "Cannot find module '" ++ specifier ++ "' from '" ++ base.text ++ "'"
  | .descriptor path reason => "Invalid package descriptor " ++ path.text ++ ": " ++ reason
  | .access path reason => "Failed to access " ++ path.text ++ ": " ++ reason
  | .data path fault => "Failed to parse " ++ path.text ++ ": " ++ fault.message
  | .source filename line cause =>
    "SyntaxError: " ++ cause.message ++ " (" ++ filename ++ ":" ++ toString line ++ ")"
  | .thrown value => "Uncaught " ++ heap.describeError value
  | .type cause => "TypeError: " ++ cause.message
  | .reference cause => "ReferenceError: " ++ cause.message
  | .nativeAddon path => "Native addons are not supported: " ++ path.text
  | .config cause => "Configuration error: " ++ cause.message

/-- Makes an error object. -/
def newError (name message : String) (more : List (String × Value)) : Value × Heap :=
  let (id, heap) := heap.newObject
    (Keyed.ofList ([("name", .string name), ("message", .string message)] ++ more))
  (.object id, heap)

/-- The value that is caught for a failure: what was thrown is caught as it is, and all else as an error
object. -/
def caught (failure : Failure) : Value × Heap :=
  match failure with
  | .thrown value => (value, heap)
  | .type cause => heap.newError "TypeError" cause.message []
  | .reference cause => heap.newError "ReferenceError" cause.message []
  | .source filename line cause =>
    heap.newError "SyntaxError"
      (cause.message ++ " (" ++ filename ++ ":" ++ toString line ++ ")") []
  | .notFound .. =>
    heap.newError "Error" (heap.describe failure) [("code", .string "MODULE_NOT_FOUND")]
  | _ => heap.newError "Error" (heap.describe failure) []

end Heap
end ScriptModules
