import ScriptModules.Script.Token

/-!
# Why a text is no program

A fault names its cause and the byte where it was found; the line is counted from there.
-/

namespace ScriptModules.Script

inductive SyntaxCause where
  | expectedMark (mark : Mark) (found : Kind)
  | expectedName (found : Kind)
  | unexpectedToken (found : Kind)
  | endOfInput
  | reservedWord (word : String)
  | lexical (fault : LexicalFault)
  | missingInitializer
  | missingHandler
  | missingFunctionName
  | invalidTarget
  | tooDeep
  deriving DecidableEq

/-- The cause in words. -/
def SyntaxCause.message : SyntaxCause → String
  | expectedMark mark found => "Expected " ++ mark.name ++ ", found " ++ found.shown
  | expectedName found => "Expected identifier, found " ++ found.shown
  | unexpectedToken found => "Unexpected token " ++ found.shown
  | endOfInput => "Unexpected end of input"
  | reservedWord word => "'" ++ word ++ "' is not supported"
  | lexical fault => fault.message
  | missingInitializer => "Missing initializer in const declaration"
  | missingHandler => "Missing catch or finally after try"
  | missingFunctionName => "Function statements require a function name"
  | invalidTarget => "Invalid left-hand side in assignment"
  | tooDeep => "Nesting is too deep"

structure SyntaxFault where
  cause : SyntaxCause
  offset : Nat
  deriving DecidableEq

/-- The number of line feeds among the first `bytes` bytes of a text. -/
def lineFeedsWithin : Nat → List Char → Nat
  | _, [] => 0
  | bytes, c :: cs =>
    if bytes = 0 then 0
    else (if c = '\n' then 1 else 0) + lineFeedsWithin (bytes - c.utf8Size) cs

/-- The line of the fault in its text; the first line is 1. -/
def SyntaxFault.line (fault : SyntaxFault) (source : String) : Nat :=
  lineFeedsWithin fault.offset source.toList + 1

end ScriptModules.Script
