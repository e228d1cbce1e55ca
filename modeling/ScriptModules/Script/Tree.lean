import ScriptModules.Decimal.Layout

/-!
# The syntax tree of a script

Statements, expressions and functions contain one another.  Parentheses leave no trace in the tree.
-/

namespace ScriptModules.Script

inductive UnaryOperator where
  | minus | plus | not | typeof
  deriving DecidableEq, Repr

inductive BinaryOperator where
  | add | subtract | multiply | divide | modulo
  | equal | notEqual | strictEqual | strictNotEqual
  | lessThan | lessThanEqual | greaterThan | greaterThanEqual
  deriving DecidableEq, Repr

/-- The operators that may leave their right side unevaluated. -/
inductive LogicalOperator where
  | and | or
  deriving DecidableEq, Repr

inductive DeclarationKind where
  | var_ | let_ | const_
  deriving DecidableEq, Repr

mutual

inductive Expression where
  | number (value : Float)
  | string (value : String)
  | boolean (value : Bool)
  | null
  | identifier (name : String)
  | array (items : List Expression)
  | object (entries : List (String × Expression))
  | function (definition : Function)
  /-- `object.name` -/
  | member (object : Expression) (name : String)
  /-- `object[key]` -/
  | index (object key : Expression)
  | call (callee : Expression) (arguments : List Expression)
  | construct (callee : Expression) (arguments : List Expression)
  | unary (operator : UnaryOperator) (operand : Expression)
  | binary (operator : BinaryOperator) (left right : Expression)
  | logical (operator : LogicalOperator) (left right : Expression)
  | assign (target value : Expression)

inductive Statement where
  | declare (kind : DeclarationKind) (bindings : List (String × Option Expression))
  | expression (value : Expression)
  | block (body : List Statement)
  | branch (test : Expression) (yes : Statement) (no : Option Statement)
  | throw_ (value : Expression)
  | function (definition : Function)
  | return_ (value : Option Expression)
  | try_ (body : List Statement) (handler : Option Handler) (finalizer : Option (List Statement))
  | empty

/-- A function as it is written down. -/
inductive Function where
  | mk (name : Option String) (parameters : List String) (body : List Statement)

/-- What a `try` does with an error. -/
inductive Handler where
  | mk (parameter : Option String) (body : List Statement)

end

instance : Inhabited Expression := ⟨.null⟩

instance : Inhabited Statement := ⟨.empty⟩

instance : Inhabited Function := ⟨.mk none [] []⟩

namespace Function

def name : Function → Option String
  | .mk name _ _ => name

def parameters : Function → List String
  | .mk _ parameters _ => parameters

def body : Function → List Statement
  | .mk _ _ body => body

end Function

namespace Expression

/-- Can the expression stand on the left of `=`? -/
def isTarget : Expression → Bool
  | identifier _ | member .. | index .. => true
  | _ => false

/-- A short rendering for messages, such as `a.b` or `a[...]`. -/
def describe : Expression → String
  | identifier name => name
  | member base name => base.describe ++ "." ++ name
  | index base _ => base.describe ++ "[...]"
  | call callee _ => callee.describe ++ "(...)"
  | string s => "\"" ++ s ++ "\""
  | number x => Decimal.script.write x
  | function (.mk (some name) _ _) => "function " ++ name
  | function (.mk none _ _) => "function"
  | _ => "expression"

end Expression
end ScriptModules.Script
