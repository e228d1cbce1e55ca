import ScriptModules.Machine.Globals
import ScriptModules.Script.Parse
import ScriptModules.Value.Operator

/-!
# Evaluation

How programs run.  Every rule is stated over the steps that may be taken inside of it (`Steps`), so that
a rule says what it does itself and leaves open how deep the rest goes.  A rule leaves the environment
and the depth of calls as it found them.
-/

namespace ScriptModules

/-- How a statement ends. -/
inductive Completion where
  /-- At its end, with the value of the last expression if there was one. -/
  | normal (value : Option Value)
  /-- At a `return`. -/
  | returned (value : Value)

/-- What may be done inside of a rule. -/
structure Steps where
  execute : Script.Statement → Run Completion
  evaluate : Script.Expression → Run Value
  /-- Calls a host object. -/
  call : HostId → List Value → Run Value

/-- How many calls of script functions may be inside of each other. -/
def callLimit : Nat := 128

namespace Run

variable {α : Type}

/-! ## Environments -/

/-- Runs in an environment of its own, and comes back. -/
def within (environment : Environment) (run : Run α) : Run α :=
  bracket Machine.environment (fun m => { m with environment })
    (fun outside m => { m with environment := outside }) run

/-- Runs in a new block, and leaves it. -/
def inBlock (run : Run α) : Run α :=
  bracket (fun _ => ())
    (fun m =>
      let owner := (m.heap.scope m.environment.function).owner
      let (id, heap) := m.heap.newScope ⟨owner, []⟩
      { m with heap, environment := m.environment.push id })
    (fun () m => { m with environment := m.environment.pop }) run

/-- The scopes of the code that is run. -/
def environment : Run Environment := read Machine.environment

/-- The value of a name, if it is bound. -/
def lookup? (name : String) : Run (Option Value) := do
  return (← heap).lookup? (← environment) name

/-- Declares a variable of the function. -/
def declareVariable (name : String) (value? : Option Value) : Run Unit := do
  let environment ← environment
  changeHeap fun heap => heap.declareVariable environment name value?

/-- Declares a name of the innermost scope. -/
def declareLexical (name : String) (value : Value) (mutable : Bool) : Run Unit := do
  let environment ← environment
  tryHeap fun heap => heap.declareLexical environment name value mutable

/-- Assigns to a name. -/
def assign (name : String) (value : Value) : Run Unit := do
  let environment ← environment
  tryHeap fun heap => heap.assign environment name value

/-! ## Failures -/

/-- Runs, and hands a failure to a handler.  The failure goes no further. -/
def catching (run : Run α) (handler : Failure → Run α) : Run α := do
  let since ← now
  match ← attempt run with
  | .ok a => return a
  | .error failure =>
    note (.dropped since (← now))
    handler failure

/-- Runs, and runs something last whatever the outcome.  If that fails or returns, the first outcome is
dropped. -/
def ensuring (run last : Run Completion) : Run Completion := do
  let since ← now
  let outcome ← attempt run
  let till ← now
  match ← onFailure last fun _ => note (.dropped since till) with
  | .returned value =>
    note (.dropped since till)
    return .returned value
  | .normal _ => ofExcept outcome

/-! ## Functions -/

/-- A new function that sees the scopes of the code that is run. -/
def newFunction (definition : Script.Function) : Run Value := do
  let properties ← make fun heap => heap.newObject []
  newHost (.function definition (← environment) properties)

/-- Declares the functions among the statements of a body before it runs. -/
def hoist : List Script.Statement → Run Unit
  | [] => return ()
  | .function definition :: rest => do
    if let some name := definition.name then
      declareVariable name (some (← newFunction definition))
    hoist rest
  | _ :: rest => hoist rest

end Run

namespace Steps

open Run

variable (next : Steps)

/-! ## Statements -/

/-- Runs statements in order; the last value is kept. -/
def executeAll : List Script.Statement → Option Value → Run Completion
  | [], last => return .normal last
  | statement :: rest, last => do
    match ← next.execute statement with
    | .normal value => executeAll rest (value <|> last)
    | .returned value => return .returned value

/-- Runs the body of a block, a function or a program. -/
def executeBody (body : List Script.Statement) : Run Completion := do
  hoist body
  next.executeAll body none

/-- Binds what was thrown, and runs the body of a handler. -/
def executeCatch (handler : Script.Handler) (thrown : Value) : Run Completion :=
  inBlock do
    match handler with
    | .mk parameter body =>
      if let some name := parameter then declareLexical name thrown true
      next.executeBody body

/-- Runs a block with what is done with its failures and after it. -/
def executeTry (body : List Script.Statement) (handler : Option Script.Handler)
    (finalizer : Option (List Script.Statement)) : Run Completion :=
  let tried := inBlock (next.executeBody body)
  let handled := match handler with
    | none => tried
    | some handler => catching tried fun failure => do
      next.executeCatch handler (← make fun heap => heap.caught failure)
  match finalizer with
  | none => handled
  | some finalizer => ensuring handled (inBlock (next.executeBody finalizer))

/-- Declares one name of a declaration. -/
def declare (kind : Script.DeclarationKind) (name : String) (value? : Option Value) : Run Unit :=
  match kind with
  | .var_ => declareVariable name value?
  | .let_ => declareLexical name (value?.getD .undefined) true
  | .const_ => declareLexical name (value?.getD .undefined) false

/-- Runs a declaration, name by name. -/
def declareAll (kind : Script.DeclarationKind) :
    List (String × Option Script.Expression) → Run Unit
  | [] => return ()
  | (name, value?) :: rest => do
    let value? ← match value? with
      | some value => some <$> next.evaluate value
      | none => pure none
    declare kind name value?
    declareAll kind rest

/-- Runs a statement. -/
def executeStatement : Script.Statement → Run Completion
  | .declare kind bindings => do
    next.declareAll kind bindings
    return .normal none
  | .expression value => return .normal (some (← next.evaluate value))
  | .block body => inBlock (next.executeBody body)
  | .branch test yes no => do
    if (← next.evaluate test).truthy then next.execute yes
    else match no with
      | some no => next.execute no
      | none => return .normal none
  | .throw_ value => do fail (.thrown (← next.evaluate value))
  | .function _ => return .normal none
  | .return_ value? =>
    match value? with
    | some value => return .returned (← next.evaluate value)
    | none => return .returned .undefined
  | .try_ body handler finalizer => next.executeTry body handler finalizer
  | .empty => return .normal none

/-! ## Expressions -/

/-- Evaluates expressions in order. -/
def evaluateAll : List Script.Expression → Run (List Value)
  | [] => return []
  | expression :: rest => do
    let value ← next.evaluate expression
    return value :: (← evaluateAll rest)

/-- Evaluates the entries of an object in order. -/
def evaluateEntries : List (String × Script.Expression) → Run (List (String × Value))
  | [] => return []
  | (key, expression) :: rest => do
    let value ← next.evaluate expression
    return (key, value) :: (← evaluateEntries rest)

/-- Makes a function; one with a name sees itself under it. -/
def evaluateFunction (definition : Script.Function) : Run Value :=
  match definition.name with
  | none => newFunction definition
  | some name => inBlock do
    let function ← newFunction definition
    declareLexical name function false
    return function

/-- The text of a value as a key. -/
def keyOf (value : Value) : Run String := do return (← heap).display value

/-- Calls the value of an expression. -/
def evaluateCall (callee : Script.Expression) (args : List Script.Expression) : Run Value := do
  let function ← next.evaluate callee
  let args ← next.evaluateAll args
  match function with
  | .host id =>
    if ((← heap).host id).isCallable then next.call id args
    else failType (.notCallable callee.describe)
  | _ => failType (.notCallable callee.describe)

/-- Assigns; the object and the key of the target come before the value. -/
def evaluateAssign (target value : Script.Expression) : Run Value := do
  match target with
  | .identifier name =>
    let value ← next.evaluate value
    assign name value
    return value
  | .member object name =>
    let object ← next.evaluate object
    let value ← next.evaluate value
    setProperty object name value
    return value
  | .index object key =>
    let object ← next.evaluate object
    let key ← keyOf (← next.evaluate key)
    let value ← next.evaluate value
    setProperty object key value
    return value
  | _ => fail (.reference .invalidTarget)

/-- Applies an operator with one side.  The kind of a name that is not bound is that of `undefined`. -/
def evaluateUnary (operator : Script.UnaryOperator) (operand : Script.Expression) : Run Value := do
  match operator, operand with
  | .typeof, .identifier name =>
    match ← lookup? name with
    | none => return .string "undefined"
    | some value => return (← heap).unary .typeof value
  | _, _ =>
    let value ← next.evaluate operand
    return (← heap).unary operator value

/-- Evaluates an expression. -/
def evaluateExpression : Script.Expression → Run Value
  | .number value => return .number value
  | .string value => return .string value
  | .boolean value => return .boolean value
  | .null => return .null
  | .identifier name => do
    match ← lookup? name with
    | some value => return value
    | none => fail (.reference (.undeclared name))
  | .array items => do newArray (← next.evaluateAll items)
  | .object entries => do newObject (← next.evaluateEntries entries)
  | .function definition => evaluateFunction definition
  | .member object name => do property (← next.evaluate object) name
  | .index object key => do
    let object ← next.evaluate object
    property object (← keyOf (← next.evaluate key))
  | .call callee args => next.evaluateCall callee args
  | .construct callee args => next.evaluateCall callee args
  | .unary operator operand => next.evaluateUnary operator operand
  | .binary operator left right => do
    let left ← next.evaluate left
    let right ← next.evaluate right
    return (← heap).binary operator left right
  | .logical operator left right => do
    let left ← next.evaluate left
    if left.decides operator then return left else next.evaluate right
  | .assign target value => next.evaluateAssign target value

/-! ## Calls and programs -/

/-- Declares the parameters of a function with its arguments. -/
def declareParameters : List String → List Value → Run Unit
  | [], _ => return ()
  | name :: names, args => do
    declareVariable name (some (args.headD .undefined))
    declareParameters names args.tail

/-- Runs inside of one more call, unless there are too many. -/
def inCall {α : Type} (run : Run α) : Run α := do
  if callLimit ≤ (← read Machine.callDepth) then
    throwNamed "RangeError" "Maximum call stack size exceeded"
  else
    bracket (fun _ => ()) (fun m => { m with callDepth := m.callDepth + 1 })
      (fun () m => { m with callDepth := m.callDepth - 1 }) run

/-- Runs the body of a function with its arguments. -/
def runFunction (definition : Script.Function) (args : List Value) : Run Value := do
  declareVariable "arguments" (some (← newArray args))
  declareParameters definition.parameters args
  match ← next.executeBody definition.body with
  | .returned value => return value
  | .normal _ => return .undefined

/-- Calls a script function: its body runs in a new scope inside of those that it was made in. -/
def callFunction (definition : Script.Function) (closure : Environment) (args : List Value) :
    Run Value := inCall do
  let owner := ((← heap).scope closure.function).owner
  let scope ← make fun heap => heap.newScope ⟨owner, []⟩
  within (closure.pushFunction scope) (next.runFunction definition args)

/-- Counts one more run of a program, and gives its number. -/
def countRun : Run Nat := update fun m => (m.runs, { m with runs := m.runs + 1 })

/-- Runs the statements of a program with some bindings. -/
def runStatements (body : List Script.Statement) (bindings : List (String × Value)) : Run Value := do
  bindings.forM fun (name, value) => declareVariable name (some value)
  match ← next.executeBody body with
  | .normal value? => return value?.getD .undefined
  | .returned value => return value

/-- Runs a program with some bindings in scopes of its own. -/
def runProgram (body : List Script.Statement) (bindings : List (String × Value)) : Run Value := do
  let owner ← countRun
  let global ← globals
  let outer ← make fun heap =>
    heap.newScope ⟨owner, global.map fun (name, value) => (name, ⟨value, true⟩)⟩
  let inner ← make fun heap => heap.newScope ⟨owner, []⟩
  within ((⟨[], outer, []⟩ : Environment).pushFunction inner) (next.runStatements body bindings)

end Steps
end ScriptModules
