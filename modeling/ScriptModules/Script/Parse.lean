import ScriptModules.Script.Scan
import ScriptModules.Script.SyntaxFault
import ScriptModules.Script.Tree

/-!
# From tokens to the syntax tree

From loosest to tightest, expressions are built from assignment, `||`, `&&`, equality, comparison, sums,
products, unary operators, calls and members, and primary expressions; all but assignment and the unary
operators group to the left.  A semicolon may follow a statement and never has to.

Statements, expressions and operands of unary operators may stand inside one another `nestingLimit`
deep.  Each rule is given the three parsers for what is nested in it (`Nested`), and `nested` ties the
knot by recursion on the levels that are left.  The loops within a rule read at least one token a
round, so the number of tokens of the text bounds them all.
-/

namespace ScriptModules.Script

/-- A parser reads from the front of a list of tokens whose last one is `eof`. -/
abbrev Parser := StateT (List Token) (Except SyntaxFault)

/-- How deep statements, expressions and operands may nest. -/
def nestingLimit : Nat := 128

namespace Parser

/-- The token that comes next. -/
def current (tokens : List Token) : Token := tokens.headD ⟨.eof, 0⟩

/-- The kind of the token that comes next. -/
def peek : Parser Kind := fun tokens => .ok ((current tokens).kind, tokens)

/-- Drops the next token. -/
def advance : Parser Unit := fun tokens => .ok ((), tokens.tail)

/-- Fails at the next token. -/
def fail {α : Type} (cause : SyntaxCause) : Parser α := fun tokens =>
  .error ⟨cause, (current tokens).start⟩

/-- Is the next token this mark? -/
def atMark (mark : Mark) : Parser Bool := return (← peek) == .mark mark

/-- Is the next token this keyword? -/
def atKeyword (word : Keyword) : Parser Bool := return (← peek) == .keyword word

/-- Reads a mark. -/
def expect (mark : Mark) : Parser Unit := do
  let kind ← peek
  if kind == .mark mark then advance else fail (.expectedMark mark kind)

/-- Reads a mark if it comes next. -/
def accept (mark : Mark) : Parser Bool := do
  if ← atMark mark then advance; return true
  else return false

/-- Reads a keyword if it comes next. -/
def acceptKeyword (word : Keyword) : Parser Bool := do
  if ← atKeyword word then advance; return true
  else return false

/-- Reads a name. -/
def identifier : Parser String := do
  match ← peek with
  | .identifier name => advance; return name
  | kind => fail (.expectedName kind)

/-- Reads a name behind a point; keywords and reserved words are names there. -/
def propertyName : Parser String := do
  match (← peek).word? with
  | some word => advance; return word
  | none => identifier

/-- Reads items with commas between them up to a closing mark; a comma may follow the last one. -/
def itemsUntil {α : Type} (close : Mark) (item : Parser α) : Nat → Parser (List α)
  | 0 => fail .endOfInput
  | fuel + 1 => do
    if ← accept close then return []
    let first ← item
    unless ← atMark close do expect .comma
    return first :: (← itemsUntil close item fuel)

/-- Applies the binary operators that follow an operand, from left to right. -/
def operatorsAfter (build? : Kind → Option (Expression → Expression → Expression))
    (operand : Parser Expression) : Nat → Expression → Parser Expression
  | 0, left => return left
  | fuel + 1, left => do
    match build? (← peek) with
    | none => return left
    | some build =>
      advance
      let right ← operand
      operatorsAfter build? operand fuel (build left right)

/-- The parsers for what is nested in a rule. -/
structure Nested where
  /-- How many rounds a loop may take. -/
  rounds : Nat
  statement : Parser Statement
  expression : Parser Expression
  operand : Parser Expression

variable (inner : Nested)

/-- Reads items with commas between them up to a closing mark. -/
def items {α : Type} (close : Mark) (item : Parser α) : Parser (List α) :=
  itemsUntil close item inner.rounds

/-- Operands with binary operators of one level between them. -/
def chain (build? : Kind → Option (Expression → Expression → Expression))
    (operand : Parser Expression) : Parser Expression := do
  operatorsAfter build? operand inner.rounds (← operand)

/-- The statements up to a closing brace or the end. -/
def statementsUntilClose : Nat → Parser (List Statement)
  | 0 => return []
  | fuel + 1 => do
    match ← peek with
    | .mark .rightBrace | .eof => return []
    | _ =>
      let first ← inner.statement
      return first :: (← statementsUntilClose fuel)

/-- Statements in braces. -/
def blockBody : Parser (List Statement) := do
  expect .leftBrace
  let body ← statementsUntilClose inner inner.rounds
  expect .rightBrace
  return body

/-- A function from its keyword on. -/
def function : Parser Function := do
  advance
  let name ← match ← peek with
    | .identifier name => do advance; pure (some name)
    | _ => pure none
  expect .leftParen
  let parameters ← items inner .rightParen identifier
  let body ← blockBody inner
  return .mk name parameters body

/-- The key of an entry in an object literal, and whether it is a plain name. -/
def entryKey : Parser (String × Bool) := do
  match ← peek with
  | .string s => advance; return (s, false)
  | .number x => advance; return (Decimal.script.write x, false)
  | .identifier name => advance; return (name, true)
  | _ => return (← propertyName, false)

/-- An entry of an object literal; a plain name may stand for itself. -/
def entry : Parser (String × Expression) := do
  let (key, plain) ← entryKey
  if plain && !(← atMark .colon) then return (key, .identifier key)
  else
    expect .colon
    return (key, ← inner.expression)

/-- Literals, names, and what stands in brackets of some kind. -/
def primary : Parser Expression := do
  match ← peek with
  | .number x => advance; return .number x
  | .string s => advance; return .string s
  | .keyword .true_ => advance; return .boolean true
  | .keyword .false_ => advance; return .boolean false
  | .keyword .null_ => advance; return .null
  | .identifier name => advance; return .identifier name
  | .mark .leftParen =>
    advance
    let value ← inner.expression
    expect .rightParen
    return value
  | .mark .leftBracket => advance; return .array (← items inner .rightBracket inner.expression)
  | .mark .leftBrace => advance; return .object (← items inner .rightBrace (entry inner))
  | .keyword .function_ => return .function (← function inner)
  | .reserved word => fail (.reservedWord word)
  | .invalid fault => fail (.lexical fault)
  | .eof => fail .endOfInput
  | kind => fail (.unexpectedToken kind)

/-- The arguments of a call. -/
def arguments : Parser (List Expression) := do
  expect .leftParen
  items inner .rightParen inner.expression

/-- The members that follow the callee of `new`. -/
def membersAfter : Nat → Expression → Parser Expression
  | 0, object => return object
  | fuel + 1, object => do
    if ← accept .dot then membersAfter fuel (.member object (← propertyName))
    else return object

/-- A `new` expression from its keyword on; the arguments may be missing. -/
def construction : Parser Expression := do
  advance
  let head ← primary inner
  let callee ← membersAfter inner.rounds head
  if ← atMark .leftParen then return .construct callee (← arguments inner)
  else return .construct callee []

/-- The members, indices and calls that follow an expression. -/
def accessesAfter : Nat → Expression → Parser Expression
  | 0, object => return object
  | fuel + 1, object => do
    match ← peek with
    | .mark .dot =>
      advance
      accessesAfter fuel (.member object (← propertyName))
    | .mark .leftBracket =>
      advance
      let key ← inner.expression
      expect .rightBracket
      accessesAfter fuel (.index object key)
    | .mark .leftParen => accessesAfter fuel (.call object (← arguments inner))
    | _ => return object

/-- Calls and members. -/
def access : Parser Expression := do
  let head ← if ← atKeyword .new_ then construction inner else primary inner
  accessesAfter inner inner.rounds head

/-- The unary operator that a token is. -/
def unaryOperator? : Kind → Option UnaryOperator
  | .mark .bang => some .not
  | .mark .minus => some .minus
  | .mark .plus => some .plus
  | .keyword .typeof_ => some .typeof
  | _ => none

def unary : Parser Expression := do
  match unaryOperator? (← peek) with
  | some operator =>
    advance
    return .unary operator (← inner.operand)
  | none => access inner

def productOperator? : Kind → Option (Expression → Expression → Expression)
  | .mark .star => some (.binary .multiply)
  | .mark .slash => some (.binary .divide)
  | .mark .percent => some (.binary .modulo)
  | _ => none

def sumOperator? : Kind → Option (Expression → Expression → Expression)
  | .mark .plus => some (.binary .add)
  | .mark .minus => some (.binary .subtract)
  | _ => none

def comparisonOperator? : Kind → Option (Expression → Expression → Expression)
  | .mark .lessThan => some (.binary .lessThan)
  | .mark .lessThanEqual => some (.binary .lessThanEqual)
  | .mark .greaterThan => some (.binary .greaterThan)
  | .mark .greaterThanEqual => some (.binary .greaterThanEqual)
  | _ => none

def equalityOperator? : Kind → Option (Expression → Expression → Expression)
  | .mark .equalEqual => some (.binary .equal)
  | .mark .notEqual => some (.binary .notEqual)
  | .mark .strictEqual => some (.binary .strictEqual)
  | .mark .strictNotEqual => some (.binary .strictNotEqual)
  | _ => none

def andOperator? : Kind → Option (Expression → Expression → Expression)
  | .mark .ampersandAmpersand => some (.logical .and)
  | _ => none

def orOperator? : Kind → Option (Expression → Expression → Expression)
  | .mark .pipePipe => some (.logical .or)
  | _ => none

def product : Parser Expression := chain inner productOperator? (unary inner)

def sum : Parser Expression := chain inner sumOperator? (product inner)

def comparison : Parser Expression := chain inner comparisonOperator? (sum inner)

def equality : Parser Expression := chain inner equalityOperator? (comparison inner)

def conjunction : Parser Expression := chain inner andOperator? (equality inner)

def disjunction : Parser Expression := chain inner orOperator? (conjunction inner)

/-- An assignment, or what is tighter than one.  A wrong target is reported where it starts. -/
def assignment : Parser Expression := do
  let start := (current (← get)).start
  let target ← disjunction inner
  if ← atMark .equal then
    if target.isTarget then
      advance
      return .assign target (← inner.expression)
    else throw ⟨.invalidTarget, start⟩
  else return target

/-- The bindings of a declaration, of which there is at least one. -/
def bindings (kind : DeclarationKind) : Nat → Parser (List (String × Option Expression))
  | 0 => fail .endOfInput
  | fuel + 1 => do
    let name ← identifier
    let value? ←
      if ← accept .equal then some <$> inner.expression
      else if kind = .const_ then fail .missingInitializer
      else pure none
    if ← accept .comma then return (name, value?) :: (← bindings kind fuel)
    else return [(name, value?)]

/-- Drops a semicolon if there is one. -/
def endOfStatement : Parser Unit := do
  let _ ← accept .semicolon

/-- A declaration from its keyword on. -/
def declaration (kind : DeclarationKind) : Parser Statement := do
  advance
  let bound ← bindings inner kind inner.rounds
  endOfStatement
  return .declare kind bound

/-- A conditional from its keyword on; an `else` belongs to the nearest one. -/
def conditional : Parser Statement := do
  advance
  expect .leftParen
  let test ← inner.expression
  expect .rightParen
  let yes ← inner.statement
  if ← acceptKeyword .else_ then return .branch test yes (some (← inner.statement))
  else return .branch test yes none

/-- A `throw` from its keyword on. -/
def throwing : Parser Statement := do
  advance
  let value ← inner.expression
  endOfStatement
  return .throw_ value

/-- A `return` from its keyword on. -/
def returning : Parser Statement := do
  advance
  let value? ← match ← peek with
    | .mark .semicolon | .mark .rightBrace | .eof => pure none
    | _ => some <$> inner.expression
  endOfStatement
  return .return_ value?

/-- The `catch` part of a `try`, if there is one. -/
def handler? : Parser (Option Handler) := do
  if ← acceptKeyword .catch_ then
    let parameter ←
      if ← accept .leftParen then do
        let name ← identifier
        expect .rightParen
        pure (some name)
      else pure none
    return some (.mk parameter (← blockBody inner))
  else return none

/-- The `finally` part of a `try`, if there is one. -/
def finalizer? : Parser (Option (List Statement)) := do
  if ← acceptKeyword .finally_ then return some (← blockBody inner)
  else return none

/-- A `try` from its keyword on; one of its other parts has to follow. -/
def trying : Parser Statement := do
  advance
  let body ← blockBody inner
  let handler ← handler? inner
  let finalizer ← finalizer? inner
  if handler.isNone && finalizer.isNone then fail .missingHandler
  else return .try_ body handler finalizer

/-- A function declaration, which has to have a name. -/
def functionDeclaration : Parser Statement := do
  let definition ← function inner
  if definition.name.isNone then fail .missingFunctionName
  else return .function definition

/-- An expression in the place of a statement. -/
def expressionStatement : Parser Statement := do
  let value ← inner.expression
  endOfStatement
  return .expression value

def statement : Parser Statement := do
  match ← peek with
  | .keyword .var_ => declaration inner .var_
  | .keyword .let_ => declaration inner .let_
  | .keyword .const_ => declaration inner .const_
  | .keyword .if_ => conditional inner
  | .keyword .throw_ => throwing inner
  | .keyword .function_ => functionDeclaration inner
  | .keyword .return_ => returning inner
  | .keyword .try_ => trying inner
  | .mark .leftBrace => return .block (← blockBody inner)
  | .mark .semicolon => advance; return .empty
  | _ => expressionStatement inner

/-- The parsers for what may stand `levels` deep. -/
def nested (rounds : Nat) : Nat → Nested
  | 0 => ⟨rounds, fail .tooDeep, fail .tooDeep, fail .tooDeep⟩
  | levels + 1 =>
    let inner := nested rounds levels
    ⟨rounds, statement inner, assignment inner, unary inner⟩

theorem nested_rounds (rounds levels : Nat) : (nested rounds levels).rounds = rounds := by
  cases levels <;> rfl

/-- All statements up to the end of the text. -/
def statements (inner : Nested) : Nat → Parser (List Statement)
  | 0 => return []
  | fuel + 1 => do
    match ← peek with
    | .eof => return []
    | _ =>
      let first ← inner.statement
      return first :: (← statements inner fuel)

end Parser

/-- The program that a text is. -/
def parse (source : String) : Except SyntaxFault (List Statement) :=
  let tokens := scan source
  let inner := Parser.nested tokens.length nestingLimit
  (·.1) <$> (Parser.statements inner tokens.length).run tokens

/-- Parsing a text is reading statements from its tokens, with as many rounds as there are tokens. -/
theorem parse_of_scan {source : String} {tokens : List Token} (h : scan source = tokens) :
    parse source =
      (Parser.statements (Parser.nested tokens.length nestingLimit) tokens.length tokens).map (·.1) := by
  subst h
  rfl

end ScriptModules.Script
