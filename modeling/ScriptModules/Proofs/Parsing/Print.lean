import ScriptModules.Proofs.Parsing.Precedence

/-!
# Printing programs

The tokens of a program as a printer writes them (`Statement.kinds`), and its text (`render`): the tokens with single
spaces between them.  Parentheses stand where the precedence asks for them, around the callee of `new` unless it is a
primary expression with members behind it, and around an object or a function with which an expression statement would
begin.  Arguments always follow `new`, keys of objects are strings, and semicolons end the statements that may have
one.
-/

namespace ScriptModules.Script

def UnaryOperator.kind : UnaryOperator → Kind
  | minus => .mark .minus
  | plus => .mark .plus
  | not => .mark .bang
  | typeof => .keyword .typeof_

def DeclarationKind.keyword : DeclarationKind → Keyword
  | var_ => .var_
  | let_ => .let_
  | const_ => .const_

namespace Expression

def precedence : Expression → Precedence
  | member .. | index .. | call .. | construct .. => .access
  | unary .. => .unary
  | binary op _ _ => op.precedence
  | logical op _ _ => op.precedence
  | assign .. => .assignment
  | _ => .primary

/-- Does the expression need parentheses where one of this precedence has to stand? -/
def isLooser (e : Expression) (p : Precedence) : Bool := e.precedence.rank < p.rank

/-- Is it a primary expression with nothing but members behind it? -/
def isPlainCallee : Expression → Bool
  | member base _ => base.isPlainCallee
  | e => e.precedence == .primary

end Expression

/-! ## Lists of tokens -/

def enclosed (kinds : List Kind) : List Kind := .mark .leftParen :: (kinds ++ [.mark .rightParen])

def bracketed (kinds : List Kind) : List Kind := .mark .leftBracket :: (kinds ++ [.mark .rightBracket])

def braced (kinds : List Kind) : List Kind := .mark .leftBrace :: (kinds ++ [.mark .rightBrace])

theorem enclosed_append (kinds more : List Kind) :
    enclosed kinds ++ more = .mark .leftParen :: (kinds ++ .mark .rightParen :: more) := by
  simp [enclosed]

/-- The tokens `bare`, or `inside` in parentheses where these are needed. -/
def guarded (needed : Bool) (inside bare : List Kind) : List Kind := if needed then enclosed inside else bare

/-- The lists with commas between them. -/
def separated : List (List Kind) → List Kind
  | [] => []
  | [kinds] => kinds
  | kinds :: more => kinds ++ .mark .comma :: separated more

theorem separated_cons_cons (kinds kinds' : List Kind) (more : List (List Kind)) :
    separated (kinds :: kinds' :: more) = kinds ++ .mark .comma :: separated (kinds' :: more) := rfl

/-! ## Programs -/

mutual

/-- The tokens of an expression; `first` tells whether an expression statement begins with it. -/
def Expression.kinds (first : Bool) : Expression → List Kind
  | .number x => [.number x]
  | .string s => [.string s]
  | .boolean true => [.keyword .true_]
  | .boolean false => [.keyword .false_]
  | .null => [.keyword .null_]
  | .identifier name => [.identifier name]
  | .array items => bracketed (separated (kindsOfItems items))
  | .object entries =>
    guarded first (braced (separated (kindsOfEntries entries))) (braced (separated (kindsOfEntries entries)))
  | .function definition => guarded first definition.kinds definition.kinds
  | .member object name =>
    guarded (object.isLooser .access) (object.kinds false) (object.kinds first) ++ [.mark .dot, .ofWord name]
  | .index object key =>
    guarded (object.isLooser .access) (object.kinds false) (object.kinds first) ++ bracketed (key.kinds false)
  | .call callee args =>
    guarded (callee.isLooser .access) (callee.kinds false) (callee.kinds first) ++
      enclosed (separated (kindsOfItems args))
  | .construct callee args =>
    .keyword .new_ :: (guarded (!callee.isPlainCallee) (callee.kinds false) (callee.kinds false) ++
      enclosed (separated (kindsOfItems args)))
  | .unary op operand =>
    op.kind :: guarded (operand.isLooser .unary) (operand.kinds false) (operand.kinds false)
  | .binary op left right =>
    guarded (left.isLooser op.precedence) (left.kinds false) (left.kinds first) ++
      .mark op.mark :: guarded (right.isLooser op.precedence.tighter) (right.kinds false) (right.kinds false)
  | .logical op left right =>
    guarded (left.isLooser op.precedence) (left.kinds false) (left.kinds first) ++
      .mark op.mark :: guarded (right.isLooser op.precedence.tighter) (right.kinds false) (right.kinds false)
  | .assign target value =>
    guarded (target.isLooser .disjunction) (target.kinds false) (target.kinds first) ++
      .mark .equal :: value.kinds false

def kindsOfItems : List Expression → List (List Kind)
  | [] => []
  | item :: items => item.kinds false :: kindsOfItems items

def kindsOfEntries : List (String × Expression) → List (List Kind)
  | [] => []
  | (key, value) :: entries => (.string key :: .mark .colon :: value.kinds false) :: kindsOfEntries entries

def Function.kinds : Function → List Kind
  | .mk none parameters body =>
    .keyword .function_ :: (enclosed (separated (parameters.map fun name => [.identifier name])) ++
      braced (kindsOfStatements body))
  | .mk (some name) parameters body =>
    .keyword .function_ :: .identifier name ::
      (enclosed (separated (parameters.map fun name => [.identifier name])) ++ braced (kindsOfStatements body))

def Statement.kinds : Statement → List Kind
  | .declare kind bindings => .keyword kind.keyword :: (separated (kindsOfBindings bindings) ++ [.mark .semicolon])
  | .expression value => value.kinds true ++ [.mark .semicolon]
  | .block body => braced (kindsOfStatements body)
  | .branch test yes none => .keyword .if_ :: (enclosed (test.kinds false) ++ yes.kinds)
  | .branch test yes (some no) =>
    .keyword .if_ :: (enclosed (test.kinds false) ++ (yes.kinds ++ .keyword .else_ :: no.kinds))
  | .throw_ value => .keyword .throw_ :: (value.kinds false ++ [.mark .semicolon])
  | .function definition => definition.kinds
  | .return_ none => [.keyword .return_, .mark .semicolon]
  | .return_ (some value) => .keyword .return_ :: (value.kinds false ++ [.mark .semicolon])
  | .try_ body handler none => .keyword .try_ :: (braced (kindsOfStatements body) ++ kindsOfHandler handler)
  | .try_ body handler (some last) =>
    .keyword .try_ :: (braced (kindsOfStatements body) ++
      (kindsOfHandler handler ++ .keyword .finally_ :: braced (kindsOfStatements last)))
  | .empty => [.mark .semicolon]

def kindsOfStatements : List Statement → List Kind
  | [] => []
  | statement :: statements => statement.kinds ++ kindsOfStatements statements

def kindsOfBindings : List (String × Option Expression) → List (List Kind)
  | [] => []
  | (name, none) :: bindings => [.identifier name] :: kindsOfBindings bindings
  | (name, some value) :: bindings =>
    (.identifier name :: .mark .equal :: value.kinds false) :: kindsOfBindings bindings

def kindsOfHandler : Option Handler → List Kind
  | none => []
  | some (.mk none body) => .keyword .catch_ :: braced (kindsOfStatements body)
  | some (.mk (some parameter) body) =>
    .keyword .catch_ :: (enclosed [.identifier parameter] ++ braced (kindsOfStatements body))

end

/-- The text of a program: its tokens, each as `write` spells it, with single spaces between them. -/
def render (write : Kind → String) (program : List Statement) : String :=
  " ".intercalate ((kindsOfStatements program).map write)

theorem kindsOfItems_eq (items : List Expression) : kindsOfItems items = items.map (Expression.kinds false) := by
  induction items with
  | nil => rfl
  | cons item items ih => rw [kindsOfItems, ih, List.map_cons]

theorem kindsOfEntries_eq (entries : List (String × Expression)) :
    kindsOfEntries entries =
      entries.map fun entry => .string entry.1 :: .mark .colon :: entry.2.kinds false := by
  induction entries with
  | nil => rfl
  | cons entry entries ih => rw [kindsOfEntries, ih, List.map_cons]

end ScriptModules.Script
