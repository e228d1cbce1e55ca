import ScriptModules.Proofs.Parsing.Precedence

/-!
# The loops of the parser

Each loop of a rule does one round again and again: the statements of a text or of a body, the items between brackets,
the operands of a chain, the members and accesses behind an expression, and the bindings of a declaration.  A round is a
parser of its own, from what has been built so far to what the next round starts from, or to the result.
-/

namespace ScriptModules.Script.Parser

/-- `loop` does `round` again and again, for as many rounds as its first argument says. -/
def Repeats {σ α : Type} (round : σ → Parser (σ ⊕ α)) (loop : Nat → σ → Parser α) : Prop :=
  ∀ fuel s, loop (fuel + 1) s = do
    match ← round s with
    | .inl next => loop fuel next
    | .inr result => return result

/-- One more statement, unless the next token ends the row. -/
def statementRound (inner : Nested) (ends : Kind → Bool) (before : List Statement) :
    Parser (List Statement ⊕ List Statement) := do
  if ends (← peek) then return .inr before
  else return .inl (before ++ [← inner.statement])

/-- Does the token end a body? -/
def endsBody (kind : Kind) : Bool := kind == .mark .rightBrace || kind == .eof

/-- Does the token end a text? -/
def endsText (kind : Kind) : Bool := kind == .eof

/-- One more item, unless the closing mark comes next. -/
def itemRound {α : Type} (close : Mark) (item : Parser α) (before : List α) : Parser (List α ⊕ List α) := do
  if ← accept close then return .inr before
  let next ← item
  unless ← atMark close do expect .comma
  return .inl (before ++ [next])

/-- One more operator and operand. -/
def operatorRound (build? : Kind → Option (Expression → Expression → Expression)) (operand : Parser Expression)
    (left : Expression) : Parser (Expression ⊕ Expression) := do
  match build? (← peek) with
  | none => return .inr left
  | some build =>
    advance
    return .inl (build left (← operand))

/-- One more member of the callee of `new`. -/
def memberRound (object : Expression) : Parser (Expression ⊕ Expression) := do
  if ← accept .dot then return .inl (.member object (← propertyName))
  else return .inr object

/-- One more member, index or call. -/
def accessRound (inner : Nested) (object : Expression) : Parser (Expression ⊕ Expression) := do
  match ← peek with
  | .mark .dot =>
    advance
    return .inl (.member object (← propertyName))
  | .mark .leftBracket =>
    advance
    let key ← inner.expression
    expect .rightBracket
    return .inl (.index object key)
  | .mark .leftParen => return .inl (.call object (← arguments inner))
  | _ => return .inr object

/-- One more binding; the last one is that with no comma behind it. -/
def bindingRound (inner : Nested) (kind : DeclarationKind) (before : List (String × Option Expression)) :
    Parser (List (String × Option Expression) ⊕ List (String × Option Expression)) := do
  let name ← identifier
  let value? ←
    if ← accept .equal then some <$> inner.expression
    else if kind = .const_ then fail .missingInitializer
    else pure none
  if ← accept .comma then return .inl (before ++ [(name, value?)])
  else return .inr (before ++ [(name, value?)])

section

variable (inner : Nested)

theorem repeats_statements :
    Repeats (statementRound inner endsText) fun fuel before => (before ++ ·) <$> statements inner fuel := by
  intro fuel before
  simp only [statementRound, statements, map_bind, bind_assoc]
  congr; funext kind
  split
  · simp [endsText]
  · next h => simp [endsText, show kind ≠ .eof from h]

theorem repeats_statementsUntilClose :
    Repeats (statementRound inner endsBody) fun fuel before => (before ++ ·) <$> statementsUntilClose inner fuel := by
  intro fuel before
  simp only [statementRound, statementsUntilClose, map_bind, bind_assoc]
  congr; funext kind
  split
  · simp [endsBody]
  · simp [endsBody]
  · next h h' => simp [endsBody, show kind ≠ .mark .rightBrace from h, show kind ≠ .eof from h']

theorem repeats_itemsUntil {α : Type} (close : Mark) (item : Parser α) :
    Repeats (itemRound close item) fun fuel before => (before ++ ·) <$> itemsUntil close item fuel := by
  intro fuel before
  simp only [itemRound, itemsUntil, map_bind, bind_assoc]
  congr; funext closed
  cases closed with
  | true => simp
  | false =>
    simp only [Bool.false_eq_true, ↓reduceIte, map_bind, bind_assoc]
    congr; funext next
    congr; funext last
    cases last <;> simp

theorem repeats_operatorsAfter (build? : Kind → Option (Expression → Expression → Expression))
    (operand : Parser Expression) :
    Repeats (operatorRound build? operand) fun fuel => operatorsAfter build? operand fuel := by
  intro fuel left
  simp only [operatorRound, operatorsAfter, bind_assoc]
  congr; funext kind
  cases build? kind <;> simp

theorem repeats_membersAfter : Repeats memberRound fun fuel => membersAfter fuel := by
  intro fuel object
  simp only [memberRound, membersAfter, bind_assoc]
  congr; funext dotted
  cases dotted <;> simp

theorem repeats_accessesAfter : Repeats (accessRound inner) fun fuel => accessesAfter inner fuel := by
  intro fuel object
  simp only [accessRound, accessesAfter, bind_assoc]
  congr; funext kind
  split <;> simp

theorem repeats_bindings (kind : DeclarationKind) :
    Repeats (bindingRound inner kind) fun fuel before => (before ++ ·) <$> bindings inner kind fuel := by
  intro fuel before
  simp only [bindingRound, bindings, map_bind, bind_assoc]
  congr; funext name
  congr; funext given
  cases given with
  | true =>
    simp only [↓reduceIte, map_bind, bind_assoc]
    congr; funext value?
    congr; funext more
    cases more <;> simp
  | false =>
    by_cases hkind : kind = .const_
    · simp only [Bool.false_eq_true, ↓reduceIte, hkind, map_bind, bind_assoc]
      congr; funext value?
      congr; funext more
      cases more <;> simp
    · simp only [Bool.false_eq_true, ↓reduceIte, hkind, map_bind, bind_assoc, pure_bind]
      congr; funext more
      cases more <;> simp

end

end ScriptModules.Script.Parser
