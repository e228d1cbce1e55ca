import ScriptModules.Proofs.Parsing.Agreement
import ScriptModules.Proofs.Parsing.Grammar

/-!
# The parser comes to an end

Each rule agrees with itself, with rounds enough on both sides, and takes a token wherever it succeeds; so does each
round of its loops that is not the last (`Nested.Advances`).  It follows that the rounds never run out before the tokens
do, and that a fault is found at one of these.  Rules that count how many others are open never open more than
`nestingLimit`, for they read as `nested` does (`frames_eq_nested`).  `parse_comes_to_end` has all of this for the text
of a program.
-/

namespace ScriptModules.Script.Parser

/-- What is nested in a rule is read in the same way, and loops may take at least `k` rounds. -/
structure NestedAgree (k : Nat) (inner inner' : Nested) : Prop where
  rounds : k ≤ inner.rounds
  rounds' : k ≤ inner'.rounds
  statement {pre : Kind → Prop} : Agree k (fun _ => 1) pre inner.statement inner'.statement
  expression {pre : Kind → Prop} : Agree k (fun _ => 1) pre inner.expression inner'.expression
  operand {pre : Kind → Prop} : Agree k (fun _ => 1) pre inner.operand inner'.operand

namespace Agree

variable {k : Nat} {pre : Kind → Prop} {inner inner' : Nested}

/-- A round that always takes a token. -/
theorem round {α σ : Type} {p p' : Parser (σ ⊕ α)} (h : Agree k (fun _ => 1) pre p p') : Agree k goesOn pre p p' :=
  h.weaken (Nat.le_refl _) (fun _ => id) fun next => by cases next <;> simp [goesOn]

/-- A loop whose result goes on from what has been read before. -/
theorem loop_nil {α : Type} {round round' : List α → Parser (List α ⊕ List α)} {again again' : Nat → Parser (List α)}
    (hagain : Repeats round fun fuel before => (before ++ ·) <$> again fuel)
    (hagain' : Repeats round' fun fuel before => (before ++ ·) <$> again' fuel)
    (hround : ∀ s, Agree k goesOn (fun _ => True) (round s) (round' s)) {rounds rounds' : Nat}
    (h : k ≤ rounds) (h' : k ≤ rounds') : Agree k (fun _ => 0) pre (again rounds) (again' rounds') := by
  have hloop : Agree k (fun _ => 0) pre ((([] : List α) ++ ·) <$> again rounds) (([] ++ ·) <$> again' rounds') :=
    loop hagain hagain' hround [] h h'
  simpa using hloop

/-! ## Parts of statements and of functions -/

private theorem statementRound (h : NestedAgree k inner inner') (ends : Kind → Bool) (before : List Statement) :
    Agree k goesOn pre (statementRound inner ends before) (statementRound inner' ends before) :=
  peek_bind fun _ _ => ite (fun _ => pure rfl) fun _ => (first h.statement fun _ => pure rfl).round

private theorem statementsUntilClose (h : NestedAgree k inner inner') :
    Agree k (fun _ => 0) pre (statementsUntilClose inner inner.rounds) (statementsUntilClose inner' inner'.rounds) :=
  loop_nil (repeats_statementsUntilClose inner) (repeats_statementsUntilClose inner') (statementRound h endsBody)
    h.rounds h.rounds'

private theorem blockBody (h : NestedAgree k inner inner') :
    Agree k (fun _ => 1) pre (blockBody inner) (blockBody inner') :=
  first expect fun _ => bind (statementsUntilClose h) fun _ => bind expect.any fun _ => pure rfl

private theorem itemRound {α : Type} {close : Mark} {item item' : Parser α}
    (h : ∀ {pre}, Agree k (fun _ => 1) pre item item') (before : List α) :
    Agree k goesOn pre (itemRound close item before) (itemRound close item' before) := by
  refine bind accept.any fun closed => ite (fun _ => pure rfl) fun _ => round (first h fun next => ?_)
  exact atMark_bind fun last => ite (fun _ => pure rfl) fun _ => bind expect.any fun _ => pure rfl

private theorem items (h : NestedAgree k inner inner') {α : Type} {close : Mark} {item item' : Parser α}
    (hitem : ∀ {pre}, Agree k (fun _ => 1) pre item item') :
    Agree k (fun _ => 0) pre (items inner close item) (items inner' close item') :=
  loop_nil (repeats_itemsUntil close item) (repeats_itemsUntil close item') (itemRound hitem) h.rounds h.rounds'

private theorem function (h : NestedAgree k inner inner') (hpre : ∀ kind, pre kind → .keyword .function_ = kind) :
    Agree k (fun _ => 1) pre (Parser.function inner) (Parser.function inner') := by
  refine first (advance hpre rfl) fun _ => peek_bind fun kind _ => ?_
  have rest {pre : Kind → Prop} (name : Option String) : Agree k (fun _ => 0) pre
      (do
        Parser.expect .leftParen
        let parameters ← Parser.items inner .rightParen Parser.identifier
        let body ← Parser.blockBody inner
        return Function.mk name parameters body)
      (do
        Parser.expect .leftParen
        let parameters ← Parser.items inner' .rightParen Parser.identifier
        let body ← Parser.blockBody inner'
        return Function.mk name parameters body) :=
    bind expect.any fun _ => bind (items h identifier) fun _ => bind (blockBody h).any fun _ => pure rfl
  split
  · exact bind (advance (fun _ h => h) rfl).any fun _ => rest _
  · exact rest none

/-! ## Expressions -/

private theorem entry (h : NestedAgree k inner inner') : Agree k (fun _ => 1) pre (entry inner) (entry inner') := by
  have key : Agree k (fun _ => 1) pre entryKey entryKey := by
    refine peek_bind fun kind _ => ?_
    split
    · exact first (advance (fun _ h => h) rfl) fun _ => pure rfl
    · exact first (advance (fun _ h => h) rfl) fun _ => pure rfl
    · exact first (advance (fun _ h => h) rfl) fun _ => pure rfl
    · exact first propertyName fun _ => pure rfl
  refine first key fun key => atMark_bind fun b => ite (fun _ => pure rfl) fun _ => ?_
  exact bind expect.any fun _ => bind h.expression.any fun _ => pure rfl

private theorem primary (h : NestedAgree k inner inner') :
    Agree k (fun _ => 1) pre (primary inner) (primary inner') := by
  refine peek_bind fun kind _ => ?_
  split
  case h_1 => exact first (advance (fun _ h => h) rfl) fun _ => pure rfl
  case h_2 => exact first (advance (fun _ h => h) rfl) fun _ => pure rfl
  case h_3 => exact first (advance (fun _ h => h) rfl) fun _ => pure rfl
  case h_4 => exact first (advance (fun _ h => h) rfl) fun _ => pure rfl
  case h_5 => exact first (advance (fun _ h => h) rfl) fun _ => pure rfl
  case h_6 => exact first (advance (fun _ h => h) rfl) fun _ => pure rfl
  case h_7 =>
    exact first (advance (fun _ h => h) rfl) fun _ => bind h.expression.any fun _ => bind expect.any fun _ => pure rfl
  case h_8 => exact first (advance (fun _ h => h) rfl) fun _ => bind (items h h.expression) fun _ => pure rfl
  case h_9 => exact first (advance (fun _ h => h) rfl) fun _ => bind (items h (entry h)) fun _ => pure rfl
  case h_10 => exact first (function h fun _ h => h) fun _ => pure rfl
  all_goals exact fail

private theorem arguments (h : NestedAgree k inner inner') :
    Agree k (fun _ => 1) pre (arguments inner) (arguments inner') :=
  first expect fun _ => items h h.expression

private theorem memberRound (object : Expression) : Agree k goesOn pre (memberRound object) (memberRound object) :=
  bind accept.any fun _ => ite (fun _ => (first propertyName fun _ => pure rfl).round) fun _ => pure rfl

private theorem construction (h : NestedAgree k inner inner') (hpre : ∀ kind, pre kind → .keyword .new_ = kind) :
    Agree k (fun _ => 1) pre (construction inner) (construction inner') := by
  refine first (advance hpre rfl) fun _ => bind (primary h).any fun head => ?_
  refine bind (loop repeats_membersAfter repeats_membersAfter memberRound head h.rounds h.rounds') fun callee => ?_
  exact atMark_bind fun b => ite (fun _ => bind (arguments h).any fun _ => pure rfl) fun _ => pure rfl

private theorem accessRound (h : NestedAgree k inner inner') (object : Expression) :
    Agree k goesOn pre (accessRound inner object) (accessRound inner' object) := by
  refine peek_bind fun kind _ => ?_
  split
  · exact bind (advance (fun _ h => h) rfl).any fun _ => (first propertyName fun _ => pure rfl).round
  · exact bind (advance (fun _ h => h) rfl).any fun _ =>
      (first h.expression fun _ => bind expect.any fun _ => pure rfl).round
  · exact (first (arguments h) fun _ => pure rfl).round
  · exact pure rfl

private theorem access (h : NestedAgree k inner inner') : Agree k (fun _ => 1) pre (access inner) (access inner') := by
  have rest {pre : Kind → Prop} (head : Expression) : Agree k (fun _ => 0) pre
      (accessesAfter inner inner.rounds head) (accessesAfter inner' inner'.rounds head) :=
    loop (repeats_accessesAfter inner) (repeats_accessesAfter inner') (accessRound h) head h.rounds h.rounds'
  exact atKeyword_bind fun b => ite (fun hb => first (construction h fun _ hk => hk.2 hb) rest) fun _ =>
    first (primary h) rest

private theorem unary (h : NestedAgree k inner inner') : Agree k (fun _ => 1) pre (unary inner) (unary inner') := by
  refine peek_bind fun kind _ => ?_
  split
  · next op hop =>
    have hproper := isProper_of_unaryOperator? hop
    exact first (advance (fun _ h => h) hproper) fun _ => bind h.operand.any fun _ => pure rfl
  · exact access h

private theorem operatorRound {p : Precedence} {operand operand' : Parser Expression}
    (h : ∀ {pre}, Agree k (fun _ => 1) pre operand operand') (left : Expression) :
    Agree k goesOn pre (operatorRound (operator? p) operand left) (operatorRound (operator? p) operand' left) := by
  refine peek_bind fun kind _ => ?_
  split
  · exact pure rfl
  · next build hbuild =>
    have hproper : kind.isProper = true := by
      obtain ⟨op, rfl, rfl, rfl⟩ | ⟨op, rfl, rfl, rfl⟩ := operator?_eq_some hbuild <;> rfl
    exact bind (advance (fun _ h => h) hproper).any fun _ => (first h fun _ => pure rfl).round

private theorem expressionAt_chain (h : NestedAgree k inner inner') {p : Precedence} (hp : p.isChain = true)
    (hoperand : ∀ {pre}, Agree k (fun _ => 1) pre (expressionAt inner p.tighter) (expressionAt inner' p.tighter)) :
    Agree k (fun _ => 1) pre (expressionAt inner p) (expressionAt inner' p) := by
  rw [expressionAt_of_isChain inner hp, expressionAt_of_isChain inner' hp]
  exact first hoperand fun left => loop (repeats_operatorsAfter _ _) (repeats_operatorsAfter _ _)
    (operatorRound hoperand) left h.rounds h.rounds'

/-- Every precedence but the loosest one is read by a rule without assignments of its own. -/
theorem expressionAt (h : NestedAgree k inner inner') {p : Precedence} (hp : p ≠ .assignment) :
    Agree k (fun _ => 1) pre (expressionAt inner p) (expressionAt inner' p) := by
  have product {pre : Kind → Prop} : Agree k (fun _ => 1) pre (product inner) (product inner') :=
    expressionAt_chain (p := .product) h rfl (unary h)
  have sum {pre : Kind → Prop} : Agree k (fun _ => 1) pre (sum inner) (sum inner') :=
    expressionAt_chain (p := .sum) h rfl product
  have comparison {pre : Kind → Prop} : Agree k (fun _ => 1) pre (comparison inner) (comparison inner') :=
    expressionAt_chain (p := .comparison) h rfl sum
  have equality {pre : Kind → Prop} : Agree k (fun _ => 1) pre (equality inner) (equality inner') :=
    expressionAt_chain (p := .equality) h rfl comparison
  have conjunction {pre : Kind → Prop} : Agree k (fun _ => 1) pre (conjunction inner) (conjunction inner') :=
    expressionAt_chain (p := .conjunction) h rfl equality
  cases p with
  | assignment => contradiction
  | disjunction => exact expressionAt_chain (p := .disjunction) h rfl conjunction
  | conjunction => exact conjunction
  | equality => exact equality
  | comparison => exact comparison
  | sum => exact sum
  | product => exact product
  | unary => exact unary h
  | access => exact access h
  | primary => exact primary h

/-- What an assignment does behind its target, with the place where that starts. -/
private def assignTo (inner : Nested) (start : Nat) (target : Expression) : Parser Expression := do
  if ← atMark .equal then
    if target.isTarget then
      Parser.advance
      return .assign target (← inner.expression)
    else throw ⟨.invalidTarget, start⟩
  else return target

private theorem assignTo_of_isTarget (h : NestedAgree k inner inner') (start start' : Nat) {target : Expression}
    (ht : target.isTarget = true) :
    Agree k (fun _ => 0) pre (assignTo inner start target) (assignTo inner' start' target) := by
  simp only [assignTo, ht, ↓reduceIte]
  refine atMark_bind fun b => ite (fun hb => ?_) fun _ => pure rfl
  exact bind (advance (fun _ h => h.2 hb) rfl).any fun _ => bind h.expression.any fun _ => pure rfl

private theorem assignTo_of_not_isTarget (inner : Nested) (start : Nat) {target : Expression}
    (ht : target.isTarget = false) (tokens : List Token) :
    assignTo inner start target tokens =
      if (current tokens).kind = .mark .equal then .error ⟨.invalidTarget, start⟩ else .ok (target, tokens) := by
  have hrun : assignTo inner start target tokens =
      (if ((current tokens).kind == .mark .equal) = true then
        if target.isTarget then (do Parser.advance; return .assign target (← inner.expression))
        else throw ⟨.invalidTarget, start⟩
      else return target : Parser Expression) tokens := rfl
  rw [hrun, ht]
  by_cases hk : (current tokens).kind = .mark .equal <;> simp [hk] <;> rfl

/-- A wrong target is reported where it starts, which is where both rows were before. -/
theorem assignment (h : NestedAgree k inner inner') :
    Agree k (fun _ => 1) pre (assignment inner) (assignment inner') := by
  -- What follows the target depends on where it starts, and this is not the same for both rows; so `bind` is no help.
  intro tokens tokens' hs he hlen hpre
  have hassign (inner : Nested) (tokens : List Token) : Parser.assignment inner tokens =
      Parser.disjunction inner tokens >>= fun result => assignTo inner (current tokens).start result.1 result.2 := rfl
  rw [hassign, hassign]
  have htarget : SameOutcome (fun _ => 1) tokens tokens' (Parser.disjunction inner tokens)
      (Parser.disjunction inner' tokens') := expressionAt h (p := .disjunction) (by decide) _ _ hs he hlen hpre
  generalize Parser.disjunction inner tokens = x at htarget
  generalize Parser.disjunction inner' tokens' = x' at htarget
  cases htarget with
  | error cause ha => exact .error cause ha
  | ok target ha =>
    have hrest := ha.takes.length_le
    have hs' := ha.sameKinds hs
    cases ht : target.isTarget with
    | true =>
      have hvalue : Agree k (fun _ => 0) (fun _ => True) (assignTo inner (current tokens).start target)
          (assignTo inner' (current tokens').start target) := assignTo_of_isTarget h _ _ ht
      exact (hvalue _ _ hs' (ha.ended he) (by omega) trivial).after ha fun _ => by simp
    | false =>
      change SameOutcome _ _ _ (assignTo inner _ target _) (assignTo inner' _ target _)
      rw [assignTo_of_not_isTarget inner _ ht, assignTo_of_not_isTarget inner' _ ht, ← hs'.current]
      split
      · exact .error .invalidTarget .refl
      · exact .ok target ha

/-! ## Statements -/

private theorem bindingRound (h : NestedAgree k inner inner') (kind : DeclarationKind)
    (before : List (String × Option Expression)) :
    Agree k (fun _ => 1) pre (bindingRound inner kind before) (bindingRound inner' kind before) := by
  refine first identifier fun name => bind accept.any fun _ => ?_
  have rest {pre : Kind → Prop} (value? : Option Expression) : Agree k (fun _ => 0) pre
      (do
        if ← Parser.accept .comma then return Sum.inl (before ++ [(name, value?)])
        else return Sum.inr (before ++ [(name, value?)]))
      (do
        if ← Parser.accept .comma then return Sum.inl (before ++ [(name, value?)])
        else return Sum.inr (before ++ [(name, value?)])) :=
    bind accept.any fun _ => ite (fun _ => pure rfl) fun _ => pure rfl
  refine ite (fun _ => bind (map h.expression).any rest) fun _ => ite (fun _ => bind fail rest) fun _ => rest none

private theorem endOfStatement : Agree k (fun _ => 0) pre endOfStatement endOfStatement :=
  bind accept.any fun _ => pure rfl

private theorem declaration (h : NestedAgree k inner inner') {kind : DeclarationKind} {word : Keyword}
    (hpre : ∀ kind, pre kind → .keyword word = kind) :
    Agree k (fun _ => 1) pre (declaration inner kind) (declaration inner' kind) := by
  have bound {pre : Kind → Prop} : Agree k (fun _ => 0) pre (bindings inner kind inner.rounds)
      (bindings inner' kind inner'.rounds) :=
    loop_nil (repeats_bindings inner kind) (repeats_bindings inner' kind)
      (fun before => (bindingRound h kind before).round) h.rounds h.rounds'
  exact first (advance hpre rfl) fun _ => bind bound fun _ => bind endOfStatement fun _ => pure rfl

private theorem conditional (h : NestedAgree k inner inner') (hpre : ∀ kind, pre kind → .keyword .if_ = kind) :
    Agree k (fun _ => 1) pre (conditional inner) (conditional inner') := by
  refine first (advance hpre rfl) fun _ => bind expect.any fun _ => bind h.expression.any fun _ => ?_
  refine bind expect.any fun _ => bind h.statement.any fun _ => bind acceptKeyword.any fun _ => ?_
  exact ite (fun _ => bind h.statement.any fun _ => pure rfl) fun _ => pure rfl

private theorem throwing (h : NestedAgree k inner inner') (hpre : ∀ kind, pre kind → .keyword .throw_ = kind) :
    Agree k (fun _ => 1) pre (throwing inner) (throwing inner') :=
  first (advance hpre rfl) fun _ => bind h.expression.any fun _ => bind endOfStatement fun _ => pure rfl

private theorem returning (h : NestedAgree k inner inner') (hpre : ∀ kind, pre kind → .keyword .return_ = kind) :
    Agree k (fun _ => 1) pre (returning inner) (returning inner') := by
  have rest {pre : Kind → Prop} (value? : Option Expression) : Agree k (fun _ => 0) pre
      (do
        Parser.endOfStatement
        return Statement.return_ value?)
      (do
        Parser.endOfStatement
        return Statement.return_ value?) :=
    bind endOfStatement fun _ => pure rfl
  refine first (advance hpre rfl) fun _ => peek_bind fun kind _ => ?_
  split
  · exact rest none
  · exact rest none
  · exact rest none
  · exact bind (map h.expression).any rest

private theorem handler? (h : NestedAgree k inner inner') :
    Agree k (fun _ => 0) pre (handler? inner) (handler? inner') := by
  have rest {pre : Kind → Prop} (parameter : Option String) : Agree k (fun _ => 0) pre
      (do return some (Handler.mk parameter (← Parser.blockBody inner)))
      (do return some (Handler.mk parameter (← Parser.blockBody inner'))) :=
    bind (blockBody h).any fun _ => pure rfl
  refine bind acceptKeyword.any fun _ => ite (fun _ => bind accept.any fun _ => ?_) fun _ => pure rfl
  exact ite (fun _ => bind identifier.any fun _ => bind expect.any fun _ => rest _) fun _ => rest none

private theorem finalizer? (h : NestedAgree k inner inner') :
    Agree k (fun _ => 0) pre (finalizer? inner) (finalizer? inner') :=
  bind acceptKeyword.any fun _ => ite (fun _ => bind (blockBody h).any fun _ => pure rfl) fun _ => pure rfl

private theorem trying (h : NestedAgree k inner inner') (hpre : ∀ kind, pre kind → .keyword .try_ = kind) :
    Agree k (fun _ => 1) pre (trying inner) (trying inner') :=
  first (advance hpre rfl) fun _ => bind (blockBody h).any fun _ => bind (handler? h) fun _ =>
    bind (finalizer? h) fun _ => ite (fun _ => fail) fun _ => pure rfl

private theorem functionDeclaration (h : NestedAgree k inner inner')
    (hpre : ∀ kind, pre kind → .keyword .function_ = kind) :
    Agree k (fun _ => 1) pre (functionDeclaration inner) (functionDeclaration inner') :=
  first (function h hpre) fun _ => ite (fun _ => fail) fun _ => pure rfl

private theorem expressionStatement (h : NestedAgree k inner inner') :
    Agree k (fun _ => 1) pre (expressionStatement inner) (expressionStatement inner') :=
  first h.expression fun _ => bind endOfStatement fun _ => pure rfl

private theorem statement (h : NestedAgree k inner inner') :
    Agree k (fun _ => 1) pre (statement inner) (statement inner') := by
  refine peek_bind fun kind _ => ?_
  split
  · exact declaration h fun _ h => h
  · exact declaration h fun _ h => h
  · exact declaration h fun _ h => h
  · exact conditional h fun _ h => h
  · exact throwing h fun _ h => h
  · exact functionDeclaration h fun _ h => h
  · exact returning h fun _ h => h
  · exact trying h fun _ h => h
  · exact first (blockBody h) fun _ => pure rfl
  · exact first (advance (fun _ h => h) rfl) fun _ => pure rfl
  · exact expressionStatement h

private theorem nested {rounds rounds' : Nat} (h : k ≤ rounds) (h' : k ≤ rounds') :
    ∀ levels, NestedAgree k (nested rounds levels) (nested rounds' levels)
  | 0 => ⟨h, h', fail, fail, fail⟩
  | levels + 1 =>
    have ih := nested h h' levels
    ⟨h, h', statement ih, assignment ih, unary ih⟩

private theorem statements (h : NestedAgree k inner inner') {rounds rounds' : Nat} (hr : k ≤ rounds)
    (hr' : k ≤ rounds') :
    Agree k (fun _ => 0) pre (statements inner rounds) (statements inner' rounds') :=
  loop_nil (repeats_statements inner) (repeats_statements inner') (statementRound h endsText) hr hr'

end Agree

/-! ## Progress -/

/-- From a row that is no longer than `k`, with the end of a text in it, the parser takes a token if it succeeds. -/
def Advancing {α : Type} (k : Nat) (p : Parser α) : Prop :=
  ∀ tokens value rest, Ended tokens → tokens.length ≤ k → p tokens = .ok (value, rest) → Takes 1 tokens rest

/-- `loop` does `round` again and again, and each round that does not end it takes a token. -/
structure AdvancingLoop {α σ : Type} (k : Nat) (round : σ → Parser (σ ⊕ α)) (loop : Nat → σ → Parser α) : Prop where
  repeats : Repeats round loop
  takes : ∀ s tokens next rest, Ended tokens → tokens.length ≤ k → round s tokens = .ok (.inl next, rest) →
    Takes 1 tokens rest

/-- Whatever a rule may be nested in or goes round takes tokens, from rows for which there are rounds enough. -/
structure Nested.Advances (inner : Nested) : Prop where
  statement : Advancing inner.rounds inner.statement
  expression : Advancing inner.rounds inner.expression
  operand : Advancing inner.rounds inner.operand
  program : AdvancingLoop inner.rounds (statementRound inner endsText) fun fuel before =>
    (before ++ ·) <$> statements inner fuel
  body : AdvancingLoop inner.rounds (statementRound inner endsBody) fun fuel before =>
    (before ++ ·) <$> statementsUntilClose inner fuel
  parameters (close : Mark) : AdvancingLoop inner.rounds (itemRound close identifier) fun fuel before =>
    (before ++ ·) <$> itemsUntil close identifier fuel
  items (close : Mark) : AdvancingLoop inner.rounds (itemRound close inner.expression) fun fuel before =>
    (before ++ ·) <$> itemsUntil close inner.expression fuel
  entries (close : Mark) : AdvancingLoop inner.rounds (itemRound close (entry inner)) fun fuel before =>
    (before ++ ·) <$> itemsUntil close (entry inner) fuel
  operators (p : Precedence) (h : p.isChain = true) :
    AdvancingLoop inner.rounds (operatorRound (operator? p) (expressionAt inner p.tighter))
      (operatorsAfter (operator? p) (expressionAt inner p.tighter))
  members : AdvancingLoop inner.rounds memberRound membersAfter
  accesses : AdvancingLoop inner.rounds (accessRound inner) (accessesAfter inner)
  bindings (kind : DeclarationKind) : AdvancingLoop inner.rounds (bindingRound inner kind) fun fuel before =>
    (before ++ ·) <$> Parser.bindings inner kind fuel
  /-- The last binding of a declaration takes a token, too. -/
  binding (kind : DeclarationKind) (before : List (String × Option Expression)) :
    Advancing inner.rounds (bindingRound inner kind before)

private theorem Agree.advancing {α : Type} {k : Nat} {p p' : Parser α} (h : Agree k (fun _ => 1) (fun _ => True) p p') :
    Advancing k p :=
  fun _ _ _ he hlen hp => h.takes he hlen hp

private theorem Agree.advancingLoop {α σ : Type} {k : Nat} {round round' : σ → Parser (σ ⊕ α)}
    {loop : Nat → σ → Parser α}
    (hround : ∀ s, Agree k goesOn (fun _ => True) (round s) (round' s)) (h : Repeats round loop) :
    AdvancingLoop k round loop :=
  ⟨h, fun s _ _ _ he hlen hp => (hround s).takes he hlen hp⟩

private theorem advances_nested (rounds levels : Nat) : (nested rounds levels).Advances := by
  have h : NestedAgree (nested rounds levels).rounds (nested rounds levels) (nested rounds levels) :=
    Agree.nested (Nat.le_of_eq (nested_rounds rounds levels)) (Nat.le_of_eq (nested_rounds rounds levels)) levels
  exact {
    statement := h.statement.advancing
    expression := h.expression.advancing
    operand := h.operand.advancing
    program := Agree.advancingLoop (Agree.statementRound h endsText) (repeats_statements _)
    body := Agree.advancingLoop (Agree.statementRound h endsBody) (repeats_statementsUntilClose _)
    parameters := fun close => Agree.advancingLoop (Agree.itemRound Agree.identifier) (repeats_itemsUntil close _)
    items := fun close => Agree.advancingLoop (Agree.itemRound h.expression) (repeats_itemsUntil close _)
    entries := fun close => Agree.advancingLoop (Agree.itemRound (Agree.entry h)) (repeats_itemsUntil close _)
    operators := fun p _ =>
      Agree.advancingLoop (Agree.operatorRound (Agree.expressionAt h (by cases p <;> decide)))
        (repeats_operatorsAfter _ _)
    members := Agree.advancingLoop Agree.memberRound repeats_membersAfter
    accesses := Agree.advancingLoop (Agree.accessRound h) (repeats_accessesAfter _)
    bindings := fun kind =>
      Agree.advancingLoop (fun before => (Agree.bindingRound h kind before).round) (repeats_bindings _ kind)
    binding := fun kind before => (Agree.bindingRound h kind before).advancing }

/-! ## Frames -/

/-- What may stand inside `depth` others, where `free` more may be opened inside one another and `beyond` is what
would stand inside those.  A rule is refused where `nestingLimit` others are open, and runs with one more open where
not. -/
def frames (rounds : Nat) (beyond : Nested) : Nat → Nat → Nested
  | 0, _ => beyond
  | free + 1, depth =>
    if depth < nestingLimit then
      let inner := frames rounds beyond free (depth + 1)
      ⟨rounds, statement inner, assignment inner, unary inner⟩
    else ⟨rounds, fail .tooDeep, fail .tooDeep, fail .tooDeep⟩

private theorem frames_eq_nested (rounds : Nat) (beyond : Nested) {free depth : Nat} (h : nestingLimit < free + depth)
    (hd : depth ≤ nestingLimit) : frames rounds beyond free depth = nested rounds (nestingLimit - depth) := by
  induction free generalizing depth with
  | zero => omega
  | succ free ih =>
    rw [frames]
    split
    · next hlt =>
      have hlevels : nestingLimit - depth = nestingLimit - (depth + 1) + 1 := by omega
      rw [hlevels, nested, ih (by omega) hlt]
    · next hge =>
      have hlevels : nestingLimit - depth = 0 := by omega
      rw [hlevels, nested]

/-- The tokens of a text end with the one that marks its end. -/
theorem ended_scan (source : String) : Ended (scan source) := by
  obtain ⟨own, last, hscan, hlast, _⟩ := scan_eq_append_eof source
  exact ⟨last, by simp [hscan], hlast⟩

/-- The rows of a text that are read with rounds enough are read alike, whatever the rounds and the places of tokens. -/
theorem agree_statements {k rounds rounds' : Nat} (h : k ≤ rounds) (h' : k ≤ rounds') (levels : Nat) :
    Agree k (fun _ => 0) (fun _ => True) (statements (nested rounds levels) rounds)
      (statements (nested rounds' levels) rounds') :=
  Agree.statements (Agree.nested h h' levels) h h'

/-- The parser comes to an end and says where a fault is.  Whatever it reads takes a token; neither more rounds for its
loops than there are tokens nor more than `nestingLimit` open rules, whatever would stand inside those, make a
difference; all tokens of a program but the last are taken; and a fault is found where a token starts. -/
theorem parse_comes_to_end (source : String) :
    (∀ rounds levels, (nested rounds levels).Advances) ∧
      (∀ rounds free beyond, (scan source).length ≤ rounds → nestingLimit < free →
        (·.1) <$> statements (frames rounds beyond free 0) rounds (scan source) = parse source) ∧
      (∀ program, parse source = .ok program →
        ∃ last, (scan source).getLast? = some last ∧ last.kind = .eof ∧
          statements (nested (scan source).length nestingLimit) (scan source).length (scan source) =
            .ok (program, [last])) ∧
      ∀ fault, parse source = .error fault → ∃ token ∈ scan source, fault.offset = token.start := by
  have hended := ended_scan source
  have hlen := Nat.le_refl (scan source).length
  refine ⟨advances_nested, fun rounds free beyond hrounds hfree => ?_, fun program h => ?_, fun fault h => ?_⟩
  · rw [frames_eq_nested rounds beyond hfree (Nat.zero_le _), Nat.sub_zero,
      (agree_statements hrounds hlen nestingLimit).run_eq hended hlen]
    rfl
  · rw [parse_of_scan rfl] at h
    cases hrun : statements (nested (scan source).length nestingLimit) (scan source).length (scan source) with
    | error fault =>
      rw [hrun] at h
      contradiction
    | ok result =>
      obtain ⟨body, rest⟩ := result
      rw [hrun] at h
      obtain rfl := Except.ok.inj h
      obtain ⟨ht, hrest, _⟩ :=
        statements_eq_ok (Reads.nested grammar_true _ _) _ (fun _ _ _ => trivial) (Nat.le_refl _) hrun
      obtain ⟨last, hlast, heof, rfl⟩ := eq_last_of_takes ht hrest
      exact ⟨last, hlast, heof, rfl⟩
  · rw [parse_of_scan rfl] at h
    cases hrun : statements (nested (scan source).length nestingLimit) (scan source).length (scan source) with
    | ok result =>
      rw [hrun] at h
      contradiction
    | error fault' =>
      rw [hrun] at h
      obtain rfl := Except.error.inj h
      exact (agree_statements hlen hlen nestingLimit).located hended hlen hrun

end Parser

end ScriptModules.Script
