import ScriptModules.Proofs.Parsing.Precedence
import ScriptModules.Proofs.Parsing.Reading
import ScriptModules.Proofs.Scanning.Tokens

/-!
# Induction on what the parser builds

To prove something of all programs that the parser accepts, it is enough to prove it of each rule (`Grammar`): of the
tree that the rule builds, if it holds of the parts.  What is proved may depend on how many levels of nesting are left
and on the precedence that an expression was read at.  `Grammar.parse` is the induction.
-/

namespace ScriptModules.Script

/-- Does the statement end with an `if` that has no `else`? -/
def Statement.isOpen : Statement → Bool
  | branch _ _ none => true
  | branch _ _ (some no) => no.isOpen
  | _ => false

/-- The names in a function are as in `Seen`, and its statements as in `P`. -/
structure Function.Holds (Seen : Kind → Prop) (P : Statement → Prop) (f : Function) : Prop where
  name : ∀ x ∈ f.name, Seen (.identifier x)
  parameters : ∀ x ∈ f.parameters, Seen (.identifier x)
  body : ∀ s ∈ f.body, P s

/-- The name in a binding is as in `Seen`, and its value as in `P`; that of a constant is there. -/
structure Binds (Seen : Kind → Prop) (P : Expression → Prop) (kind : DeclarationKind)
    (binding : String × Option Expression) : Prop where
  name : Seen (.identifier binding.1)
  value : ∀ value ∈ binding.2, P value
  initialized : kind = .const_ → binding.2.isSome = true

/-- The rules of the grammar: from parts with `n` levels of nesting, of which `E` and `S` hold, they build expressions
and statements with one level more, of which `E` and `S` hold, too.  The words, names and literals in them are those of
tokens as in `Seen`. -/
structure Grammar (Seen : Kind → Prop) (E : Nat → Precedence → Expression → Prop) (S : Nat → Statement → Prop) :
    Prop where
  number {n : Nat} {p : Precedence} {x : Float} : Seen (.number x) → E n p (.number x)
  string {n : Nat} {p : Precedence} {s : String} : Seen (.string s) → E n p (.string s)
  boolean {n : Nat} {p : Precedence} (b : Bool) : E n p (.boolean b)
  null {n : Nat} {p : Precedence} : E n p .null
  identifier {n : Nat} {p : Precedence} {name : String} : Seen (.identifier name) → E n p (.identifier name)
  array {n : Nat} {items : List Expression} :
    (∀ item ∈ items, E n .assignment item) → E (n + 1) .primary (.array items)
  object {n : Nat} {entries : List (String × Expression)} :
    (∀ entry ∈ entries, E n .assignment entry.2) → E (n + 1) .primary (.object entries)
  function {n : Nat} {f : Function} : f.Holds Seen (S n) → E (n + 1) .primary (.function f)
  parenthesized {n : Nat} {e : Expression} : E n .assignment e → E (n + 1) .primary e
  /-- The object of a member may be the callee of `new`, which is tighter than other accesses are. -/
  member {n : Nat} {p : Precedence} {object : Expression} {name : String} :
    E (n + 1) p object → Parser.SeenWord Seen name → E (n + 1) p (.member object name)
  index {n : Nat} {object key : Expression} :
    E (n + 1) .access object → E n .assignment key → E (n + 1) .access (.index object key)
  call {n : Nat} {callee : Expression} {args : List Expression} :
    E (n + 1) .access callee → (∀ a ∈ args, E n .assignment a) → E (n + 1) .access (.call callee args)
  construct {n : Nat} {callee : Expression} {args : List Expression} :
    E (n + 1) .primary callee → (∀ a ∈ args, E n .assignment a) → E (n + 1) .access (.construct callee args)
  unary {n : Nat} {operand : Expression} (op : UnaryOperator) :
    E n .unary operand → E (n + 1) .unary (.unary op operand)
  binary {n : Nat} {left right : Expression} (op : BinaryOperator) :
    E (n + 1) op.precedence left → E (n + 1) op.precedence.tighter right →
    E (n + 1) op.precedence (.binary op left right)
  logical {n : Nat} {left right : Expression} (op : LogicalOperator) :
    E (n + 1) op.precedence left → E (n + 1) op.precedence.tighter right →
    E (n + 1) op.precedence (.logical op left right)
  assign {n : Nat} {target value : Expression} :
    target.isTarget = true → E (n + 1) .disjunction target → E n .assignment value →
    E (n + 1) .assignment (.assign target value)
  looser {n : Nat} {p : Precedence} {e : Expression} : E n p.tighter e → E n p e
  declare {n : Nat} {kind : DeclarationKind} {bindings : List (String × Option Expression)} :
    bindings ≠ [] → (∀ b ∈ bindings, Binds Seen (E n .assignment) kind b) → S (n + 1) (.declare kind bindings)
  expression {n : Nat} {value : Expression} : E n .assignment value → S (n + 1) (.expression value)
  block {n : Nat} {body : List Statement} : (∀ s ∈ body, S n s) → S (n + 1) (.block body)
  conditional {n : Nat} {test : Expression} {yes : Statement} :
    E n .assignment test → S n yes → S (n + 1) (.branch test yes none)
  alternative {n : Nat} {test : Expression} {yes no : Statement} :
    E n .assignment test → S n yes → yes.isOpen = false → S n no → S (n + 1) (.branch test yes (some no))
  throw_ {n : Nat} {value : Expression} : E n .assignment value → S (n + 1) (.throw_ value)
  declaredFunction {n : Nat} {f : Function} :
    f.name.isSome = true → f.Holds Seen (S n) → S (n + 1) (.function f)
  return_ {n : Nat} {value? : Option Expression} :
    (∀ value ∈ value?, E n .assignment value) → S (n + 1) (.return_ value?)
  try_ {n : Nat} {body : List Statement} {handler : Option Handler} {finalizer : Option (List Statement)} :
    (∀ s ∈ body, S n s) →
    (∀ parameter caught, some (Handler.mk parameter caught) = handler →
      (∀ x ∈ parameter, Seen (.identifier x)) ∧ ∀ s ∈ caught, S n s) →
    (∀ last ∈ finalizer, ∀ s ∈ last, S n s) → handler.isSome = true ∨ finalizer.isSome = true →
    S (n + 1) (.try_ body handler finalizer)
  empty {n : Nat} : S n .empty

/-- The rules keep what is true of everything. -/
theorem grammar_true : Grammar (fun _ => True) (fun _ _ _ => True) (fun _ _ => True) := by
  constructor <;> intros <;> trivial

namespace Parser

/-- What is nested in a rule is read as it should be. -/
structure NestedReads (Seen : Kind → Prop) (E : Nat → Precedence → Expression → Prop) (S : Nat → Statement → Prop)
    (n : Nat) (inner : Nested) : Prop where
  statement {pre : Kind → Prop} :
    Reads Seen 1 pre inner.statement fun s k => S n s ∧ (s.isOpen = true → k ≠ .keyword .else_)
  expression {pre : Kind → Prop} : Reads Seen 1 pre inner.expression fun e _ => E n .assignment e
  operand {pre : Kind → Prop} : Reads Seen 1 pre inner.operand fun e _ => E n .unary e

namespace Reads

variable {Seen : Kind → Prop} {E : Nat → Precedence → Expression → Prop} {S : Nat → Statement → Prop}
  {n : Nat} {inner : Nested} {pre : Kind → Prop}

/-! ## Parts of statements and of functions -/

private theorem statementsUntilClose (hin : NestedReads Seen E S n inner) (fuel : Nat) :
    Reads Seen 0 pre (statementsUntilClose inner fuel) fun body _ => ∀ s ∈ body, S n s := by
  induction fuel generalizing pre with
  | zero => exact pure (by simp)
  | succ fuel ih =>
    refine bind peek fun kind k _ => ?_
    split
    · exact pure (by simp)
    · exact pure (by simp)
    · refine bind hin.statement.any fun s k hs => bind ih fun body k hbody => pure fun _ _ => ?_
      exact List.forall_mem_cons.2 ⟨hs.1, hbody⟩

private theorem blockBody (hin : NestedReads Seen E S n inner) :
    Reads Seen 1 pre (blockBody inner) fun body _ => ∀ s ∈ body, S n s :=
  first expect fun _ _ _ => bind (statementsUntilClose hin _) fun _ _ hbody =>
    bind expect.any fun _ _ _ => pure fun _ _ => hbody

private theorem function (hin : NestedReads Seen E S n inner) (hpre : ∀ k, pre k → .keyword .function_ = k) :
    Reads Seen 1 pre (Parser.function inner) fun f _ => f.Holds Seen (S n) := by
  refine first (advance hpre rfl) fun _ _ _ => bind peek fun kind k hk => ?_
  obtain ⟨rfl, _, hseen⟩ := hk
  have rest {pre : Kind → Prop} {name : Option String} (hname : ∀ x ∈ name, Seen (.identifier x)) :
      Reads Seen 0 pre (do
        Parser.expect .leftParen
        let parameters ← items inner .rightParen Parser.identifier
        let body ← Parser.blockBody inner
        return Function.mk name parameters body) fun f _ => f.Holds Seen (S n) :=
    bind expect.any fun _ _ _ => bind (itemsUntil identifier.any _) fun _ _ hparameters =>
      bind (blockBody hin).any fun _ _ hbody => pure fun _ _ => ⟨hname, hparameters, hbody⟩
  split
  · next name =>
    exact bind (advance (fun _ h => h.1) rfl).any fun _ _ _ => rest (by simpa using hseen rfl)
  · exact rest (by simp)

/-! ## Expressions -/

private theorem entry (G : Grammar Seen E S) (hin : NestedReads Seen E S n inner) :
    Reads Seen 0 pre (entry inner) fun entry _ => E n .assignment entry.2 := by
  have key : Reads Seen 0 pre entryKey fun key _ => key.2 = true → Seen (.identifier key.1) := by
    refine bind peek fun kind k hk => ?_
    obtain ⟨rfl, _, hseen⟩ := hk
    split
    · exact bind (advance (fun _ h => h.1) rfl).any fun _ _ _ => pure (by simp)
    · exact bind (advance (fun _ h => h.1) rfl).any fun _ _ _ => pure (by simp)
    · exact bind (advance (fun _ h => h.1) rfl).any fun _ _ _ => pure fun _ _ _ => hseen rfl
    · exact bind propertyName.any fun _ _ _ => pure (by simp)
  refine bind key fun key k hkey => bind atMark fun b k _ => ite (fun h => ?_) fun _ => ?_
  · exact pure fun _ _ => G.identifier (hkey (by simp_all))
  · exact bind expect.any fun _ _ _ => bind hin.expression.any fun _ _ hvalue => pure fun _ _ => hvalue

private theorem primary (G : Grammar Seen E S) (hin : NestedReads Seen E S n inner) :
    Reads Seen 1 pre (primary inner) fun e _ => E (n + 1) .primary e := by
  refine bind peek fun kind k hk => ?_
  obtain ⟨rfl, _, hseen⟩ := hk
  split
  case h_1 => exact first (advance (fun _ h => h.1) rfl) fun _ _ _ => pure fun _ _ => G.number (hseen rfl)
  case h_2 => exact first (advance (fun _ h => h.1) rfl) fun _ _ _ => pure fun _ _ => G.string (hseen rfl)
  case h_3 => exact first (advance (fun _ h => h.1) rfl) fun _ _ _ => pure fun _ _ => G.boolean true
  case h_4 => exact first (advance (fun _ h => h.1) rfl) fun _ _ _ => pure fun _ _ => G.boolean false
  case h_5 => exact first (advance (fun _ h => h.1) rfl) fun _ _ _ => pure fun _ _ => G.null
  case h_6 => exact first (advance (fun _ h => h.1) rfl) fun _ _ _ => pure fun _ _ => G.identifier (hseen rfl)
  case h_7 =>
    exact first (advance (fun _ h => h.1) rfl) fun _ _ _ => bind hin.expression.any fun _ _ hvalue =>
      bind expect.any fun _ _ _ => pure fun _ _ => G.parenthesized hvalue
  case h_8 =>
    exact first (advance (fun _ h => h.1) rfl) fun _ _ _ => bind (itemsUntil hin.expression.any _) fun _ _ hitems =>
      pure fun _ _ => G.array hitems
  case h_9 =>
    exact first (advance (fun _ h => h.1) rfl) fun _ _ _ => bind (itemsUntil (entry G hin) _) fun _ _ hentries =>
      pure fun _ _ => G.object hentries
  case h_10 =>
    exact first (function hin fun _ h => h.1) fun _ _ hf => pure fun _ _ => G.function hf
  all_goals exact fail

private theorem arguments (hin : NestedReads Seen E S n inner) :
    Reads Seen 1 pre (arguments inner) fun args _ => ∀ a ∈ args, E n .assignment a :=
  first expect fun _ _ _ => itemsUntil hin.expression.any _

private theorem membersAfter (G : Grammar Seen E S) {p : Precedence} (fuel : Nat) {object : Expression}
    (ho : E (n + 1) p object) :
    Reads Seen 0 pre (membersAfter fuel object) fun e _ => E (n + 1) p e := by
  induction fuel generalizing pre object with
  | zero => exact pure fun _ _ => ho
  | succ fuel ih =>
    refine bind accept fun b k _ => ite (fun _ => ?_) fun _ => pure fun _ _ => ho
    exact bind propertyName.any fun name k hname => ih (G.member ho hname)

private theorem construction (G : Grammar Seen E S) (hin : NestedReads Seen E S n inner)
    (hpre : ∀ k, pre k → .keyword .new_ = k) :
    Reads Seen 1 pre (construction inner) fun e _ => E (n + 1) .access e := by
  refine first (advance hpre rfl) fun _ _ _ => bind (primary G hin).any fun head _ hhead => ?_
  refine bind (membersAfter G _ hhead) fun callee _ hcallee => bind atMark fun b _ _ => ite (fun _ => ?_) fun _ => ?_
  · exact bind (arguments hin).any fun args _ hargs => pure fun _ _ => G.construct hcallee hargs
  · exact pure fun _ _ => G.construct hcallee (by simp)

private theorem accessesAfter (G : Grammar Seen E S) (hin : NestedReads Seen E S n inner) (fuel : Nat)
    {object : Expression}
    (ho : E (n + 1) .access object) :
    Reads Seen 0 pre (accessesAfter inner fuel object) fun e _ => E (n + 1) .access e := by
  induction fuel generalizing pre object with
  | zero => exact pure fun _ _ => ho
  | succ fuel ih =>
    refine bind peek fun kind k hk => ?_
    obtain ⟨rfl, _⟩ := hk
    split
    · exact bind (advance (fun _ h => h.1) rfl).any fun _ _ _ => bind propertyName.any fun name _ hname =>
        ih (G.member ho hname)
    · exact bind (advance (fun _ h => h.1) rfl).any fun _ _ _ => bind hin.expression.any fun key _ hkey =>
        bind expect.any fun _ _ _ => ih (G.index ho hkey)
    · exact bind (arguments hin).any fun args _ hargs => ih (G.call ho hargs)
    · exact pure fun _ _ => ho

private theorem access (G : Grammar Seen E S) (hin : NestedReads Seen E S n inner) :
    Reads Seen 1 pre (access inner) fun e _ => E (n + 1) .access e := by
  refine bind atKeyword fun b k hb => ite (fun h => ?_) fun _ => ?_
  · exact first (construction G hin fun k hk => (hk.2.1 h).symm) fun _ _ hhead => accessesAfter G hin _ hhead
  · exact first (primary G hin) fun _ _ hhead => accessesAfter G hin _ (G.looser (p := .access) hhead)

private theorem unary (G : Grammar Seen E S) (hin : NestedReads Seen E S n inner) :
    Reads Seen 1 pre (unary inner) fun e _ => E (n + 1) .unary e := by
  refine bind peek fun kind k hk => ?_
  obtain ⟨rfl, _⟩ := hk
  split
  · next op hop =>
    have hproper := isProper_of_unaryOperator? hop
    exact first (advance (fun _ h => h.1) hproper) fun _ _ _ => bind hin.operand.any fun _ _ hoperand =>
      pure fun _ _ => G.unary op hoperand
  · exact (access G hin).weaken (fun _ => id) fun _ _ => G.looser (p := .unary)

private theorem operatorsAfter (G : Grammar Seen E S) {p : Precedence} {operand : Parser Expression}
    (h : ∀ {pre}, Reads Seen 1 pre operand fun e _ => E (n + 1) p.tighter e) (fuel : Nat) {left : Expression}
    (hl : E (n + 1) p left) :
    Reads Seen 0 pre (operatorsAfter (operator? p) operand fuel left) fun e _ => E (n + 1) p e := by
  induction fuel generalizing pre left with
  | zero => exact pure fun _ _ => hl
  | succ fuel ih =>
    refine bind peek fun kind k hk => ?_
    obtain ⟨rfl, _⟩ := hk
    split
    · exact pure fun _ _ => hl
    · next build hbuild =>
      obtain ⟨op, rfl, rfl, rfl⟩ | ⟨op, rfl, rfl, rfl⟩ := operator?_eq_some hbuild
      · exact bind (advance (fun _ h => h.1) rfl).any fun _ _ _ => bind h.any fun _ _ hr => ih (G.binary op hl hr)
      · exact bind (advance (fun _ h => h.1) rfl).any fun _ _ _ => bind h.any fun _ _ hr => ih (G.logical op hl hr)

private theorem chain (G : Grammar Seen E S) {p : Precedence} (hp : p.isChain = true)
    (h : ∀ {pre}, Reads Seen 1 pre (expressionAt inner p.tighter) fun e _ => E (n + 1) p.tighter e) :
    Reads Seen 1 pre (expressionAt inner p) fun e _ => E (n + 1) p e := by
  rw [expressionAt_of_isChain inner hp]
  exact first h fun _ _ he => operatorsAfter G h _ (G.looser he)

private theorem disjunction (G : Grammar Seen E S) (hin : NestedReads Seen E S n inner) :
    Reads Seen 1 pre (disjunction inner) fun e _ => E (n + 1) .disjunction e :=
  chain (p := .disjunction) G rfl <| chain (p := .conjunction) G rfl <| chain (p := .equality) G rfl <|
    chain (p := .comparison) G rfl <| chain (p := .sum) G rfl <| chain (p := .product) G rfl <| unary G hin

private theorem assignment (G : Grammar Seen E S) (hin : NestedReads Seen E S n inner) :
    Reads Seen 1 pre (assignment inner) fun e _ => E (n + 1) .assignment e := by
  refine bind get fun _ _ _ => first (disjunction G hin) fun target _ htarget => ?_
  refine bind atMark fun b k hb => ite (fun h => ite (fun hassign => ?_) fun _ => throw) fun _ => ?_
  · exact bind (advance (fun k hk => (hk.2.1 h).symm) rfl).any fun _ _ _ =>
      bind hin.expression.any fun _ _ hvalue => pure fun _ _ => G.assign hassign htarget hvalue
  · exact pure fun _ _ => G.looser (p := .assignment) htarget

/-! ## Statements -/

private theorem bindings (hin : NestedReads Seen E S n inner) {kind : DeclarationKind} (fuel : Nat) :
    Reads Seen 0 pre (bindings inner kind fuel) fun bound _ =>
      bound ≠ [] ∧ ∀ b ∈ bound, Binds Seen (E n .assignment) kind b := by
  induction fuel generalizing pre with
  | zero => exact fail
  | succ fuel ih =>
    refine bind identifier.any fun name _ hname => bind accept fun b _ _ => ?_
    have rest {pre : Kind → Prop} {value? : Option Expression}
        (hb : Binds Seen (E n .assignment) kind (name, value?)) :
        Reads Seen 0 pre (do
          if ← Parser.accept .comma then return (name, value?) :: (← Parser.bindings inner kind fuel)
          else return [(name, value?)]) fun bound _ =>
            bound ≠ [] ∧ ∀ b ∈ bound, Binds Seen (E n .assignment) kind b := by
      refine bind accept fun b _ _ => ite (fun _ => ?_) fun _ => pure fun _ _ => ⟨by simp, by simpa using hb⟩
      exact bind ih fun bound _ hbound => pure fun _ _ => ⟨by simp, List.forall_mem_cons.2 ⟨hb, hbound.2⟩⟩
    refine ite (fun _ => ?_) fun _ => ite (fun _ => fail_bind) fun hk => rest ⟨hname, by simp, fun h => absurd h hk⟩
    have value {pre : Kind → Prop} : Reads Seen 0 pre (some <$> inner.expression)
        fun value? _ => value?.isSome = true ∧ ∀ v ∈ value?, E n .assignment v :=
      map hin.expression.any fun value _ h => ⟨rfl, by simpa using h⟩
    exact bind value fun value? _ h => rest ⟨hname, h.2, fun _ => h.1⟩

private theorem endOfStatement : Reads Seen 0 pre endOfStatement fun _ _ => True :=
  bind accept fun _ _ _ => pure fun _ _ => trivial

private theorem declaration (G : Grammar Seen E S) (hin : NestedReads Seen E S n inner) {kind : DeclarationKind}
    {word : Keyword} (hpre : ∀ k, pre k → .keyword word = k) :
    Reads Seen 1 pre (declaration inner kind) fun s k => S (n + 1) s ∧ (s.isOpen = true → k ≠ .keyword .else_) :=
  first (advance hpre rfl) fun _ _ _ => bind (bindings hin _) fun _ _ hbound => bind endOfStatement fun _ _ _ =>
    pure fun _ _ => ⟨G.declare hbound.1 hbound.2, by simp [Statement.isOpen]⟩

private theorem conditional (G : Grammar Seen E S) (hin : NestedReads Seen E S n inner)
    (hpre : ∀ k, pre k → .keyword .if_ = k) :
    Reads Seen 1 pre (conditional inner) fun s k => S (n + 1) s ∧ (s.isOpen = true → k ≠ .keyword .else_) := by
  refine first (advance hpre rfl) fun _ _ _ => bind expect.any fun _ _ _ => ?_
  refine bind hin.expression.any fun test _ htest => bind expect.any fun _ _ _ => ?_
  refine bind hin.statement.any fun yes _ hyes => ?_
  refine bind acceptKeyword fun b k hb => ite (fun h => ?_) fun h => ?_
  · -- Behind an open statement no `else` is left.
    have hclosed : yes.isOpen = false := by
      cases ho : yes.isOpen with
      | false => rfl
      | true => exact absurd rfl ((hb.1 h).2 ho)
    exact bind hin.statement.any fun no _ hno => pure fun _ hk =>
      ⟨G.alternative htest hyes.1 hclosed hno.1, hk.2⟩
  · exact pure fun k hk => ⟨G.conditional htest hyes.1, fun _ => (hk.2 (by simpa using h)).2⟩

private theorem throwing (G : Grammar Seen E S) (hin : NestedReads Seen E S n inner)
    (hpre : ∀ k, pre k → .keyword .throw_ = k) :
    Reads Seen 1 pre (throwing inner) fun s k => S (n + 1) s ∧ (s.isOpen = true → k ≠ .keyword .else_) :=
  first (advance hpre rfl) fun _ _ _ => bind hin.expression.any fun _ _ hvalue => bind endOfStatement fun _ _ _ =>
    pure fun _ _ => ⟨G.throw_ hvalue, by simp [Statement.isOpen]⟩

private theorem returning (G : Grammar Seen E S) (hin : NestedReads Seen E S n inner)
    (hpre : ∀ k, pre k → .keyword .return_ = k) :
    Reads Seen 1 pre (returning inner) fun s k => S (n + 1) s ∧ (s.isOpen = true → k ≠ .keyword .else_) := by
  refine first (advance hpre rfl) fun _ _ _ => bind peek fun kind k _ => ?_
  have rest {pre : Kind → Prop} {value? : Option Expression} (hvalue : ∀ v ∈ value?, E n .assignment v) :
      Reads Seen 0 pre (do
        Parser.endOfStatement
        return Statement.return_ value?) fun s k => S (n + 1) s ∧ (s.isOpen = true → k ≠ .keyword .else_) :=
    bind endOfStatement fun _ _ _ => pure fun _ _ => ⟨G.return_ hvalue, by simp [Statement.isOpen]⟩
  split
  · exact rest (by simp)
  · exact rest (by simp)
  · exact rest (by simp)
  · have value {pre : Kind → Prop} : Reads Seen 0 pre (some <$> inner.expression)
        fun value? _ => ∀ v ∈ value?, E n .assignment v :=
      map hin.expression.any fun value _ h => by simpa using h
    exact bind value fun _ _ h => rest h

private theorem handler? (hin : NestedReads Seen E S n inner) :
    Reads Seen 0 pre (handler? inner) fun handler _ =>
      ∀ parameter caught, some (Handler.mk parameter caught) = handler →
        (∀ x ∈ parameter, Seen (.identifier x)) ∧ ∀ s ∈ caught, S n s := by
  refine bind acceptKeyword fun _ _ _ => ite (fun _ => bind accept fun b _ _ => ?_) fun _ => pure (by simp)
  have rest {pre : Kind → Prop} {parameter : Option String} (hparameter : ∀ x ∈ parameter, Seen (.identifier x)) :
      Reads Seen 0 pre (do return some (Handler.mk parameter (← Parser.blockBody inner))) fun handler _ =>
        ∀ parameter caught, some (Handler.mk parameter caught) = handler →
          (∀ x ∈ parameter, Seen (.identifier x)) ∧ ∀ s ∈ caught, S n s :=
    bind (blockBody hin).any fun body _ hbody => pure fun _ _ parameter caught h => by
      obtain ⟨rfl, rfl⟩ := Handler.mk.inj (Option.some.inj h)
      exact ⟨hparameter, hbody⟩
  refine ite (fun _ => bind identifier.any fun name _ hname => bind expect.any fun _ _ _ => ?_) fun _ => rest (by simp)
  exact rest (by simpa using hname)

private theorem finalizer? (hin : NestedReads Seen E S n inner) :
    Reads Seen 0 pre (finalizer? inner) fun finalizer _ => ∀ last ∈ finalizer, ∀ s ∈ last, S n s :=
  bind acceptKeyword fun _ _ _ => ite
    (fun _ => bind (blockBody hin).any fun _ _ hbody => pure fun _ _ => by simpa using hbody) fun _ => pure (by simp)

private theorem trying (G : Grammar Seen E S) (hin : NestedReads Seen E S n inner)
    (hpre : ∀ k, pre k → .keyword .try_ = k) :
    Reads Seen 1 pre (trying inner) fun s k => S (n + 1) s ∧ (s.isOpen = true → k ≠ .keyword .else_) := by
  refine first (advance hpre rfl) fun _ _ _ => bind (blockBody hin).any fun body _ hbody => ?_
  refine bind (handler? hin) fun handler _ hhandler => bind (finalizer? hin) fun finalizer _ hfinalizer => ?_
  refine ite (fun _ => fail) fun h => pure fun _ _ => ⟨G.try_ hbody hhandler hfinalizer ?_, by simp [Statement.isOpen]⟩
  cases handler <;> cases finalizer <;> simp_all

private theorem functionDeclaration (G : Grammar Seen E S) (hin : NestedReads Seen E S n inner)
    (hpre : ∀ k, pre k → .keyword .function_ = k) :
    Reads Seen 1 pre (functionDeclaration inner) fun s k =>
      S (n + 1) s ∧ (s.isOpen = true → k ≠ .keyword .else_) := by
  refine first (function hin hpre) fun f _ hf => ite (fun _ => fail) fun h => pure fun _ _ => ?_
  refine ⟨?_, by simp [Statement.isOpen]⟩
  exact G.declaredFunction (by simpa [Option.isSome_iff_ne_none] using h) hf

private theorem expressionStatement (G : Grammar Seen E S) (hin : NestedReads Seen E S n inner) :
    Reads Seen 1 pre (expressionStatement inner) fun s k =>
      S (n + 1) s ∧ (s.isOpen = true → k ≠ .keyword .else_) :=
  first hin.expression fun _ _ hvalue => bind endOfStatement fun _ _ _ =>
    pure fun _ _ => ⟨G.expression hvalue, by simp [Statement.isOpen]⟩

private theorem statement (G : Grammar Seen E S) (hin : NestedReads Seen E S n inner) :
    Reads Seen 1 pre (statement inner) fun s k => S (n + 1) s ∧ (s.isOpen = true → k ≠ .keyword .else_) := by
  refine bind peek fun kind k hk => ?_
  obtain ⟨rfl, _⟩ := hk
  split
  · exact declaration G hin fun _ h => h.1
  · exact declaration G hin fun _ h => h.1
  · exact declaration G hin fun _ h => h.1
  · exact conditional G hin fun _ h => h.1
  · exact throwing G hin fun _ h => h.1
  · exact functionDeclaration G hin fun _ h => h.1
  · exact returning G hin fun _ h => h.1
  · exact trying G hin fun _ h => h.1
  · exact first (blockBody hin) fun _ _ hbody => pure fun _ _ => ⟨G.block hbody, by simp [Statement.isOpen]⟩
  · exact first (advance (fun _ h => h.1) rfl) fun _ _ _ => pure fun _ _ => ⟨G.empty, by simp [Statement.isOpen]⟩
  · exact expressionStatement G hin

/-- What the rules of a grammar keep holds of all that is read with any number of levels of nesting. -/
theorem nested (G : Grammar Seen E S) (rounds : Nat) : ∀ n, NestedReads Seen E S n (nested rounds n)
  | 0 => ⟨fail, fail, fail⟩
  | n + 1 => ⟨statement G (nested G rounds n), assignment G (nested G rounds n), unary G (nested G rounds n)⟩

end Reads

private theorem bind_eq_ok {α β : Type} {p : Parser α} {f : α → Parser β} {tokens rest : List Token} {value : β}
    (h : (p >>= f) tokens = .ok (value, rest)) :
    ∃ v middle, p tokens = .ok (v, middle) ∧ f v middle = .ok (value, rest) := by
  rw [bind_apply] at h
  cases hp : p tokens with
  | error e =>
    rw [hp] at h
    contradiction
  | ok result =>
    rw [hp] at h
    exact ⟨result.1, result.2, rfl, h⟩

/-- The statements are read up to the end, for each of them takes a token. -/
theorem statements_eq_ok {Seen : Kind → Prop} {E : Nat → Precedence → Expression → Prop} {S : Nat → Statement → Prop}
    {n : Nat} {inner : Nested} (hin : NestedReads Seen E S n inner) (fuel : Nat) {tokens rest : List Token}
    {body : List Statement} (hg : Genuine Seen tokens) (hlen : tokens.length ≤ fuel)
    (h : statements inner fuel tokens = .ok (body, rest)) :
    Takes 0 tokens rest ∧ (current rest).kind = .eof ∧ ∀ s ∈ body, S n s := by
  induction fuel generalizing tokens body with
  | zero =>
    obtain ⟨rfl, rfl⟩ := Prod.mk.inj (Except.ok.inj h)
    obtain rfl := List.eq_nil_of_length_eq_zero (Nat.le_zero.1 hlen)
    exact ⟨.refl _, rfl, by simp⟩
  | succ fuel ih =>
    obtain ⟨kind, _, hpeek, h⟩ := bind_eq_ok h
    split at h
    · obtain ⟨heof, rfl⟩ := Prod.mk.inj (Except.ok.inj hpeek)
      obtain ⟨rfl, rfl⟩ := Prod.mk.inj (Except.ok.inj h)
      exact ⟨.refl _, heof, by simp⟩
    · obtain ⟨_, rfl⟩ := Prod.mk.inj (Except.ok.inj hpeek)
      obtain ⟨s, middle, hs, h⟩ := bind_eq_ok h
      obtain ⟨body', _, hbody, h⟩ := bind_eq_ok h
      obtain ⟨rfl, rfl⟩ := Prod.mk.inj (Except.ok.inj h)
      have hstatement : Reads Seen 1 (fun _ => True) inner.statement _ := hin.statement
      obtain ⟨ht, ⟨hS, _⟩⟩ := hstatement tokens hg trivial s middle hs
      have hmiddle := ht.length_le
      obtain ⟨ht', hrest, hS'⟩ := ih (hg.rest ht) (by omega) hbody
      exact ⟨(ht.trans ht').any, hrest, List.forall_mem_cons.2 ⟨hS, hS'⟩⟩

/-- Once only the end of the text is left, it is all that is left. -/
theorem eq_last_of_takes {source : String} {rest : List Token} (h : Takes 0 (scan source) rest)
    (hrest : (current rest).kind = .eof) :
    ∃ last, (scan source).getLast? = some last ∧ last.kind = .eof ∧ rest = [last] := by
  obtain ⟨own, last, hscan, hlast, hown⟩ := scan_eq_append_eof source
  obtain ⟨taken, htaken, _, hproper⟩ := h
  refine ⟨last, by simp [hscan], hlast, ?_⟩
  rw [hscan] at htaken
  obtain ⟨more, rfl, hr⟩ | ⟨more, rfl, hr⟩ := List.append_eq_append_iff.1 htaken
  · cases more with
    | nil => exact hr.symm
    | cons token more =>
      obtain ⟨rfl, _⟩ := List.cons.inj hr
      have hp := hproper last (by simp)
      rw [hlast] at hp
      contradiction
  · cases more with
    | nil => exact hr
    | cons token more =>
      subst hr
      exact absurd hrest (hown token (by simp))

end Parser

/-- Once only the end of a text is left, all other tokens have been taken. -/
private theorem isProper_or_eof {source : String} {rest : List Token} (h : Parser.Takes 0 (scan source) rest)
    (hrest : (Parser.current rest).kind = .eof) {token : Token} (hm : token ∈ scan source) :
    token.kind.isProper = true ∨ token.kind = .eof := by
  obtain ⟨last, _, hlast, rfl⟩ := Parser.eq_last_of_takes h hrest
  obtain ⟨taken, htaken, _, hproper⟩ := h
  rw [htaken] at hm
  obtain hm | hm := List.mem_append.1 hm
  · exact .inl (hproper token hm)
  · obtain rfl := List.mem_singleton.1 hm
    exact .inr hlast

private theorem eq_ok_of_map {α β : Type} {x : Except SyntaxFault α} {f : α → β} {b : β} (h : x.map f = .ok b) :
    ∃ a, x = .ok a ∧ f a = b := by
  cases x with
  | error => contradiction
  | ok a => exact ⟨a, rfl, Except.ok.inj h⟩

/-- What all rules keep holds of each statement of a program, and each token of its text but the last is one. -/
theorem Grammar.parse {Seen : Kind → Prop} {E : Nat → Precedence → Expression → Prop} {S : Nat → Statement → Prop}
    (G : Grammar Seen E S) {source : String} {program : List Statement}
    (hseen : Parser.Genuine Seen (scan source)) (h : parse source = .ok program) :
    (∀ s ∈ program, S nestingLimit s) ∧ ∀ token ∈ scan source, token.kind.isProper = true ∨ token.kind = .eof := by
  rw [parse_of_scan rfl] at h
  obtain ⟨⟨_, rest⟩, hrun, rfl⟩ := eq_ok_of_map h
  obtain ⟨ht, heof, hS⟩ := Parser.statements_eq_ok (Parser.Reads.nested G _ _) _ hseen (Nat.le_refl _) hrun
  exact ⟨hS, fun _ => isProper_or_eof ht heof⟩

end ScriptModules.Script
