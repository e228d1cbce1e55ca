import ScriptModules.Proofs.Parsing.Yields

/-!
# What reads as an expression of a precedence

`Written q kinds e`: the tokens read as the expression `e` of precedence `q`, and so they do where any looser
expression may stand.  It is enough to know this of the rule for `q` itself (`Written.of_enters`): a looser rule begins
by reading a tighter expression, and is done where no token follows that goes on with it (`Kind.tightness`).
-/

namespace ScriptModules.Script

/-- How tight a token binds to the expression before it: it goes on with an expression of the precedence one below. -/
def Kind.tightness : Kind → Nat
  | .mark .dot | .mark .leftBracket | .mark .leftParen => 9
  | .mark .star | .mark .slash | .mark .percent => 7
  | .mark .plus | .mark .minus => 6
  | .mark .lessThan | .mark .lessThanEqual | .mark .greaterThan | .mark .greaterThanEqual => 5
  | .mark .equalEqual | .mark .notEqual | .mark .strictEqual | .mark .strictNotEqual => 4
  | .mark .ampersandAmpersand => 3
  | .mark .pipePipe => 2
  | .mark .equal => 1
  | _ => 0

/-- May an expression begin with a token of this kind? -/
def Kind.beginsExpression : Kind → Bool
  | .number _ | .string _ | .identifier _ => true
  | .keyword .function_ | .keyword .new_ | .keyword .typeof_ => true
  | .keyword .true_ | .keyword .false_ | .keyword .null_ => true
  | .mark .leftParen | .mark .leftBracket | .mark .leftBrace => true
  | .mark .bang | .mark .minus | .mark .plus => true
  | _ => false

/-- May an expression of the precedence begin with a token of this kind? -/
structure Precedence.BeginsWith (p : Precedence) (kind : Kind) : Prop where
  begins : kind.beginsExpression = true
  unary : access.rank ≤ p.rank → Parser.unaryOperator? kind = none
  new : p = primary → kind ≠ .keyword .new_

/-- An expression of the precedence ends before a token of this kind. -/
def Precedence.EndsBefore (p : Precedence) (kind : Kind) : Prop := kind.tightness ≤ p.rank

/-- The mark of a binary operator binds to operands that are tighter than the operator. -/
theorem BinaryOperator.tightness_mark (op : BinaryOperator) :
    (Kind.mark op.mark).tightness = op.precedence.rank + 1 := by
  cases op <;> rfl

theorem LogicalOperator.tightness_mark (op : LogicalOperator) :
    (Kind.mark op.mark).tightness = op.precedence.rank + 1 := by
  cases op <;> rfl

namespace Precedence

/-- The next tighter precedence ranks one higher. -/
theorem rank_tighter {p : Precedence} (h : p ≠ .primary) : p.tighter.rank = p.rank + 1 := by
  cases p <;> first | rfl | contradiction

private theorem rank_le_tighter (p : Precedence) : p.rank ≤ p.tighter.rank := by
  cases p <;> decide

theorem rank_le (p : Precedence) : p.rank ≤ primary.rank := by
  cases p <;> decide

private theorem eq_of_rank_eq {p q : Precedence} (h : p.rank = q.rank) : p = q := by
  cases p <;> cases q <;> first | rfl | contradiction

end Precedence

/-- No token binds tighter than what stands alone. -/
theorem Kind.tightness_le (kind : Kind) : kind.tightness ≤ Precedence.primary.rank := by
  unfold Kind.tightness
  split <;> decide

/-- Unary operators stand in front, so nothing goes on with an expression of just their precedence. -/
theorem Precedence.endsBefore_unary {kind : Kind} (h : access.EndsBefore kind) : unary.EndsBefore kind := by
  unfold EndsBefore Kind.tightness at *
  split at h <;> first | contradiction | decide

namespace Parser

private theorem operator?_eq_none {p : Precedence} {kind : Kind} (h : p.EndsBefore kind) : operator? p kind = none := by
  cases hb : operator? p kind with
  | none => rfl
  | some build =>
    obtain ⟨op, rfl, rfl, rfl⟩ | ⟨op, rfl, rfl, rfl⟩ := operator?_eq_some hb
    · have := op.tightness_mark
      unfold Precedence.EndsBefore at h
      omega
    · have := op.tightness_mark
      unfold Precedence.EndsBefore at h
      omega

/-- The loop of the rule for a precedence, which builds on the expression that it is given. -/
def loopAt (inner : Nested) : Precedence → Nat → Expression → Parser Expression
  | .access => accessesAfter inner
  | .assignment | .unary | .primary => fun _ e => pure e
  | p => operatorsAfter (operator? p) (expressionAt inner p.tighter)

/-- The loop at the precedence of operators that group to the left reads more of these. -/
theorem loopAt_of_isChain (inner : Nested) {p : Precedence} (h : p.isChain = true) :
    loopAt inner p = operatorsAfter (operator? p) (expressionAt inner p.tighter) := by
  cases p <;> first | rfl | contradiction

variable {deep : Prop} {inner : Nested} {p q : Precedence} {kinds : List Kind} {e : Expression}

/-- Where no token follows that goes on with it, the loop is done. -/
theorem goes_loopAt (fuel : Nat) : Goes deep inner.rounds (loopAt inner p fuel e) [] p.EndsBefore (pure e) := by
  have operators : Goes deep inner.rounds (operatorsAfter (operator? p) (expressionAt inner p.tighter) fuel e) []
      p.EndsBefore (pure e) := by
    cases fuel with
    | zero => exact .refl
    | succ fuel =>
      refine .peek_nil fun k hk => ?_
      rw [operator?_eq_none hk]
  cases p with
  | access =>
    cases fuel with
    | zero => exact .refl
    | succ fuel =>
      refine .peek_nil fun k hk => ?_
      unfold Precedence.EndsBefore at hk
      split <;> first | rfl | contradiction
  | assignment | unary | primary => exact .refl
  | _ => exact operators

/-- The tokens read as the expression wherever one of precedence `q` or a looser one may stand. -/
structure Written (deep : Prop) (inner : Nested) (q : Precedence) (kinds : List Kind) (e : Expression) : Prop where
  head : ∃ kind rest, kinds = kind :: rest ∧ q.BeginsWith kind
  assignment : Yields deep inner.rounds (assignment inner) kinds Precedence.assignment.EndsBefore e
  enters : ∀ p, p ≠ .assignment → p.rank ≤ q.rank →
    Enters deep inner.rounds (expressionAt inner p) kinds p.tighter.EndsBefore fun fuel => loopAt inner p fuel e

/-- An expression that is read up to the loop of a rule ends where the loop does. -/
theorem yields_of_enters
    (h : Enters deep inner.rounds (expressionAt inner p) kinds p.tighter.EndsBefore fun fuel => loopAt inner p fuel e) :
    Yields deep inner.rounds (expressionAt inner p) kinds p.EndsBefore e :=
  h.close (fun _ hk => Nat.le_trans hk p.rank_le_tighter) goes_loopAt

/-- A rule begins by reading what is one tighter, so its loop may start from there. -/
private theorem enters_of_tighter {kind : Kind} {rest : List Kind} (hp : p ≠ .assignment) (hp' : p ≠ .primary)
    (hunary : p = .unary → unaryOperator? kind = none) (hnew : p = .access → kind ≠ .keyword .new_)
    (h : Yields deep inner.rounds (expressionAt inner p.tighter) (kind :: rest) p.tighter.EndsBefore e) :
    Enters deep inner.rounds (expressionAt inner p) (kind :: rest) p.tighter.EndsBefore
      fun fuel => loopAt inner p fuel e := by
  refine .of_goes ?_
  cases p with
  | assignment | primary => contradiction
  | unary =>
    refine .peek ?_
    rw [hunary rfl]
    exact h
  | access => exact .not_atKeyword (fun _ _ => hnew rfl) (.ite_false (by simp) (.bind_last h))
  | _ => exact .bind_last h

/-- Where the rule for assignments finds no `=`, it has read what is tighter. -/
private theorem yields_assignment
    (h : Yields deep inner.rounds (expressionAt inner .disjunction) kinds Precedence.disjunction.EndsBefore e) :
    Yields deep inner.rounds (assignment inner) kinds Precedence.assignment.EndsBefore e := by
  refine .get fun tokens => .bind_nil h ?_ fun k hk => Nat.le_succ_of_le hk
  refine .not_atMark (fun k hk h => ?_) (.ite_false (by simp) .refl)
  obtain rfl : k = .mark .equal := h
  exact Nat.not_succ_le_zero 0 hk

namespace Written

variable {kind : Kind} {rest : List Kind}

/-- What is written for an expression is read at each precedence that is no tighter. -/
theorem yields (h : Written deep inner q kinds e) (hp : p ≠ .assignment) (hq : p.rank ≤ q.rank) :
    Yields deep inner.rounds (expressionAt inner p) kinds p.EndsBefore e :=
  yields_of_enters (h.enters p hp hq)

/-- What may stand where a precedence is asked for may stand where a looser one is. -/
theorem looser (h : Written deep inner q kinds e) (hp : p.rank ≤ q.rank) : Written deep inner p kinds e := by
  obtain ⟨kind, rest, hkinds, hhead⟩ := h.head
  refine ⟨⟨kind, rest, hkinds, hhead.begins, fun ha => hhead.unary (Nat.le_trans ha hp), ?_⟩, h.assignment,
    fun p' hp' hr => h.enters p' hp' (Nat.le_trans hr hp)⟩
  rintro rfl
  exact hhead.new (Precedence.eq_of_rank_eq (Nat.le_antisymm q.rank_le hp))

/-- It is enough that the rule for the precedence of an expression reads it up to the loop. -/
theorem of_enters (hq : q ≠ .assignment) (hhead : q.BeginsWith kind)
    (h : Enters deep inner.rounds (expressionAt inner q) (kind :: rest) q.tighter.EndsBefore
      fun fuel => loopAt inner q fuel e) : Written deep inner q (kind :: rest) e := by
  have enters (d : Nat) : ∀ p, p ≠ .assignment → p.rank + d = q.rank →
      Enters deep inner.rounds (expressionAt inner p) (kind :: rest) p.tighter.EndsBefore
        fun fuel => loopAt inner p fuel e := by
    induction d with
    | zero =>
      intro p _ hd
      obtain rfl := Precedence.eq_of_rank_eq hd
      exact h
    | succ d ih =>
      intro p hp hd
      have hprimary : p ≠ .primary := by
        rintro rfl
        have := q.rank_le
        omega
      have hrank := Precedence.rank_tighter hprimary
      have htighter : p.tighter ≠ .assignment := by
        intro ha
        rw [ha] at hrank
        contradiction
      have hle : p.tighter.rank ≤ q.rank := by omega
      refine enters_of_tighter hp hprimary ?_ ?_ (yields_of_enters (ih p.tighter htighter (by omega)))
      · rintro rfl
        exact hhead.unary hle
      · rintro rfl
        exact hhead.new (Precedence.eq_of_rank_eq (Nat.le_antisymm q.rank_le hle))
  have below : ∀ p, p ≠ .assignment → p.rank ≤ q.rank →
      Enters deep inner.rounds (expressionAt inner p) (kind :: rest) p.tighter.EndsBefore
        fun fuel => loopAt inner p fuel e :=
    fun p hp hr => enters (q.rank - p.rank) p hp (by omega)
  refine ⟨⟨kind, rest, rfl, hhead⟩, yields_assignment ?_, below⟩
  refine yields_of_enters (below .disjunction (by decide) ?_)
  cases q <;> first | contradiction | decide

/-- For the loosest expressions it is enough that the rule for assignments reads them. -/
theorem of_assignment (hhead : kind.beginsExpression = true)
    (h : Yields deep inner.rounds (Parser.assignment inner) (kind :: rest) Precedence.assignment.EndsBefore e) :
    Written deep inner .assignment (kind :: rest) e := by
  refine ⟨⟨kind, rest, rfl, hhead, by simp [Precedence.rank], by simp⟩, h, fun p hp hr => absurd ?_ hp⟩
  exact Precedence.eq_of_rank_eq (Nat.le_zero.1 hr)

/-- What is written behind an expression makes another one of it, in the loop of the rule. -/
theorem extend {more : List Kind} {e' : Expression} (h : Written deep inner q kinds e) (hq : q ≠ .assignment)
    (henters : Enters deep inner.rounds (expressionAt inner q) (kinds ++ more) q.tighter.EndsBefore
      fun fuel => loopAt inner q fuel e') : Written deep inner q (kinds ++ more) e' := by
  obtain ⟨kind, rest, rfl, hhead⟩ := h.head
  exact of_enters hq hhead henters

end Written
end Parser
end ScriptModules.Script
