import ScriptModules.Script.Parse

/-!
# Precedence

The ten precedences of expressions, from assignments, which are the loosest, to primary expressions.  Each has its
rule (`Parser.expressionAt`); for the binary operators that is a chain of operands of the next tighter precedence.
-/

namespace ScriptModules.Script

/-- How tight the outermost operator of an expression binds. -/
inductive Precedence where
  | assignment | disjunction | conjunction | equality | comparison | sum | product | unary | access | primary
  deriving DecidableEq, Repr

namespace Precedence

def rank : Precedence → Nat
  | assignment => 0 | disjunction => 1 | conjunction => 2 | equality => 3 | comparison => 4
  | sum => 5 | product => 6 | unary => 7 | access => 8 | primary => 9

/-- The next tighter precedence; there is none beyond `primary`. -/
def tighter : Precedence → Precedence
  | assignment => disjunction | disjunction => conjunction | conjunction => equality | equality => comparison
  | comparison => sum | sum => product | product => unary | unary => access | access => primary | primary => primary

/-- Is this the precedence of binary operators, which group to the left? -/
def isChain : Precedence → Bool
  | disjunction | conjunction | equality | comparison | sum | product => true
  | _ => false

end Precedence

def BinaryOperator.precedence : BinaryOperator → Precedence
  | add | subtract => .sum
  | multiply | divide | modulo => .product
  | equal | notEqual | strictEqual | strictNotEqual => .equality
  | lessThan | lessThanEqual | greaterThan | greaterThanEqual => .comparison

def LogicalOperator.precedence : LogicalOperator → Precedence
  | and => .conjunction
  | or => .disjunction

theorem BinaryOperator.isChain_precedence (op : BinaryOperator) : op.precedence.isChain = true := by
  cases op <;> rfl

theorem LogicalOperator.isChain_precedence (op : LogicalOperator) : op.precedence.isChain = true := by
  cases op <;> rfl

theorem Precedence.of_isChain {p : Precedence} (h : p.isChain = true) : p ≠ assignment ∧ p.rank < access.rank := by
  cases p <;> first | contradiction | decide

def BinaryOperator.mark : BinaryOperator → Mark
  | add => .plus | subtract => .minus | multiply => .star | divide => .slash | modulo => .percent
  | equal => .equalEqual | notEqual => .notEqual | strictEqual => .strictEqual | strictNotEqual => .strictNotEqual
  | lessThan => .lessThan | lessThanEqual => .lessThanEqual
  | greaterThan => .greaterThan | greaterThanEqual => .greaterThanEqual

def LogicalOperator.mark : LogicalOperator → Mark
  | and => .ampersandAmpersand
  | or => .pipePipe

namespace Parser

/-- The binary operators of a precedence. -/
def operator? : Precedence → Kind → Option (Expression → Expression → Expression)
  | .disjunction => orOperator?
  | .conjunction => andOperator?
  | .equality => equalityOperator?
  | .comparison => comparisonOperator?
  | .sum => sumOperator?
  | .product => productOperator?
  | _ => fun _ => none

/-- The rule for expressions of a precedence. -/
def expressionAt (inner : Nested) : Precedence → Parser Expression
  | .assignment => assignment inner
  | .disjunction => disjunction inner
  | .conjunction => conjunction inner
  | .equality => equality inner
  | .comparison => comparison inner
  | .sum => sum inner
  | .product => product inner
  | .unary => unary inner
  | .access => access inner
  | .primary => primary inner

/-- An expression with operators that group to the left is read as a chain of tighter ones. -/
theorem expressionAt_of_isChain (inner : Nested) {p : Precedence} (h : p.isChain = true) :
    expressionAt inner p = chain inner (operator? p) (expressionAt inner p.tighter) := by
  cases p <;> first | rfl | contradiction

/-- A binary operator is known by its mark, at its precedence. -/
theorem operator?_binary (op : BinaryOperator) :
    operator? op.precedence (.mark op.mark) = some (.binary op) := by
  cases op <;> rfl

theorem operator?_logical (op : LogicalOperator) :
    operator? op.precedence (.mark op.mark) = some (.logical op) := by
  cases op <;> rfl

/-- A binary operator of a precedence is a mark that builds a binary or a logical expression. -/
theorem operator?_eq_some {p : Precedence} {kind : Kind} {build : Expression → Expression → Expression}
    (h : operator? p kind = some build) :
    (∃ op : BinaryOperator, build = .binary op ∧ kind = .mark op.mark ∧ op.precedence = p) ∨
      ∃ op : LogicalOperator, build = .logical op ∧ kind = .mark op.mark ∧ op.precedence = p := by
  unfold operator? at h
  split at h
  case h_1 | h_2 =>
    simp only [orOperator?, andOperator?] at h
    split at h
    · exact .inr ⟨_, (Option.some.inj h).symm, rfl, rfl⟩
    · contradiction
  case h_7 => contradiction
  all_goals
    simp only [equalityOperator?, comparisonOperator?, sumOperator?, productOperator?] at h
    split at h
    all_goals first | contradiction | exact .inl ⟨_, (Option.some.inj h).symm, rfl, rfl⟩

end Parser
end ScriptModules.Script
