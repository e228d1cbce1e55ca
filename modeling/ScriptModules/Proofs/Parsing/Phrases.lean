import ScriptModules.Script.Tree

/-!
# Phrases

Expressions, statements and functions are the phrases that a program is made of.  A phrase has parts, which are
smaller (`Expression.sizeOf_operand`, `Statement.sizeOf_body` and so on), and what occurs in it is the phrase itself
and what occurs in its parts (`Phrase.occursIn_iff`).
-/

namespace ScriptModules.Script

/-! ## Parts -/

namespace Handler

def parameter : Handler → Option String
  | .mk parameter _ => parameter

def body : Handler → List Statement
  | .mk _ body => body

end Handler

namespace Expression

/-- The expressions that stand in an expression, outside of the functions in it. -/
@[simp] def operands : Expression → List Expression
  | array items => items
  | object entries => entries.map (·.2)
  | member base _ => [base]
  | index base key => [base, key]
  | call callee arguments | construct callee arguments => callee :: arguments
  | unary _ operand => [operand]
  | binary _ left right | logical _ left right | assign left right => [left, right]
  | _ => []

/-- The expressions that are evaluated for an expression.  The target of an assignment is taken apart. -/
@[simp] def evaluated : Expression → List Expression
  | assign target value => target.operands ++ [value]
  | e => e.operands

/-- The function that the expression makes. -/
@[simp] def function? : Expression → Option Function
  | function definition => some definition
  | _ => none

end Expression

namespace Statement

/-- The expressions that stand in a statement, outside of other statements. -/
@[simp] def expressions : Statement → List Expression
  | declare _ bindings => bindings.filterMap (·.2)
  | expression value | throw_ value => [value]
  | branch test _ _ => [test]
  | return_ value? => value?.toList
  | _ => []

/-- The statements that an `if` chooses from. -/
@[simp] def branches : Statement → List Statement
  | branch _ yes no => yes :: no.toList
  | _ => []

/-- The lists of statements in a statement. -/
@[simp] def bodies : Statement → List (List Statement)
  | block body => [body]
  | try_ body handler finalizer => body :: (handler.toList.map Handler.body ++ finalizer.toList)
  | _ => []

/-- The function that the statement declares. -/
@[simp] def function? : Statement → Option Function
  | function definition => some definition
  | _ => none

end Statement

/-! ## Sizes -/

section

variable {e e' : Expression} {s s' : Statement} {f : Function} {body : List Statement}

private theorem Expression.sizeOf_operand (h : e' ∈ e.operands) : sizeOf e' < sizeOf e := by
  cases e with
  | object entries =>
    obtain ⟨entry, hm, rfl⟩ := List.mem_map.1 h
    have hentry := List.sizeOf_lt_of_mem hm
    cases entry
    simp only [object.sizeOf_spec, Prod.mk.sizeOf_spec] at *
    omega
  | array items =>
    have hitem : sizeOf e' < sizeOf items := List.sizeOf_lt_of_mem h
    simp only [array.sizeOf_spec]
    omega
  | call callee arguments | construct callee arguments =>
    obtain rfl | hm := List.mem_cons.1 h
    · simp +arith
    · have hargument := List.sizeOf_lt_of_mem hm
      simp only [call.sizeOf_spec, construct.sizeOf_spec]
      omega
  | index left right | binary _ left right | logical _ left right | assign left right =>
    obtain rfl | hm := List.mem_cons.1 h
    · simp +arith
    · obtain rfl := List.mem_singleton.1 hm
      simp +arith
  | member operand _ | unary _ operand =>
    obtain rfl := List.mem_singleton.1 h
    simp +arith
  | _ => exact absurd h List.not_mem_nil

/-- What is evaluated for an expression is smaller than the expression. -/
theorem Expression.sizeOf_evaluated (h : e' ∈ e.evaluated) : sizeOf e' < sizeOf e := by
  cases e with
  | assign target value =>
    simp only [assign.sizeOf_spec]
    obtain hm | hm := List.mem_append.1 h
    · have := sizeOf_operand hm
      omega
    · obtain rfl := List.mem_singleton.1 hm
      omega
  | _ => exact sizeOf_operand h

theorem Expression.sizeOf_function (h : e.function? = some f) : sizeOf f < sizeOf e := by
  cases e with
  | function definition =>
    obtain rfl := Option.some.inj h
    simp +arith
  | _ => contradiction

theorem Statement.sizeOf_expression (h : e ∈ s.expressions) : sizeOf e < sizeOf s := by
  cases s with
  | declare kind bindings =>
    obtain ⟨⟨name, value?⟩, hm, hvalue⟩ := List.mem_filterMap.1 h
    have hbinding := List.sizeOf_lt_of_mem hm
    obtain rfl : value? = some e := hvalue
    simp only [declare.sizeOf_spec, Prod.mk.sizeOf_spec, Option.some.sizeOf_spec] at *
    omega
  | return_ value? =>
    obtain rfl : value? = some e := by simpa [expressions] using h
    simp +arith
  | expression _ | throw_ _ | branch _ _ _ =>
    obtain rfl := List.mem_singleton.1 h
    simp +arith
  | _ => exact absurd h List.not_mem_nil

theorem Statement.sizeOf_branch (h : s' ∈ s.branches) : sizeOf s' < sizeOf s := by
  cases s with
  | branch test yes no =>
    simp only [branch.sizeOf_spec]
    obtain rfl | hm := List.mem_cons.1 h
    · omega
    · obtain rfl : no = some s' := by simpa using hm
      simp +arith
  | _ => exact absurd h List.not_mem_nil

theorem Statement.sizeOf_body (h : body ∈ s.bodies) : sizeOf body < sizeOf s := by
  cases s with
  | block own =>
    obtain rfl := List.mem_singleton.1 h
    simp +arith
  | try_ own handler finalizer =>
    simp only [try_.sizeOf_spec]
    obtain rfl | hm := List.mem_cons.1 h
    · omega
    obtain hm | hm := List.mem_append.1 hm
    · obtain ⟨⟨parameter, caught⟩, hh, rfl⟩ := List.mem_map.1 hm
      obtain rfl : handler = some ⟨parameter, caught⟩ := by simpa using hh
      simp +arith [Handler.body]
    · obtain rfl : finalizer = some body := by simpa using hm
      simp +arith
  | _ => exact absurd h List.not_mem_nil

theorem Statement.sizeOf_function (h : s.function? = some f) : sizeOf f < sizeOf s := by
  cases s with
  | function definition =>
    obtain rfl := Option.some.inj h
    simp +arith
  | _ => contradiction

theorem Function.sizeOf_body (f : Function) : sizeOf f.body < sizeOf f := by
  cases f
  simp +arith [Function.body]

end

/-! ## What occurs in a phrase -/

/-- An expression, a statement or a function. -/
inductive Phrase where
  | expression (value : Expression)
  | statement (value : Statement)
  | function (value : Function)

namespace Phrase

/-- The phrases that a phrase is made of. -/
def parts : Phrase → List Phrase
  | expression e => e.operands.map expression ++ e.function?.toList.map function
  | statement s => s.expressions.map expression ++ s.branches.map statement ++ s.bodies.flatten.map statement ++
      s.function?.toList.map function
  | function f => f.body.map statement

/-- The first phrase is the second one, or a part of it, or a part of a part, and so on. -/
inductive OccursIn : Phrase → Phrase → Prop
  | refl (phrase : Phrase) : OccursIn phrase phrase
  | part {phrase part whole : Phrase} : part ∈ whole.parts → OccursIn phrase part → OccursIn phrase whole

/-- A phrase occurs in another one if it is that one, or occurs in a part of it. -/
theorem occursIn_iff {phrase whole : Phrase} :
    phrase.OccursIn whole ↔ phrase = whole ∨ ∃ part ∈ whole.parts, phrase.OccursIn part := by
  constructor
  · intro h
    cases h with
    | refl => exact .inl rfl
    | part hm h => exact .inr ⟨_, hm, h⟩
  · rintro (rfl | ⟨part, hm, h⟩)
    · exact .refl _
    · exact .part hm h

end Phrase
end ScriptModules.Script
