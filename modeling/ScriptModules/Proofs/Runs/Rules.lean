import ScriptModules.Proofs.Parsing.Phrases
import ScriptModules.Proofs.Runs.Alike

/-!
# What the rules make of related steps

Every rule of the language makes a run out of the runs of the parts of a phrase.  So if two ways to take steps are
related on those parts, the rule makes related runs of them, for every relation that is kept by the ways in which
runs are put together (`Run.Ruled`).  One such relation is that runs are made alike, and by it what a program does
with some steps and with one more is related (`steps_alike`).
-/

namespace ScriptModules

namespace Run

/-- What is kept by the ways in which the rules make runs out of runs, where code makes such functions. -/
structure Ruled (made : Script.Function → Prop) (related : {α : Type} → Run α → Run α → Prop) : Prop where
  plain {α : Type} {run : Run α} : Plain false run → related run run
  bind {α β : Type} {run run' : Run α} {next next' : α → Run β} :
    related run run' → (∀ a, related (next a) (next' a)) → related (Run.bind run next) (Run.bind run' next')
  declareVariable (name : String) (value? : Option Value) :
    related (Run.declareVariable name value?) (Run.declareVariable name value?)
  declareLexical (name : String) (value : Value) (mutable : Bool) :
    related (Run.declareLexical name value mutable) (Run.declareLexical name value mutable)
  assign (name : String) (value : Value) : related (Run.assign name value) (Run.assign name value)
  newFunction (definition : Script.Function) :
    made definition → related (Run.newFunction definition) (Run.newFunction definition)
  inBlock {α : Type} {run run' : Run α} : related run run' → related (Run.inBlock run) (Run.inBlock run')
  catching {α : Type} {run run' : Run α} {handler handler' : Failure → Run α} : related run run' →
    (∀ failure, related (handler failure) (handler' failure)) →
    related (Run.catching run handler) (Run.catching run' handler')
  ensuring {run run' last last' : Run Completion} : related run run' → related last last' →
    related (Run.ensuring run last) (Run.ensuring run' last')

variable {α : Type} {writes : Bool}

private theorem Plain.lookup? (name : String) : Plain writes (lookup? name) := by
  unfold Run.lookup?
  exact .bind .heap fun heap => .bind (.read _) fun environment => .pure _

private theorem Plain.keyOf (value : Value) : Plain writes (Steps.keyOf value) := by
  unfold Steps.keyOf
  exact .bind .heap fun heap => .pure _

private theorem Plain.setEntries (target : Value) (entries : List (String × Value)) :
    Plain writes (setEntries target entries) := by
  induction entries with
  | nil => exact .pure _
  | cons entry entries ih =>
    unfold Run.setEntries
    cases target with
    | object id => exact .bind (.changeHeap fun _ => .of_arrays rfl rfl) fun _ => ih
    | _ => exact ih

/-- What an engine of the embedding program runs is no script. -/
theorem Plain.runForeign (next : Steps) (engine : ForeignEngine) (source : String) (scope : ModuleScope) :
    Plain writes (next.runCompiled (.foreign engine source) scope) :=
  .bind (.setEntries _ _) fun _ => .reply _

namespace Ruled

variable {made : Script.Function → Prop} {related : {α : Type} → Run α → Run α → Prop} (h : Ruled made @related)
  {next next' : Steps}

include h

/-! ## Statements -/

/-- The functions of a list of statements are declared in related ways. -/
theorem hoist {body : List Script.Statement} (hf : ∀ s ∈ body, ∀ f ∈ s.function?, made f) :
    related (Run.hoist body) (Run.hoist body) := by
  induction body with
  | nil => exact h.plain (.pure _)
  | cons statement rest ih =>
    obtain ⟨hfirst, hrest⟩ := List.forall_mem_cons.1 hf
    cases statement with
    | function definition =>
      unfold Run.hoist
      split
      · refine h.bind (h.newFunction definition (hfirst _ rfl)) fun value => h.bind (h.declareVariable _ _) fun _ => ?_
        exact ih hrest
      · exact ih hrest
    | _ => exact ih hrest

private theorem executeAll {body : List Script.Statement}
    (hb : ∀ s ∈ body, related (next.execute s) (next'.execute s)) (last : Option Value) :
    related (next.executeAll body last) (next'.executeAll body last) := by
  induction body generalizing last with
  | nil => exact h.plain (.pure _)
  | cons statement rest ih =>
    obtain ⟨hfirst, hrest⟩ := List.forall_mem_cons.1 hb
    refine h.bind hfirst fun completion => ?_
    cases completion with
    | normal value => exact ih hrest _
    | returned value => exact h.plain (.pure _)

theorem executeBody {body : List Script.Statement} (hf : ∀ s ∈ body, ∀ f ∈ s.function?, made f)
    (hb : ∀ s ∈ body, related (next.execute s) (next'.execute s)) :
    related (next.executeBody body) (next'.executeBody body) := by
  unfold Steps.executeBody
  exact h.bind (h.hoist hf) fun _ => h.executeAll hb _

private theorem executeCatch {handler : Script.Handler}
    (hb : related (next.executeBody handler.body) (next'.executeBody handler.body)) (thrown : Value) :
    related (next.executeCatch handler thrown) (next'.executeCatch handler thrown) := by
  obtain ⟨parameter, body⟩ := handler
  unfold Steps.executeCatch
  refine h.inBlock ?_
  cases parameter with
  | none => exact hb
  | some name => exact h.bind (h.declareLexical _ _ _) fun _ => hb

private theorem executeTry {body : List Script.Statement} {handler : Option Script.Handler}
    {finalizer : Option (List Script.Statement)}
    (hb : ∀ own ∈ (Script.Statement.try_ body handler finalizer).bodies,
      related (next.executeBody own) (next'.executeBody own)) :
    related (next.executeTry body handler finalizer) (next'.executeTry body handler finalizer) := by
  have htried := h.inBlock (hb body List.mem_cons_self)
  have hcatch (handler : Script.Handler)
      (hh : related (next.executeBody handler.body) (next'.executeBody handler.body)) (failure : Failure) :
      related (do next.executeCatch handler (← make fun heap => heap.caught failure))
        (do next'.executeCatch handler (← make fun heap => heap.caught failure)) :=
    h.bind (h.plain (.make fun heap => (Heap.sameButData_caught failure).sameFrame)) fun thrown =>
      h.executeCatch hh thrown
  unfold Steps.executeTry
  cases handler with
  | none =>
    cases finalizer with
    | none => exact htried
    | some finalizer => exact h.ensuring htried (h.inBlock (hb finalizer (by simp)))
  | some handler =>
    have hhandled := h.catching htried (hcatch handler (hb handler.body (by simp)))
    cases finalizer with
    | none => exact hhandled
    | some finalizer => exact h.ensuring hhandled (h.inBlock (hb finalizer (by simp)))

private theorem declareAll {kind : Script.DeclarationKind} {bindings : List (String × Option Script.Expression)}
    (he : ∀ binding ∈ bindings, ∀ e ∈ binding.2, related (next.evaluate e) (next'.evaluate e)) :
    related (next.declareAll kind bindings) (next'.declareAll kind bindings) := by
  have hdeclare (name : String) (value? : Option Value) :
      related (Steps.declare kind name value?) (Steps.declare kind name value?) := by
    cases kind with
    | var_ => exact h.declareVariable _ _
    | let_ => exact h.declareLexical _ _ _
    | const_ => exact h.declareLexical _ _ _
  induction bindings with
  | nil => exact h.plain (.pure _)
  | cons binding rest ih =>
    obtain ⟨hfirst, hrest⟩ := List.forall_mem_cons.1 he
    obtain ⟨name, value?⟩ := binding
    have hdeclared (value? : Option Value) :
        related (Run.bind (Steps.declare kind name value?) fun _ => next.declareAll kind rest)
          (Run.bind (Steps.declare kind name value?) fun _ => next'.declareAll kind rest) :=
      h.bind (hdeclare _ _) fun _ => ih hrest
    cases value? with
    | none => exact h.bind (h.plain (.pure _)) hdeclared
    | some value => exact h.bind (h.bind (hfirst value rfl) fun value => h.plain (.pure _)) hdeclared

/-- A statement is run in related ways, if its expressions, branches and bodies are. -/
theorem executeStatement {s : Script.Statement}
    (he : ∀ e ∈ s.expressions, related (next.evaluate e) (next'.evaluate e))
    (hs : ∀ branch ∈ s.branches, related (next.execute branch) (next'.execute branch))
    (hb : ∀ body ∈ s.bodies, related (next.executeBody body) (next'.executeBody body)) :
    related (next.executeStatement s) (next'.executeStatement s) := by
  cases s with
  | declare kind bindings =>
    refine h.bind (h.declareAll fun binding hm e hvalue => he e ?_) fun _ => h.plain (.pure _)
    exact List.mem_filterMap.2 ⟨binding, hm, hvalue⟩
  | expression value => exact h.bind (he value (by simp)) fun value => h.plain (.pure _)
  | block body => exact h.inBlock (hb body (by simp))
  | branch test yes no =>
    refine h.bind (he test (by simp)) fun value => ?_
    split
    · exact hs yes (by simp)
    · cases no with
      | some no => exact hs no (by simp)
      | none => exact h.plain (.pure _)
  | throw_ value => exact h.bind (he value (by simp)) fun value => h.plain (.fail _)
  | function definition => exact h.plain (.pure _)
  | return_ value? =>
    cases value? with
    | none => exact h.plain (.pure _)
    | some value => exact h.bind (he value (by simp)) fun value => h.plain (.pure _)
  | try_ body handler finalizer => exact h.executeTry hb
  | empty => exact h.plain (.pure _)

/-! ## Expressions -/

private theorem evaluateAll {items : List Script.Expression}
    (he : ∀ e ∈ items, related (next.evaluate e) (next'.evaluate e)) :
    related (next.evaluateAll items) (next'.evaluateAll items) := by
  induction items with
  | nil => exact h.plain (.pure _)
  | cons item items ih =>
    obtain ⟨hfirst, hrest⟩ := List.forall_mem_cons.1 he
    exact h.bind hfirst fun value => h.bind (ih hrest) fun values => h.plain (.pure _)

private theorem evaluateEntries {entries : List (String × Script.Expression)}
    (he : ∀ entry ∈ entries, related (next.evaluate entry.2) (next'.evaluate entry.2)) :
    related (next.evaluateEntries entries) (next'.evaluateEntries entries) := by
  induction entries with
  | nil => exact h.plain (.pure _)
  | cons entry entries ih =>
    obtain ⟨hfirst, hrest⟩ := List.forall_mem_cons.1 he
    exact h.bind hfirst fun value => h.bind (ih hrest) fun values => h.plain (.pure _)

private theorem evaluateFunction {f : Script.Function} (hf : made f) :
    related (Steps.evaluateFunction f) (Steps.evaluateFunction f) := by
  unfold Steps.evaluateFunction
  split
  · exact h.newFunction f hf
  · refine h.inBlock (h.bind (h.newFunction f hf) fun function => h.bind (h.declareLexical _ _ _) fun _ => ?_)
    exact h.plain (.pure _)

private theorem evaluateCall {callee : Script.Expression} {args : List Script.Expression}
    (he : ∀ e ∈ callee :: args, related (next.evaluate e) (next'.evaluate e))
    (hc : ∀ id args, related (next.call id args) (next'.call id args)) :
    related (next.evaluateCall callee args) (next'.evaluateCall callee args) := by
  obtain ⟨hcallee, hargs⟩ := List.forall_mem_cons.1 he
  unfold Steps.evaluateCall
  refine h.bind hcallee fun function => h.bind (h.evaluateAll hargs) fun args => ?_
  cases function with
  | host id =>
    refine h.bind (h.plain .heap) fun heap => ?_
    split
    · exact hc _ _
    · exact h.plain (.failType _)
  | _ => exact h.plain (.failType _)

private theorem evaluateAssign {target value : Script.Expression}
    (he : ∀ e ∈ target.operands ++ [value], related (next.evaluate e) (next'.evaluate e)) :
    related (next.evaluateAssign target value) (next'.evaluateAssign target value) := by
  have hvalue := he value (by simp)
  unfold Steps.evaluateAssign
  cases target with
  | identifier name => exact h.bind hvalue fun value => h.bind (h.assign _ _) fun _ => h.plain (.pure _)
  | member object name =>
    refine h.bind (he object (by simp)) fun object => h.bind hvalue fun value => ?_
    exact h.bind (h.plain (.setProperty _ _ _)) fun _ => h.plain (.pure _)
  | index object key =>
    refine h.bind (he object (by simp)) fun object => h.bind (he key (by simp)) fun key => ?_
    refine h.bind (h.plain (.keyOf _)) fun key => h.bind hvalue fun value => ?_
    exact h.bind (h.plain (.setProperty _ _ _)) fun _ => h.plain (.pure _)
  | _ => exact h.plain (.fail _)

private theorem evaluateUnary {operator : Script.UnaryOperator} {operand : Script.Expression}
    (he : related (next.evaluate operand) (next'.evaluate operand)) :
    related (next.evaluateUnary operator operand) (next'.evaluateUnary operator operand) := by
  unfold Steps.evaluateUnary
  split
  · refine h.bind (h.plain (.lookup? _)) fun value? => ?_
    split
    · exact h.plain (.pure _)
    · exact h.plain (.bind .heap fun heap => .pure _)
  · exact h.bind he fun value => h.plain (.bind .heap fun heap => .pure _)

/-- An expression is evaluated in related ways, if what is evaluated for it and the calls of functions are. -/
theorem evaluateExpression {e : Script.Expression}
    (he : ∀ e' ∈ e.evaluated, related (next.evaluate e') (next'.evaluate e')) (hf : ∀ f ∈ e.function?, made f)
    (hc : ∀ id args, related (next.call id args) (next'.call id args)) :
    related (next.evaluateExpression e) (next'.evaluateExpression e) := by
  cases e with
  | number _ | string _ | boolean _ | null => exact h.plain (.pure _)
  | identifier name =>
    unfold Steps.evaluateExpression
    refine h.plain (.bind (.lookup? _) fun value? => ?_)
    cases value? with
    | none => exact .fail _
    | some value => exact .pure _
  | array items => exact h.bind (h.evaluateAll he) fun items => h.plain (.newArray _)
  | object entries =>
    have hentries := List.forall_mem_map.1 he
    exact h.bind (h.evaluateEntries hentries) fun entries => h.plain (.newObject _)
  | function definition => exact h.evaluateFunction (hf _ rfl)
  | member object name => exact h.bind (he object (by simp)) fun object => h.plain (.property _ _)
  | index object key =>
    refine h.bind (he object (by simp)) fun object => h.bind (he key (by simp)) fun key => ?_
    exact h.plain (.bind (.keyOf _) fun key => .property _ _)
  | call callee args => exact h.evaluateCall he hc
  | construct callee args => exact h.evaluateCall he hc
  | unary operator operand => exact h.evaluateUnary (he operand (by simp))
  | binary operator left right =>
    refine h.bind (he left (by simp)) fun left => h.bind (he right (by simp)) fun right => ?_
    exact h.plain (.bind .heap fun heap => .pure _)
  | logical operator left right =>
    refine h.bind (he left (by simp)) fun left => ?_
    split
    · exact h.plain (.pure _)
    · exact he right (by simp)
  | assign target value => exact h.evaluateAssign he

/-! ## Calls and programs -/

private theorem declareParameters (names : List String) (args : List Value) :
    related (Steps.declareParameters names args) (Steps.declareParameters names args) := by
  induction names generalizing args with
  | nil => exact h.plain (.pure _)
  | cons name names ih => exact h.bind (h.declareVariable _ _) fun _ => ih _

/-- A function is run in related ways, if its body is. -/
theorem runFunction {f : Script.Function} (hb : related (next.executeBody f.body) (next'.executeBody f.body))
    (args : List Value) : related (next.runFunction f args) (next'.runFunction f args) := by
  unfold Steps.runFunction
  refine h.bind (h.plain (.newArray _)) fun items => h.bind (h.declareVariable _ _) fun _ => ?_
  refine h.bind (h.declareParameters _ _) fun _ => h.bind hb fun completion => ?_
  cases completion with
  | normal value => exact h.plain (.pure _)
  | returned value => exact h.plain (.pure _)

private theorem bindAll (bindings : List (String × Value)) :
    related (bindings.forM fun (name, value) => Run.declareVariable name (some value))
      (bindings.forM fun (name, value) => Run.declareVariable name (some value)) := by
  induction bindings with
  | nil => exact h.plain (.pure _)
  | cons binding bindings ih => exact h.bind (h.declareVariable _ _) fun _ => ih

theorem runStatements {body : List Script.Statement}
    (hb : related (next.executeBody body) (next'.executeBody body)) (bindings : List (String × Value)) :
    related (next.runStatements body bindings) (next'.runStatements body bindings) := by
  unfold Steps.runStatements
  refine h.bind (h.bindAll _) fun _ => h.bind hb fun completion => ?_
  cases completion with
  | normal value => exact h.plain (.pure _)
  | returned value => exact h.plain (.pure _)

end Ruled
end Run

/-! ## Runs that are made alike -/

variable {parts : (α : Type) → Run α → Run α → Prop} {n : Nat}

private theorem Run.Alike.ruled : Run.Ruled (sizeOf · ≤ n) (@Run.Alike parts n) where
  plain := .plain
  bind := .bind
  declareVariable := .declareVariable
  declareLexical := .declareLexical
  assign := .assign
  newFunction := .newFunction
  inBlock := .inBlock
  catching := .catching
  ensuring := .ensuring

namespace Steps

open Run

variable {next next' : Steps}

private theorem Alike.executeBody (h : next.Alike parts n next') {body : List Script.Statement} (hb : sizeOf body ≤ n) :
    Run.Alike parts n (next.executeBody body) (next'.executeBody body) := by
  refine Alike.ruled.executeBody (fun s hm f hf => ?_) fun s hm => ?_
  · have hs := List.sizeOf_lt_of_mem hm
    have hfunction := Script.Statement.sizeOf_function hf
    omega
  · exact h.execute s (Nat.lt_of_lt_of_le (List.sizeOf_lt_of_mem hm) hb)

theorem Alike.executeStatement (h : next.Alike parts n next') (statement : Script.Statement)
    (hs : sizeOf statement ≤ n) :
    Run.Alike parts n (next.executeStatement statement) (next'.executeStatement statement) := by
  refine Alike.ruled.executeStatement (fun e hm => ?_) (fun branch hm => ?_) fun body hm => ?_
  · exact h.evaluate e (Nat.lt_of_lt_of_le (Script.Statement.sizeOf_expression hm) hs)
  · exact h.execute branch (Nat.lt_of_lt_of_le (Script.Statement.sizeOf_branch hm) hs)
  · exact h.executeBody (Nat.le_trans (Nat.le_of_lt (Script.Statement.sizeOf_body hm)) hs)

theorem Alike.evaluateExpression (h : next.Alike parts n next') (expression : Script.Expression)
    (hs : sizeOf expression ≤ n) :
    Run.Alike parts n (next.evaluateExpression expression) (next'.evaluateExpression expression) := by
  refine Alike.ruled.evaluateExpression (fun e hm => ?_) (fun f hf => ?_) h.call
  · exact h.evaluate e (Nat.lt_of_lt_of_le (Script.Expression.sizeOf_evaluated hm) hs)
  · exact Nat.le_trans (Nat.le_of_lt (Script.Expression.sizeOf_function hf)) hs

theorem Alike.runFunction (h : next.Alike parts n next') (definition : Script.Function)
    (hs : sizeOf definition ≤ n) (args : List Value) :
    Run.Alike parts n (next.runFunction definition args) (next'.runFunction definition args) :=
  Alike.ruled.runFunction (h.executeBody (Nat.le_trans (Nat.le_of_lt definition.sizeOf_body) hs)) args

theorem Alike.runStatements (h : next.Alike parts n next') (body : List Script.Statement)
    (hb : sizeOf body ≤ n) (bindings : List (String × Value)) :
    Run.Alike parts n (next.runStatements body bindings) (next'.runStatements body bindings) :=
  Alike.ruled.runStatements (h.executeBody hb) bindings

theorem alike_callHost (h : ∀ n, next.Alike parts n next') (id : HostId) (args : List Value) :
    Run.Alike parts n (next.callHost id args) (next'.callHost id args) :=
  .callHost id args (fun definition => (h _).runFunction definition (Nat.le_refl _) args)
    fun body bindings => (h _).runStatements body (Nat.le_refl _) bindings

end Steps

/-- With one more rule inside of each other a program does the same, up to where its steps are used up. -/
theorem steps_alike (fuel n : Nat) : (steps fuel).Alike Run.Spent n (steps (fuel + 1)) := by
  induction fuel generalizing n with
  | zero => exact ⟨fun _ _ => .part rfl, fun _ _ => .part rfl, fun _ _ => .part rfl⟩
  | succ fuel ih =>
    exact ⟨fun statement hs => (ih n).executeStatement statement (Nat.le_of_lt hs),
      fun expression hs => (ih n).evaluateExpression expression (Nat.le_of_lt hs),
      Steps.alike_callHost ih⟩

end ScriptModules
