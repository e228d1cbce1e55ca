import ScriptModules.Proofs.Scopes.Same

/-!
# Declarations of functions

To execute the declaration of a function does nothing, for the function is bound before the body begins that the
declaration stands in.  It is found under its name there wherever a run comes to the declaration
(`Run.serveAll_watched`), but not where the declaration is itself a branch of an `if`: this is no body
(`Run.not_always_bound`).
-/

namespace ScriptModules

open Script

/-- The statement as a branch of an `if`, where the declaration of a function is like no statement. -/
def Script.Statement.asBranch : Statement → Statement
  | .function _ => .empty
  | s => s

/-- Comes to the declaration of a function, and does something else where its name is not bound. -/
def Run.passDeclaration (otherwise : Run Completion) (definition : Script.Function) : Run Completion := do
  let heap ← heap
  let environment ← environment
  if definition.name.all fun name => (heap.lookup? environment name).isSome then return .normal none
  else otherwise

/-- The steps that come to declarations of functions in this way, and execute branches as `asBranch` has them. -/
def watched (asBranch : Statement → Statement) (otherwise : Run Completion) : Nat → Steps
  | 0 => .none
  | fuel + 1 => {
    execute := fun
      | .function definition => Run.passDeclaration otherwise definition
      | .branch test yes no =>
        (watched asBranch otherwise fuel).executeStatement (.branch test (asBranch yes) (no.map asBranch))
      | s => (watched asBranch otherwise fuel).executeStatement s
    evaluate := fun e => (watched asBranch otherwise fuel).evaluateExpression e
    call := fun id args => (watched asBranch otherwise fuel).callHost id args }

private theorem watched_execute {asBranch : Statement → Statement} {otherwise : Run Completion} {fuel : Nat}
    {s : Statement}
    (hf : s.function? = none) (hb : s.branches = []) :
    (watched asBranch otherwise (fuel + 1)).execute s = (watched asBranch otherwise fuel).executeStatement s := by
  cases s with
  | function f => contradiction
  | branch test yes no => contradiction
  | _ => rfl

/-! ## Names that are bound -/

private theorem Heap.isSome_lookup?_iff {heap : Heap} {env : Environment} {name : String} :
    (heap.lookup? env name).isSome = true ↔ ∃ id ∈ env.scopes, heap.HasBound id name := by
  simp only [lookup?, resolveName, Option.isSome_map, List.findSome?_isSome_iff, HasBound]

private theorem Heap.hasBound_declareVariable {heap : Heap} {env : Environment}
    (h : env.function.index < heap.scopes.size)
    (name : String) (value : Value) : (heap.declareVariable env name (some value)).HasBound env.function name := by
  unfold declareVariable HasBound
  split
  · rw [scope_bind _ _ _ _ _ h, if_pos rfl, Scope.find?_bind, if_pos rfl, Option.isSome_some]
  · contradiction
  · rw [scope_bind _ _ _ _ _ h, if_pos rfl, Scope.find?_bind, if_pos rfl, Option.isSome_some]

/-- The functions that the statements declare are found under their names. -/
def Machine.SeesDeclared (machine : Machine) (body : List Statement) : Prop :=
  ∀ s ∈ body, ∀ f ∈ s.function?, ∀ name ∈ f.name,
    (machine.heap.lookup? machine.environment name).isSome = true

namespace Run

/-- Here functions are of all kinds. -/
private abbrev anyFunction : Script.Function → Prop := fun _ => True

variable {machine later : Machine} {body : List Statement}

private theorem seesDeclared_of_goesOn (h : machine.SeesDeclared body) (hg : machine.GoesOn anyFunction later) :
    later.SeesDeclared body := by
  intro s hs f hf name hn
  obtain ⟨id, hid, hbound⟩ := Heap.isSome_lookup?_iff.1 (h s hs f hf name hn)
  exact Heap.isSome_lookup?_iff.2 ⟨id, hg.environment ▸ hid, hg.scopes.bound id name hbound⟩

/-! ## Bodies -/

private theorem same_hoist (body : List Statement) : (hoist body).Same anyFunction true (hoist body) :=
  Same.ruled.hoist fun _ _ _ _ => trivial

/-- What has come to an end has come to the end of its first part. -/
private theorem bind_ok_inv {α β : Type} {run : Run α} {next : α → Run β} {b : β}
    (h : Run.bind run next machine = (.ok b, later)) :
    ∃ a middle, run machine = (.ok a, middle) ∧ next a middle = (.ok b, later) := by
  obtain ⟨a, middle, hrun, hnext⟩ | ⟨failure, _, hb⟩ | ⟨_, hb⟩ := bind_inv h
  · exact ⟨a, middle, hrun, hnext⟩
  · cases hb
  · cases hb

/-- A named function is found after its declaration was hoisted. -/
private theorem seesDeclared_of_hoist_function {definition : Script.Function} {rest : List Statement}
    (hm : machine.Stands anyFunction true) (h : hoist (.function definition :: rest) machine = (.ok (), later)) :
    ∃ middle : Machine, middle.Stands anyFunction true ∧ hoist rest middle = (.ok (), later) ∧
      middle.SeesDeclared [.function definition] := by
  unfold hoist at h
  split at h
  · next name hname =>
    obtain ⟨value, made, hnew, h⟩ := bind_ok_inv h
    obtain ⟨_, middle, hdeclare, h⟩ := bind_ok_inv h
    have hmade : made.Stands anyFunction true :=
      hm.goesOn ((Same.ruled.newFunction definition trivial machine hm).goesOn_of_eq hnew)
    have hmiddle : middle.Stands anyFunction true :=
      hmade.goesOn ((Same.ruled.declareVariable name (some value) made hmade).goesOn_of_eq hdeclare)
    refine ⟨middle, hmiddle, h, List.forall_mem_singleton.2 fun f hf other ho => ?_⟩
    obtain rfl := Option.some.inj hf
    obtain rfl := Option.some.inj (hname.symm.trans ho)
    obtain rfl : _ = middle := congrArg Prod.snd hdeclare
    exact Heap.isSome_lookup?_iff.2
      ⟨_, Heap.function_mem_scopes _, Heap.hasBound_declareVariable (hmade.code rfl) name value⟩
  · next hname =>
    refine ⟨machine, hm, h, List.forall_mem_singleton.2 fun f hf other ho => ?_⟩
    obtain rfl := Option.some.inj hf
    exact absurd ho (hname other)

/-- All functions that a body declares are found once they were hoisted. -/
private theorem seesDeclared_of_hoist (hm : machine.Stands anyFunction true)
    (h : hoist body machine = (.ok (), later)) : later.SeesDeclared body := by
  induction body generalizing machine with
  | nil => exact fun s hs => absurd hs List.not_mem_nil
  | cons s rest ih =>
    cases s with
    | function definition =>
      obtain ⟨middle, hmiddle, hrest, hseen⟩ := seesDeclared_of_hoist_function hm h
      have hgoes : middle.GoesOn anyFunction later := (same_hoist rest middle hmiddle).goesOn_of_eq hrest
      exact List.forall_mem_cons.2 ⟨List.forall_mem_singleton.1 (seesDeclared_of_goesOn hseen hgoes), ih hmiddle hrest⟩
    | _ => exact List.forall_mem_cons.2 ⟨nofun, ih hm h⟩

end Run

/-- The steps do the same, with declarations of functions where these are found. -/
structure Steps.SameOnDeclared (next next' : Steps) : Prop where
  execute : ∀ s : Statement, s.function? = .none → (next.execute s).Same Run.anyFunction true (next'.execute s)
  declared : ∀ f, ∀ machine : Machine, machine.SeesDeclared [.function f] →
    (next.execute (.function f)).SameAt Run.anyFunction (next'.execute (.function f)) machine
  branch : ∀ s : Statement, (next.execute s).Same Run.anyFunction true (next'.execute s.asBranch)
  evaluate : ∀ e, (next.evaluate e).Same Run.anyFunction true (next'.evaluate e)
  call : ∀ id args, (next.call id args).Same Run.anyFunction true (next'.call id args)

namespace Steps.SameOnDeclared

open Run

variable {next next' : Steps} (h : next.SameOnDeclared next')

include h

private theorem executeAll {body : List Statement} (last : Option Value) {machine : Machine}
    (hm : machine.Stands anyFunction true) (hseen : machine.SeesDeclared body) :
    (next.executeAll body last).SameAt anyFunction (next'.executeAll body last) machine := by
  induction body generalizing last machine with
  | nil => exact ⟨rfl, .refl machine⟩
  | cons s rest ih =>
    obtain ⟨hfirst, hrest⟩ := List.forall_mem_cons.1 hseen
    have hs : (next.execute s).SameAt anyFunction (next'.execute s) machine := by
      cases s with
      | function f => exact h.declared f machine (List.forall_mem_singleton.2 hfirst)
      | _ => exact h.execute _ rfl machine hm
    refine hs.bind fun completion later hr => ?_
    have hgoes : machine.GoesOn anyFunction later := hs.goesOn_of_eq hr
    cases completion with
    | normal value => exact ih _ (hm.goesOn hgoes) (seesDeclared_of_goesOn hrest hgoes)
    | returned value => exact ⟨rfl, .refl later⟩

/-- What a body declares is found when its statements begin. -/
private theorem executeBody (body : List Statement) :
    (next.executeBody body).Same anyFunction true (next'.executeBody body) := by
  intro machine hm
  unfold Steps.executeBody
  have hhoist : (hoist body).SameAt anyFunction (hoist body) machine := same_hoist body machine hm
  refine hhoist.bind fun _ later hr => ?_
  exact h.executeAll _ (hm.goesOn (hhoist.goesOn_of_eq hr)) (seesDeclared_of_hoist hm hr)

private theorem executeStatement {s : Statement} (hs : s.branches = []) :
    (next.executeStatement s).Same anyFunction true (next'.executeStatement s) := by
  refine Same.ruled.executeStatement (fun e _ => h.evaluate e) (fun branch hm => ?_) fun body _ => h.executeBody body
  rw [hs] at hm
  exact absurd hm List.not_mem_nil

private theorem executeBranch (test : Expression) (yes : Statement) (no : Option Statement) :
    (next.executeStatement (.branch test yes no)).Same anyFunction true
      (next'.executeStatement (.branch test yes.asBranch (no.map Statement.asBranch))) := by
  have hbranches : { next' with execute := fun s => next'.execute s.asBranch }.executeStatement (.branch test yes no) =
      next'.executeStatement (.branch test yes.asBranch (no.map Statement.asBranch)) := by
    cases no <;> rfl
  rw [← hbranches]
  exact Same.ruled.executeStatement (fun e _ => h.evaluate e) (fun s _ => h.branch s)
    fun body hm => absurd hm List.not_mem_nil

private theorem evaluateExpression (e : Expression) :
    (next.evaluateExpression e).Same anyFunction true (next'.evaluateExpression e) :=
  Same.ruled.evaluateExpression (fun _ _ => h.evaluate _) (fun _ _ => trivial) h.call

private theorem bodies : Steps.SameBodies anyFunction next next' where
  program _ _ := h.executeBody _
  function _ _ := h.executeBody _

end Steps.SameOnDeclared

namespace Run

variable {otherwise : Run Completion}

private theorem passDeclaration_of_sees {machine : Machine} {f : Script.Function}
    (h : machine.SeesDeclared [.function f]) :
    passDeclaration otherwise f machine = (.ok (.normal none), machine) := by
  have hbound : f.name.all (fun name => (machine.heap.lookup? machine.environment name).isSome) = true := by
    cases hname : f.name with
    | none => rfl
    | some name => exact h _ List.mem_cons_self f rfl name hname
  unfold passDeclaration
  rw [heap_bind, show (bind environment _ : Run Completion) machine = _ from bind_ok rfl, if_pos hbound]
  rfl

/-- One step more is watched. -/
private theorem steps_watched (fuel : Nat) :
    (steps fuel).SameOnDeclared (watched Statement.asBranch otherwise fuel) := by
  induction fuel with
  | zero =>
    have hspent {α : Type} (machine : Machine) :
      (Run.exhausted : Run α).SameAt anyFunction Run.exhausted machine := ⟨rfl, .refl machine⟩
    exact ⟨fun _ _ machine _ => hspent machine, fun _ machine _ => hspent machine, fun _ machine _ => hspent machine,
      fun _ machine _ => hspent machine, fun _ _ machine _ => hspent machine⟩
  | succ fuel ih =>
    have hexecute (s : Statement) (hs : s.function? = none) :
        ((steps (fuel + 1)).execute s).Same anyFunction true
          ((watched Statement.asBranch otherwise (fuel + 1)).execute s) := by
      by_cases hb : s.branches = []
      · rw [watched_execute hs hb]
        exact ih.executeStatement hb
      · cases s with
        | branch test yes no => exact ih.executeBranch test yes no
        | _ => exact absurd rfl hb
    refine ⟨hexecute, fun f machine hm => ?_, fun s => ?_, fun e => ih.evaluateExpression e,
      fun id args => ih.bodies.callHost id args⟩
    · exact ⟨passDeclaration_of_sees hm, .refl machine⟩
    · cases s with
      -- To execute the declaration is to execute the empty statement.
      | function f => exact hexecute .empty rfl
      | _ => exact hexecute _ rfl

/-- While requests are served, the name of each function is bound where a run comes to its declaration, unless the
declaration is a branch of an `if`. -/
theorem serveAll_watched (otherwise : Run Completion) (fuel : Nat) (requests : List Request) (machine : Machine) :
    (watched Statement.asBranch otherwise fuel).serveAll requests machine = serveAll fuel requests machine := by
  have hserved : ((steps fuel).serveAll requests).Same anyFunction false
    ((watched Statement.asBranch otherwise fuel).serveAll requests) :=
      (steps_watched fuel).bodies.serveAll requests fun body _ _ => (steps_watched fuel).executeBody body
  rw [serveAll_eq]
  exact (hserved machine ⟨fun _ _ _ => trivial, nofun⟩).eq

/-- A declaration that is a branch of an `if`. -/
private def branching : List Statement := [.branch (.boolean true) (.function (.mk (some "f") [] [])) none]

/-- A run comes to such a declaration, and the name of the function is not bound. -/
theorem not_always_bound :
    ¬∀ source program, parse source = .ok program → ∀ otherwise fuel bindings machine,
      (watched id otherwise fuel).serveAll [.program program bindings] machine =
        serveAll fuel [.program program bindings] machine := by
  intro h
  have hscan : scan "if (true) function f() \x7b\x7d" = [⟨.keyword .if_, 0⟩, ⟨.mark .leftParen, 3⟩,
      ⟨.keyword .true_, 4⟩, ⟨.mark .rightParen, 8⟩, ⟨.keyword .function_, 10⟩, ⟨.identifier "f", 19⟩,
      ⟨.mark .leftParen, 20⟩, ⟨.mark .rightParen, 21⟩, ⟨.mark .leftBrace, 23⟩, ⟨.mark .rightBrace, 24⟩, ⟨.eof, 25⟩] := by
    decide +kernel
  have hparse : parse "if (true) function f() \x7b\x7d" = .ok branching := parse_of_scan hscan
  have hwatched : ((watched id exhausted 5).serveAll [.program branching []] .empty).1 = .exhausted := by
    decide +kernel
  have hrun : (serveAll 5 [.program branching []] .empty).1 = .ok () := by decide +kernel
  rw [h _ _ hparse exhausted 5 [] .empty, hrun] at hwatched
  exact Outcome.ok_ne_exhausted () hwatched

end Run
end ScriptModules
