import ScriptModules.Proofs.Parsing.WellFormed
import ScriptModules.Proofs.Scopes.Same

/-!
# Nothing but well-formed code is run

What a text parses to is well-formed, and so is all that is run of it, in functions that are called later too.  So it
does not matter what the rules do with other phrases (`Run.serveAll_vetted`).
-/

namespace ScriptModules

open Script

/-- The function is well-formed. -/
def Script.Function.WellFormed (f : Script.Function) : Prop := (Phrase.function f).WellFormed

open Classical in
/-- The steps that do something else with phrases, and with functions that are called, if these are not well-formed. -/
noncomputable def vetted (otherwise : (α : Type) → Run α) : Nat → Steps
  | 0 => .none
  | fuel + 1 => {
    execute := fun s =>
      if (Phrase.statement s).WellFormed then (vetted otherwise fuel).executeStatement s else otherwise Completion
    evaluate := fun e =>
      if (Phrase.expression e).WellFormed then (vetted otherwise fuel).evaluateExpression e else otherwise Value
    call := fun id args => do
      if ((← Run.heap).host id).MadeAs Function.WellFormed then (vetted otherwise fuel).callHost id args
      else otherwise Value }

/-- Declares the functions among the statements, and does something else where one has no name. -/
def Run.hoistOr (otherwise : Run Unit) : List Statement → Run Unit
  | [] => return ()
  | .function definition :: rest =>
    match definition.name with
    | some name => do
      declareVariable name (some (← newFunction definition))
      hoistOr otherwise rest
    | none => otherwise
  | _ :: rest => hoistOr otherwise rest

/-- The steps do the same with code that is well-formed. -/
structure Steps.SameOnWellFormed (next next' : Steps) : Prop where
  execute : ∀ s, (Phrase.statement s).WellFormed → (next.execute s).Same Function.WellFormed true (next'.execute s)
  evaluate : ∀ e, (Phrase.expression e).WellFormed → (next.evaluate e).Same Function.WellFormed true (next'.evaluate e)
  call : ∀ id args, (next.call id args).Same Function.WellFormed true (next'.call id args)

namespace Steps.SameOnWellFormed

open Run

variable {next next' : Steps} (h : next.SameOnWellFormed next')

include h

/-! ## Rules -/

private theorem executeBody {body : List Statement} (hb : ∀ s ∈ body, (Phrase.statement s).WellFormed) :
    (next.executeBody body).Same Function.WellFormed true (next'.executeBody body) :=
  Same.ruled.executeBody (fun s hm _ hf => (hb s hm).declared hf) fun s hm => h.execute s (hb s hm)

private theorem executeStatement {s : Statement} (hs : (Phrase.statement s).WellFormed) :
    (next.executeStatement s).Same Function.WellFormed true (next'.executeStatement s) := by
  refine Same.ruled.executeStatement (fun e hm => ?_) (fun branch hm => ?_) fun body hm => ?_
  · exact h.evaluate e (hs.expression_of_mem hm)
  · exact h.execute branch (hs.branch hm)
  · exact h.executeBody fun s hs' => hs.statement_of_mem hm hs'

private theorem evaluateExpression {e : Expression} (he : (Phrase.expression e).WellFormed) :
    (next.evaluateExpression e).Same Function.WellFormed true (next'.evaluateExpression e) :=
  Same.ruled.evaluateExpression (fun e' hm => h.evaluate e' (he.evaluated hm)) (fun _ hf => he.made hf) h.call

private theorem executeProgram {body : List Statement} (hb : IsProgram body) :
    (next.executeBody body).Same Function.WellFormed true (next'.executeBody body) := by
  obtain ⟨source, hsource⟩ := hb
  exact h.executeBody (wellFormed_of_parse hsource)

private theorem bodies : Steps.SameBodies Function.WellFormed next next' where
  program _ := h.executeProgram
  function _ hf := h.executeBody fun _ hm => hf.statement_of_body hm

end Steps.SameOnWellFormed

namespace Run

variable {otherwise : (α : Type) → Run α}

/-- One step more is vetted, for well-formed code has well-formed parts, and machines that stand have no other
functions. -/
private theorem steps_vetted (fuel : Nat) : (steps fuel).SameOnWellFormed (vetted otherwise fuel) := by
  induction fuel with
  | zero => exact ⟨fun _ _ => Same.served.exhausted, fun _ _ => Same.served.exhausted, fun _ _ => Same.served.exhausted⟩
  | succ fuel ih =>
    refine ⟨fun s hs => ?_, fun e he => ?_, fun id args machine hm => ?_⟩
    · simp only [vetted, if_pos hs]
      exact ih.executeStatement hs
    · simp only [vetted, if_pos he]
      exact ih.evaluateExpression he
    · -- Which function is called is known from the heap only, so its well-formedness comes from the machine.
      obtain ⟨heq, hgoes⟩ := ih.bodies.callHost id args machine hm
      refine ⟨?_, hgoes⟩
      have hread : (vetted otherwise (fuel + 1)).call id args machine =
          (vetted otherwise fuel).callHost id args machine := by
        simp only [vetted]
        rw [heap_bind, if_pos (hm.functions id)]
      exact hread.trans heq

private theorem hoistOr_eq {body : List Statement} (otherwise : Run Unit)
    (h : ∀ s ∈ body, (Phrase.statement s).WellFormed) :
    hoistOr otherwise body = hoist body := by
  induction body with
  | nil => rfl
  | cons s rest ih =>
    obtain ⟨hs, hrest⟩ := List.forall_mem_cons.1 h
    cases s with
    | function definition =>
      have hname : definition.name.isSome = true := hs _ (.refl _)
      obtain ⟨name, hname⟩ := Option.isSome_iff_exists.1 hname
      simp only [hoistOr, hoist, hname, ih hrest]
    | _ => exact ih hrest

/-- Whatever occurs in what a text parses to is sound.  So while requests are served, no phrase is run that is not
well-formed, and functions that are declared before a body runs have names. -/
theorem serveAll_vetted (otherwise : (α : Type) → Run α) (fuel : Nat) {requests : List Request} {machine : Machine}
    (hm : machine.HostsAre (Host.MadeAs Function.WellFormed))
    (hr : ∀ body bindings, .program body bindings ∈ requests → IsProgram body) :
    (∀ source program, parse source = .ok program → ∀ s ∈ program,
      ∀ part : Phrase, part.OccursIn (.statement s) → part.IsSound) ∧
    (vetted otherwise fuel).serveAll requests machine = serveAll fuel requests machine ∧
    ∀ body : List Statement, (∀ s ∈ body, (Phrase.statement s).WellFormed) →
      hoistOr (otherwise Unit) body = hoist body := by
  refine ⟨fun source program h => wellFormed_of_parse h, ?_, fun body => hoistOr_eq (otherwise Unit)⟩
  have hserved : ((steps fuel).serveAll requests).Same Function.WellFormed false
    ((vetted otherwise fuel).serveAll requests) := (steps_vetted fuel).bodies.serveAll requests fun body bindings hm =>
      (steps_vetted fuel).executeProgram (hr body bindings hm)
  rw [serveAll_eq]
  exact (hserved machine ⟨hm, nofun⟩).eq

/-- What `let o = console; o.f = function (x) { x = o }; o = o.f()` parses to. -/
private def assigning : List Statement :=
  [.declare .let_ [("o", some (.identifier "console"))],
    .expression (.assign (.member (.identifier "o") "f")
      (.function (.mk none ["x"] [.expression (.assign (.identifier "x") (.identifier "o"))]))),
    .expression (.assign (.identifier "o") (.call (.member (.identifier "o") "f") []))]

/-- It runs to its end where phrases that are not well-formed use up the steps. -/
theorem serveAll_vetted_assigning :
    ∃ program later, parse "let o = console; o.f = function (x) \x7b x = o \x7d; o = o.f()" = .ok program ∧
      serveAll 30 [.program program []] (.ofSite (.ofFiles [])) = (.ok (), later) ∧
      (vetted (fun _ => exhausted) 30).serveAll [.program program []] (.ofSite (.ofFiles [])) = (.ok (), later) := by
  have hscan : scan "let o = console; o.f = function (x) \x7b x = o \x7d; o = o.f()" =
      [⟨.keyword .let_, 0⟩, ⟨.identifier "o", 4⟩, ⟨.mark .equal, 6⟩, ⟨.identifier "console", 8⟩, ⟨.mark .semicolon, 15⟩,
        ⟨.identifier "o", 17⟩, ⟨.mark .dot, 18⟩, ⟨.identifier "f", 19⟩, ⟨.mark .equal, 21⟩, ⟨.keyword .function_, 23⟩,
        ⟨.mark .leftParen, 32⟩, ⟨.identifier "x", 33⟩, ⟨.mark .rightParen, 34⟩, ⟨.mark .leftBrace, 36⟩,
        ⟨.identifier "x", 38⟩, ⟨.mark .equal, 40⟩, ⟨.identifier "o", 42⟩, ⟨.mark .rightBrace, 44⟩,
        ⟨.mark .semicolon, 45⟩, ⟨.identifier "o", 47⟩, ⟨.mark .equal, 49⟩, ⟨.identifier "o", 51⟩, ⟨.mark .dot, 52⟩,
        ⟨.identifier "f", 53⟩, ⟨.mark .leftParen, 54⟩, ⟨.mark .rightParen, 55⟩, ⟨.eof, 56⟩] := by
    decide +kernel
  have hparse : parse "let o = console; o.f = function (x) \x7b x = o \x7d; o = o.f()" = .ok assigning :=
    parse_of_scan hscan
  have hrun : (serveAll 30 [.program assigning []] (.ofSite (.ofFiles []))).1 = .ok () := by decide +kernel
  have hparsed : ∀ body bindings, .program body bindings ∈ [Request.program assigning []] → IsProgram body := by
    intro body bindings hm
    obtain ⟨rfl, _⟩ := Request.program.inj (List.mem_singleton.1 hm)
    exact ⟨_, hparse⟩
  have hvetted := serveAll_vetted (fun _ => exhausted) 30 (Machine.functions_ofSite (.ofFiles [])) hparsed
  exact ⟨_, _, hparse, Prod.ext hrun rfl, hvetted.2.1.trans (Prod.ext hrun rfl)⟩

end Run
end ScriptModules
