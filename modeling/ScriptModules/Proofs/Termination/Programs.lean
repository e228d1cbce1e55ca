import ScriptModules.Proofs.Termination.Loads

/-!
# Programs come to an end

A rule runs smaller code, a call has one call less to spend, and a load one module less.  So if nothing is larger than
`size` and there is less than `b` to spend, then `b * (size + 1)` rules inside of each other are enough for a call
(`Steps.ends_call`), and as many more as the code is large for a program (`Steps.ends_runProgram_of_le`).
-/

namespace ScriptModules

open Run

variable {realm : Realm} {b : Nat} (hc : realm.loads = true → realm.Covers)

include hc

/-- What is called ends with a bit more to spend than what functions and programs need. -/
theorem Steps.ends_callHost {next : Steps} {args : List Value}
    (hf : ∀ definition, sizeOf definition ≤ realm.size → (next.runFunction definition args).Ends realm b)
    (hp : ∀ body bindings, sizeOf body ≤ realm.size → (next.runProgram body bindings).Ends realm b) (id : HostId) :
    (next.callHost id args).Ends realm (b + 1) := by
  intro machine hm hb
  have hallowed := hm.hosts id
  unfold Steps.callHost
  refine .read_bind hm ?_
  cases hhost : machine.heap.host id with
  | native name action => exact Ends.of_plain (Plain.native action args).widen machine hm hb
  | embedded name respond => exact Ends.of_plain (.reply _ : Plain false _) machine hm hb
  | function definition closure properties =>
    rw [hhost] at hallowed
    exact Steps.ends_callFunction (hf definition hallowed) closure machine hm hb
  | require loader dir parent =>
    rw [hhost] at hallowed
    have hrequire (specifier : String) := Steps.ends_require (hc hallowed) hallowed hp loader specifier dir parent
    have hspecifier : (specifierArgument args).Ends realm (b + 1) :=
      .of_plain (.specifierArgument args : Plain false _)
    exact Ends.onFailure (.bind hspecifier hrequire) (fun failure => .note _) machine hm hb
  | module cache record => exact .fail _ hm
  | cacheView cache => exact .fail _ hm

/-- What is made of parts that come to an end comes to an end. -/
theorem Run.Alike.ends {α : Type} {n : Nat} {run run' : Run α}
    (h : Alike (fun _ run _ => run.Ends realm b) n run run') (hn : n ≤ realm.size) : run.Ends realm b := by
  induction h with
  | part h => exact h
  | plain h => exact .of_plain h
  | bind _ _ ih ihn => exact .bind (ih hn) fun a => ihn a hn
  | declareVariable name value? =>
    unfold Run.declareVariable Run.changeHeap
    refine .bind (.read _) fun environment => .make (fun heap => ?_) fun heap => ?_
    · exact (Heap.sameButScopes_declareVariable environment name value?).hosts
    · exact (Heap.sameButScopes_declareVariable environment name value?).caches
  | declareLexical name value mutable =>
    unfold Run.declareLexical
    exact .bind (.read _) fun environment => .tryHeap fun heap later h => Heap.sameButScopes_declareLexical h
  | assign name value =>
    unfold Run.assign
    exact .bind (.read _) fun environment => .tryHeap fun heap later h => Heap.sameButScopes_assign h
  | newFunction definition hs =>
    unfold Run.newFunction
    refine .bind (.make (fun _ => rfl) fun _ => rfl) fun properties => .bind (.read _) fun environment => ?_
    exact .newHost (Nat.le_trans hs hn)
  | inBlock _ ih => exact .inBlock (ih hn)
  | @catching _ _ run run' handler handler' _ _ ih ihh =>
    exact @Composed.catching _ _ _ Ends.composed run run' handler handler' (ih hn) fun failure => ihh failure hn
  | @ensuring _ run run' last last' _ _ ih ihl =>
    exact @Composed.ensuring _ _ Ends.composed run run' last last' (ih hn) (ihl hn)
  | callHost id args _ _ ihf ihp =>
    exact (Steps.ends_callHost hc (fun definition hd => ihf definition hd)
      (fun body bindings hb => Steps.ends_runProgram (ihp body bindings hb)) id).mono

namespace Steps

variable {fuel : Nat}

/-- Code that is smaller than `n` takes `n` rules inside of each other more than the calls in it. -/
private theorem alike_of_calls {enough n : Nat} (hcall : ∀ fuel, enough ≤ fuel → ∀ id args,
      ((steps fuel).call id args).Ends realm b) (hn : n ≤ realm.size) (hf : enough + n ≤ fuel) :
    (steps fuel).Alike (fun _ run _ => run.Ends realm b) n (steps fuel) := by
  induction n generalizing fuel with
  | zero => exact ⟨nofun, nofun, fun id args => .part (hcall fuel hf id args)⟩
  | succ n ih =>
    obtain ⟨fuel, rfl⟩ : ∃ less, fuel = less + 1 := ⟨fuel - 1, by omega⟩
    have hless := ih (Nat.le_of_succ_le hn) (Nat.le_of_succ_le_succ hf)
    refine ⟨fun statement hs => .part ?_, fun expression hs => .part ?_, fun id args => .part ?_⟩
    · exact (hless.executeStatement statement (Nat.le_of_lt_succ hs)).ends hc (Nat.le_of_succ_le hn)
    · exact (hless.evaluateExpression expression (Nat.le_of_lt_succ hs)).ends hc (Nat.le_of_succ_le hn)
    · exact hcall _ (by omega) id args

/-- A call ends with so many rules inside of each other. -/
theorem ends_call (hf : b * (realm.size + 1) ≤ fuel) (id : HostId) (args : List Value) :
    ((steps fuel).call id args).Ends realm b := by
  -- The induction is on what there is to spend: calls and programs inside of a call have less of it.
  induction b generalizing fuel id args with
  | zero => exact fun machine _ hb => absurd hb (Nat.not_lt_zero _)
  | succ b ih =>
    rw [Nat.succ_mul] at hf
    obtain ⟨fuel, rfl⟩ : ∃ less, fuel = less + 1 := ⟨fuel - 1, by omega⟩
    have halike := alike_of_calls hc (fun fuel hf id args => ih hf id args) (Nat.le_refl _)
      (show b * (realm.size + 1) + realm.size ≤ fuel by omega)
    refine ends_callHost hc (fun definition hd => ?_) (fun body bindings hb => ends_runProgram ?_) id
    · exact (halike.runFunction definition hd args).ends hc (Nat.le_refl _)
    · exact (halike.runStatements body hb bindings).ends hc (Nat.le_refl _)

/-- A program ends with so many rules inside of each other. -/
theorem ends_runProgram_of_le (hf : b * (realm.size + 1) + realm.size ≤ fuel) (body : List Script.Statement)
    (bindings : List (String × Value)) (hb : sizeOf body ≤ realm.size) :
    ((steps fuel).runProgram body bindings).Ends realm b :=
  have halike := alike_of_calls hc (fun _ hf id args => ends_call hc hf id args) (Nat.le_refl _) hf
  ends_runProgram ((halike.runStatements body hb bindings).ends hc (Nat.le_refl _))

end Steps
end ScriptModules
