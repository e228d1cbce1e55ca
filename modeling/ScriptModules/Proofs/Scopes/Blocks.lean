import ScriptModules.Proofs.Runs.Serving
import ScriptModules.Proofs.Scopes.Bindings

/-!
# Blocks and functions

A scope is that of a block or that of a function for as long as it is there: whatever is run, there is one way to tell
the scopes apart (`isBlock`) by which at each moment the code that is run, and every function, sees blocks inside of a
function (`Run.SortsTo`).  The way is found scope by scope, so what is known of a run is that any way which is right for
the scopes at its start can be gone on with.
-/

namespace ScriptModules

/-- The two ways agree on the first scopes. -/
def SortsAlike (count : Nat) (isBlock isBlock' : ScopeId → Bool) : Prop :=
  ∀ id : ScopeId, id.index < count → isBlock' id = isBlock id

/-- Another way, which tells of one scope whether it is a block. -/
def sortScope (isBlock : ScopeId → Bool) (index : Nat) (block : Bool) : ScopeId → Bool :=
  fun id => if id.index = index then block else isBlock id

private theorem SortsAlike.refl {count : Nat} {isBlock : ScopeId → Bool} : SortsAlike count isBlock isBlock :=
  fun _ _ => rfl

private theorem SortsAlike.trans {count count' : Nat} {isBlock isBlock' isBlock'' : ScopeId → Bool}
    (h : SortsAlike count isBlock isBlock') (h' : SortsAlike count' isBlock' isBlock'') (hc : count ≤ count') :
    SortsAlike count isBlock isBlock'' :=
  fun id hid => (h' id (Nat.lt_of_lt_of_le hid hc)).trans (h id hid)

private theorem SortsAlike.mono {count count' : Nat} {isBlock isBlock' : ScopeId → Bool}
    (h : SortsAlike count' isBlock isBlock') (hc : count ≤ count') : SortsAlike count isBlock isBlock' :=
  fun id hid => h id (Nat.lt_of_lt_of_le hid hc)

private theorem sortsAlike_sortScope (isBlock : ScopeId → Bool) (index : Nat) (block : Bool) :
    SortsAlike index isBlock (sortScope isBlock index block) :=
  fun _ hid => if_neg (Nat.ne_of_lt hid)

private theorem sortScope_self (isBlock : ScopeId → Bool) (index : Nat) (block : Bool) :
    sortScope isBlock index block ⟨index⟩ = block := if_pos rfl

private theorem Heap.Sorts.mono {heap later : Heap} {isBlock isBlock' : ScopeId → Bool} {env : Environment}
    (h : heap.Sorts isBlock env) (hs : heap.scopes.size ≤ later.scopes.size)
    (ha : SortsAlike heap.scopes.size isBlock isBlock') : later.Sorts isBlock' env := by
  refine ⟨fun id hid => ?_, Nat.lt_of_lt_of_le h.function.1 hs, (ha _ h.function.1).trans h.function.2⟩
  obtain ⟨hlt, hblock⟩ := h.blocks id hid
  exact ⟨Nat.lt_of_lt_of_le hlt hs, (ha id hlt).trans hblock⟩

namespace Machine

variable {machine before after : Machine} {isBlock isBlock' : ScopeId → Bool}

/-- The scopes that functions see are told apart. -/
def Sorted (machine : Machine) (isBlock : ScopeId → Bool) : Prop :=
  ∀ id definition closure properties,
    machine.heap.host id = .function definition closure properties → machine.heap.Sorts isBlock closure

/-- So they are while there are no other functions. -/
theorem Sorted.mono (h : before.Sorted isBlock) (hs : before.heap.scopes.size ≤ after.heap.scopes.size)
    (ha : SortsAlike before.heap.scopes.size isBlock isBlock') (hh : after.heap.hosts = before.heap.hosts) :
    after.Sorted isBlock' := by
  intro id definition closure properties hf
  rw [Heap.host, hh] at hf
  exact (h id definition closure properties hf).mono hs ha

private theorem InCode.mono (h : machine.InCode isBlock) (ha : SortsAlike machine.heap.scopes.size isBlock isBlock') :
    machine.InCode isBlock' :=
  ⟨h.outer, h.sorts.mono (Nat.le_refl _) ha⟩

private theorem Rebinds.mono (h : before.Rebinds isBlock after)
    (ha : SortsAlike before.heap.scopes.size isBlock isBlock') :
    before.Rebinds isBlock' after := by
  cases h with
  | same h => exact .same h
  | newScope scope h => exact .newScope scope h
  | declared name value? hcode h => exact .declared name value? (hcode.mono ha) h
  | lexical name value mutable hcode h => exact .lexical name value mutable (hcode.mono ha) h
  | assigned name value h => exact .assigned name value h

/-- A change after which the same code goes on. -/
structure StaysSorted (isBlock : ScopeId → Bool) (before after : Machine) : Prop where
  grows : before.heap.scopes.size ≤ after.heap.scopes.size
  sorted : after.Sorted isBlock
  rebinds : before.Rebinds isBlock after
  environment : after.environment = before.environment

private theorem StaysSorted.of_same (hb : before.Sorted isBlock) (hs : after.heap.scopes = before.heap.scopes)
    (hh : after.heap.hosts = before.heap.hosts) (he : after.environment = before.environment) :
    before.StaysSorted isBlock after := by
  have hsize : before.heap.scopes.size ≤ after.heap.scopes.size := Nat.le_of_eq (by rw [hs])
  exact ⟨hsize, hb.mono hsize .refl hh, .same hs, he⟩

/-- A new host object.  Only a function matters, which sees what the code that makes it sees. -/
theorem StaysSorted.newHost {host : Host} (hb : before.Sorted isBlock)
    (hs : after.heap.scopes = before.heap.scopes) (hh : after.heap.hosts = before.heap.hosts.push host)
    (he : after.environment = before.environment)
    (hf : ∀ definition closure properties, host = .function definition closure properties →
      before.heap.Sorts isBlock closure) : before.StaysSorted isBlock after := by
  have hsize : before.heap.scopes.size ≤ after.heap.scopes.size := Nat.le_of_eq (by rw [hs])
  refine ⟨hsize, fun id definition closure properties hid => ?_, .same hs, he⟩
  rw [Heap.host, hh, Array.getElem?_push] at hid
  split at hid
  · exact (hf definition closure properties hid).mono hsize .refl
  · exact (hb id definition closure properties hid).mono hsize .refl

/-- A declaration or an assignment. -/
theorem StaysSorted.binds (hb : before.Sorted isBlock) (h : before.heap.Binds before.environment after.heap)
    (hr : before.Rebinds isBlock after) (he : after.environment = before.environment) :
    before.StaysSorted isBlock after := by
  have hkept : after.heap.scopes.size = before.heap.scopes.size ∧ after.heap.hosts = before.heap.hosts := by
    obtain heq | ⟨id, _, name, binding, heq⟩ := h
    · rw [heq]
      exact ⟨rfl, rfl⟩
    · rw [heq]
      exact ⟨Array.size_modify, rfl⟩
  have hsize := Nat.le_of_eq hkept.1.symm
  exact ⟨hsize, hb.mono hsize .refl hkept.2, hr, he⟩

/-- A new scope, which is that of a block or is not. -/
theorem StaysSorted.newScope (hb : before.Sorted isBlock) (scope : Scope) (block : Bool)
    (hh : after.heap = (before.heap.newScope scope).2) (he : after.environment = before.environment) :
    before.StaysSorted (sortScope isBlock before.heap.scopes.size block) after := by
  have hsize : before.heap.scopes.size ≤ after.heap.scopes.size := by
    rw [hh, Heap.newScope, Array.size_push]
    exact Nat.le_succ _
  exact ⟨hsize, hb.mono hsize (sortsAlike_sortScope _ _ _) (by rw [hh]; rfl), .newScope scope (by rw [hh]; rfl), he⟩

private theorem StaysSorted.of_sameFrame (hb : before.Sorted isBlock) (h : before.SameFrame after) :
    before.StaysSorted isBlock after := by
  have he : after.environment = before.environment := by rw [h.elsewhere]
  obtain hh | ⟨host, hpassive, hh⟩ := h.heap.hosts
  · exact .of_same hb h.heap.scopes hh he
  · refine .newHost hb h.heap.scopes hh he fun definition closure properties heq => ?_
    rw [heq] at hpassive
    contradiction

end Machine

namespace Run

variable {α β σ : Type} {machine : Machine} {isBlock isBlock' isBlock'' : ScopeId → Bool} {inCode : Bool}

/-- From this machine on the scopes are told apart by `isBlock'`, which agrees with `isBlock` on those that there are,
and the run comes back to the code it began in. -/
structure SortsTo (run : Run α) (machine : Machine) (isBlock isBlock' : ScopeId → Bool) : Prop where
  alike : SortsAlike machine.heap.scopes.size isBlock isBlock'
  grows : ∀ later, run.passes machine later → machine.heap.scopes.size ≤ later.heap.scopes.size
  passes : ∀ later, run.passes machine later → later.heap.scopes.size ≤ (run machine).2.heap.scopes.size ∧
    later.Sorted isBlock' ∧ (later.environment = machine.environment ∨ later.InCode isBlock')
  moves : ∀ before after, run.moves machine before after →
    before.heap.scopes.size ≤ (run machine).2.heap.scopes.size ∧ before.Rebinds isBlock' after
  environment : (run machine).2.environment = machine.environment

/-- Any way to tell the scopes apart can be gone on with from this machine. -/
def SortsFrom (run : Run α) (machine : Machine) (isBlock : ScopeId → Bool) : Prop :=
  ∃ isBlock', run.SortsTo machine isBlock isBlock'

/-- Wherever the run begins, a way to tell the scopes apart can be gone on with. -/
def Sorts (inCode : Bool) (run : Run α) : Prop :=
  ∀ (machine : Machine) (isBlock : ScopeId → Bool), machine.Sorted isBlock →
    (inCode = true → machine.InCode isBlock) → run.SortsFrom machine isBlock

/-! ## From one machine -/

namespace SortsTo

private theorem mono {run : Run α} (h : run.SortsTo machine isBlock isBlock')
    (ha : SortsAlike (run machine).2.heap.scopes.size isBlock' isBlock'') : run.SortsTo machine isBlock isBlock'' := by
  refine ⟨h.alike.trans ha (h.grows _ (run.passes_end machine)), h.grows, fun later hp => ?_,
    fun before after hm => ?_, h.environment⟩
  · obtain ⟨hle, hsorted, hcode⟩ := h.passes later hp
    exact ⟨hle, hsorted.mono (Nat.le_refl _) (ha.mono hle) rfl, hcode.imp id fun hcode => hcode.mono (ha.mono hle)⟩
  · obtain ⟨hle, hrebinds⟩ := h.moves before after hm
    exact ⟨hle, hrebinds.mono (ha.mono hle)⟩

/-- The scopes that functions see are told apart at the end of the run. -/
theorem sorted {run : Run α} (h : run.SortsTo machine isBlock isBlock') : (run machine).2.Sorted isBlock' :=
  (h.passes _ (run.passes_end machine)).2.1

/-- After the run the same code can go on. -/
theorem code {run : Run α} (h : run.SortsTo machine isBlock isBlock') (hc : machine.InCode isBlock) :
    (run machine).2.InCode isBlock' := by
  refine ⟨by rw [h.environment]; exact hc.outer, ?_⟩
  rw [h.environment]
  exact hc.sorts.mono (h.grows _ (run.passes_end machine)) h.alike

end SortsTo

namespace SortsFrom

/-- A run without changes. -/
private theorem still {run : Run α} (hm : machine.Sorted isBlock)
    (hp : ∀ later, run.passes machine later → later = machine)
    (hmoves : ∀ before after, ¬run.moves machine before after) : run.SortsFrom machine isBlock := by
  have hend : (run machine).2 = machine := hp _ (run.passes_end machine)
  refine ⟨isBlock, .refl, fun later h => ?_, fun later h => ?_, fun before after h => absurd h (hmoves _ _),
    by rw [hend]⟩
  · exact hp later h ▸ Nat.le_refl _
  · rw [hp later h, hend]
    exact ⟨Nat.le_refl _, hm, .inl rfl⟩

private theorem pure (a : α) (hm : machine.Sorted isBlock) : (Run.pure a).SortsFrom machine isBlock :=
  still hm (fun _ h => h) fun _ _ h => h

private theorem fail (failure : Failure) (hm : machine.Sorted isBlock) :
    (Run.fail failure : Run α).SortsFrom machine isBlock :=
  still hm (fun _ h => h) fun _ _ h => h

private theorem exhausted (hm : machine.Sorted isBlock) : (Run.exhausted : Run α).SortsFrom machine isBlock :=
  still hm (fun _ h => h) fun _ _ h => h

private theorem update_alike {f : Machine → α × Machine} (hm : machine.Sorted isBlock)
    (ha : SortsAlike machine.heap.scopes.size isBlock isBlock') (h : machine.StaysSorted isBlock' (f machine).2) :
    (Run.update f).SortsTo machine isBlock isBlock' := by
  refine ⟨ha, fun later hp => ?_, fun later hp => ?_, fun before after hmove => ?_, h.environment⟩
  · rcases hp with rfl | rfl
    · exact Nat.le_refl _
    · exact h.grows
  · rcases hp with rfl | rfl
    · exact ⟨h.grows, hm.mono (Nat.le_refl _) ha rfl, .inl rfl⟩
    · exact ⟨Nat.le_refl _, h.sorted, .inl h.environment⟩
  · obtain ⟨rfl, rfl⟩ := hmove
    exact ⟨h.grows, h.rebinds⟩

private theorem update {f : Machine → α × Machine} (hm : machine.Sorted isBlock)
    (h : machine.StaysSorted isBlock (f machine).2) : (Run.update f).SortsFrom machine isBlock :=
  ⟨isBlock, update_alike hm .refl h⟩

/-- What comes after a run goes on with the way that the run has found. -/
theorem bind_to {run : Run α} {next : α → Run β} (h : run.SortsTo machine isBlock isBlock')
    (hn : ∀ a later, run machine = (.ok a, later) → (next a).SortsFrom later isBlock') :
    (Run.bind run next).SortsFrom machine isBlock := by
  -- Where the run comes to no result, nothing comes after it.
  have stop (hend : (Run.bind run next machine).2 = (run machine).2) (hnone : ∀ a later, run machine ≠ (.ok a, later)) :
      (Run.bind run next).SortsFrom machine isBlock := by
    refine ⟨isBlock', h.alike, fun later hp => ?_, fun later hp => ?_, fun before after hm => ?_,
      (congrArg _ hend).trans h.environment⟩
    · exact h.grows later (hp.resolve_right fun ⟨a, middle, hr, _⟩ => hnone a middle hr)
    · rw [hend]
      exact h.passes later (hp.resolve_right fun ⟨a, middle, hr, _⟩ => hnone a middle hr)
    · rw [hend]
      exact h.moves before after (hm.resolve_right fun ⟨a, middle, hr, _⟩ => hnone a middle hr)
  cases hr : run machine with
  | mk outcome middle =>
    cases outcome with
    | failed failure => exact stop (by rw [bind_failed hr, hr]) (by simp [hr])
    | exhausted => exact stop (by rw [bind_exhausted hr, hr]) (by simp [hr])
    | ok a =>
      obtain ⟨last, hl⟩ := hn a middle hr
      have hmiddle : (run machine).2 = middle := by rw [hr]
      have hfirst : run.SortsTo machine isBlock last := h.mono (hmiddle ▸ hl.alike)
      have hstart := h.grows _ (run.passes_end machine)
      have hrest := hl.grows _ ((next a).passes_end middle)
      rw [hmiddle] at hstart
      refine ⟨last, hfirst.alike, fun later hp => ?_, fun later hp => ?_, fun before after hm => ?_, ?_⟩
      · obtain hp | ⟨b, other, hb, hp⟩ := hp
        · exact h.grows later hp
        · obtain ⟨rfl, rfl⟩ := (Prod.mk.inj (hr.symm.trans hb)).imp_left Outcome.ok.inj
          exact Nat.le_trans hstart (hl.grows later hp)
      · rw [bind_ok hr]
        obtain hp | ⟨b, other, hb, hp⟩ := hp
        · obtain ⟨hle, hpasses⟩ := hfirst.passes later hp
          exact ⟨Nat.le_trans (hmiddle ▸ hle) hrest, hpasses⟩
        · obtain ⟨rfl, rfl⟩ := (Prod.mk.inj (hr.symm.trans hb)).imp_left Outcome.ok.inj
          have hsame : middle.environment = machine.environment := hmiddle ▸ h.environment
          exact hsame ▸ hl.passes later hp
      · rw [bind_ok hr]
        obtain hm | ⟨b, other, hb, hm⟩ := hm
        · obtain ⟨hle, hmoves⟩ := hfirst.moves before after hm
          exact ⟨Nat.le_trans (hmiddle ▸ hle) hrest, hmoves⟩
        · obtain ⟨rfl, rfl⟩ := (Prod.mk.inj (hr.symm.trans hb)).imp_left Outcome.ok.inj
          exact hl.moves before after hm
      · rw [bind_ok hr]
        exact hl.environment.trans (hmiddle ▸ h.environment)

private theorem bind {run : Run α} {next : α → Run β} (h : run.SortsFrom machine isBlock)
    (hn : ∀ a later isBlock', run.SortsTo machine isBlock isBlock' → run machine = (.ok a, later) →
      (next a).SortsFrom later isBlock') : (Run.bind run next).SortsFrom machine isBlock := by
  obtain ⟨isBlock', h⟩ := h
  exact bind_to h fun a later hr => hn a later isBlock' h hr

/-- A run that begins with a change, or with a look at the machine. -/
theorem update_bind {f : Machine → α × Machine} {next : α → Run β} (hm : machine.Sorted isBlock)
    (ha : SortsAlike machine.heap.scopes.size isBlock isBlock') (h : machine.StaysSorted isBlock' (f machine).2)
    (hn : (next (f machine).1).SortsFrom (f machine).2 isBlock') :
    (Run.bind (Run.update f) next).SortsFrom machine isBlock := by
  refine bind_to (update_alike hm ha h) fun a later hr => ?_
  obtain ⟨hvalue, rfl⟩ := Prod.mk.inj hr
  exact Outcome.ok.inj hvalue ▸ hn

private theorem read_bind {f : Machine → α} {next : α → Run β} (hm : machine.Sorted isBlock)
    (hn : (next (f machine)).SortsFrom machine isBlock) : (Run.bind (Run.read f) next).SortsFrom machine isBlock :=
  update_bind hm .refl (.of_same hm rfl rfl rfl) hn

private theorem ofExcept (result : Except Failure α) (hm : machine.Sorted isBlock) :
    (Run.ofExcept result).SortsFrom machine isBlock := by
  cases result with
  | ok a => exact pure a hm
  | error failure => exact fail failure hm

private theorem attempt {run : Run α} (h : run.SortsFrom machine isBlock) :
    (Run.attempt run).SortsFrom machine isBlock := by
  obtain ⟨isBlock', h⟩ := h
  have hend := Run.attempt_snd run machine
  refine ⟨isBlock', h.alike, h.grows, ?_, ?_, (congrArg _ hend).trans h.environment⟩
  · rw [hend]
    exact h.passes
  · rw [hend]
    exact h.moves

/-- A run that enters something and leaves it.  Either it stays in the same environment, or it enters code. -/
theorem bracket {keep : Machine → σ} {enter : Machine → Machine} {leave : σ → Machine → Machine} {run : Run α}
    (hm : machine.Sorted isBlock) (ha : SortsAlike machine.heap.scopes.size isBlock isBlock')
    (he : machine.Rebinds isBlock' (enter machine))
    (hs : machine.heap.scopes.size ≤ (enter machine).heap.scopes.size)
    (hcode : (enter machine).environment = machine.environment ∨ (enter machine).InCode isBlock')
    (hr : run.SortsFrom (enter machine) isBlock')
    (hl : ∀ later : Machine, later.environment = (enter machine).environment →
      (leave (keep machine) later).heap = later.heap ∧
        (leave (keep machine) later).environment = machine.environment) :
    (Run.bracket keep enter leave run).SortsFrom machine isBlock := by
  obtain ⟨last, hr⟩ := hr
  obtain ⟨hheap, henv⟩ := hl _ hr.environment
  have hend := hr.grows _ (run.passes_end _)
  have hlast : SortsAlike machine.heap.scopes.size isBlock last := ha.trans hr.alike hs
  have hle : machine.heap.scopes.size ≤ (leave (keep machine) (run (enter machine)).2).heap.scopes.size := by
    rw [hheap]
    exact Nat.le_trans hs hend
  refine ⟨last, hlast, fun later hp => ?_, fun later hp => ?_, fun before after hmove => ?_, henv⟩
  · rcases hp with rfl | hp | rfl
    · exact Nat.le_refl _
    · exact Nat.le_trans hs (hr.grows later hp)
    · exact hle
  · change _ ≤ (leave (keep machine) (run (enter machine)).2).heap.scopes.size ∧ _
    rcases hp with rfl | hp | rfl
    · exact ⟨hle, hm.mono (Nat.le_refl _) hlast rfl, .inl rfl⟩
    · obtain ⟨hsize, hsorted, hwithin⟩ := hr.passes later hp
      rw [hheap]
      refine ⟨hsize, hsorted, ?_⟩
      obtain hsame | hin := hwithin
      · refine hcode.imp hsame.trans fun hc => ⟨hsame ▸ hc.outer, hsame ▸ ?_⟩
        exact hc.sorts.mono (hr.grows later hp) hr.alike
      · exact .inr hin
    · exact ⟨Nat.le_refl _, hr.sorted.mono (Nat.le_of_eq (by rw [hheap])) .refl (by rw [hheap]), .inl henv⟩
  · change _ ≤ (leave (keep machine) (run (enter machine)).2).heap.scopes.size ∧ _
    rcases hmove with ⟨rfl, rfl⟩ | hmove | ⟨rfl, rfl⟩
    · exact ⟨hle, he.mono (hr.alike.mono hs)⟩
    · rw [hheap]
      exact hr.moves before after hmove
    · exact ⟨Nat.le_of_eq (by rw [hheap]), .same (by rw [hheap])⟩

private theorem tryHeap {f : Heap → Except Failure Heap} (hm : machine.Sorted isBlock)
    (h : ∀ later, f machine.heap = .ok later → machine.StaysSorted isBlock { machine with heap := later }) :
    (Run.tryHeap f).SortsFrom machine isBlock := by
  unfold Run.tryHeap Run.make
  refine (fun hstays => update_bind hm .refl hstays (ofExcept _ hstays.sorted)) ?_
  dsimp only
  cases hf : f machine.heap with
  | ok later => exact h later hf
  | error failure => exact .of_same hm rfl rfl rfl

end SortsFrom

/-! ## From every machine -/

namespace Sorts

private theorem bind {run : Run α} {next : α → Run β} (h : run.Sorts inCode) (hn : ∀ a, (next a).Sorts inCode) :
    (Run.bind run next).Sorts inCode := by
  intro machine isBlock hm hc
  refine (h machine isBlock hm hc).bind fun a later isBlock' hr heq => ?_
  have hend : (run machine).2 = later := by rw [heq]
  exact hn a later isBlock' (hend ▸ hr.sorted) fun hin => hend ▸ hr.code (hc hin)

private theorem elsewhere {f : Machine → α × Machine} (h : ∀ machine, Machine.SameScopes machine (f machine).2) :
    (Run.update f).Sorts inCode :=
  fun machine _ hm _ => .update hm (.of_same hm (h machine).scopes (h machine).hosts (h machine).environment)

/-- All that has to do neither with scopes nor with functions leaves what is known of them. -/
theorem outside (inCode : Bool) : Outside fun run => run.Sorts inCode where
  pure a := fun machine isBlock hm _ => .pure a hm
  fail failure := fun machine isBlock hm _ => .fail failure hm
  exhausted := fun machine isBlock hm _ => .exhausted hm
  bind := .bind
  attempt h := fun machine isBlock hm hc => (h machine isBlock hm hc).attempt
  sameFrame h := fun machine isBlock hm _ => .update hm (.of_sameFrame hm (h machine))
  elsewhere := .elsewhere
  newHost hf := by
    unfold Run.newHost Run.make
    refine .bind (fun machine isBlock hm _ => .update hm ?_) fun id machine isBlock hm _ => .pure _ hm
    exact .newHost hm rfl rfl rfl fun definition closure properties he => absurd he (hf definition closure properties)

private theorem of_plain {writes : Bool} {run : Run α} (h : run.Plain writes) : run.Sorts inCode :=
  (outside inCode).plain h.widen

/-! ## Code -/

private theorem declareVariable (name : String) (value? : Option Value) :
    (Run.declareVariable name value?).Sorts true := by
  intro machine isBlock hm hc
  unfold Run.declareVariable Run.changeHeap Run.make
  refine .read_bind hm (.update hm ?_)
  exact .binds hm (Heap.binds_declareVariable _ _ _) (.declared name value? (hc rfl) rfl) rfl

private theorem declareLexical (name : String) (value : Value) (mutable : Bool) :
    (Run.declareLexical name value mutable).Sorts true := by
  intro machine isBlock hm hc
  unfold Run.declareLexical
  refine .read_bind hm (.tryHeap hm fun later h => ?_)
  exact .binds hm (Heap.binds_declareLexical h) (.lexical name value mutable (hc rfl) h) rfl

private theorem assign (name : String) (value : Value) : (Run.assign name value).Sorts true := by
  intro machine isBlock hm _
  unfold Run.assign
  refine .read_bind hm (.tryHeap hm fun later h => ?_)
  exact .binds hm (Heap.binds_assign h) (.assigned name value h) rfl

/-- A new function sees what the code sees that makes it. -/
theorem newFunction (definition : Script.Function) : (Run.newFunction definition).Sorts true := by
  unfold Run.newFunction
  refine .bind (.of_plain (.makeObject [] : Plain false _)) fun properties => ?_
  intro machine isBlock hm hc
  unfold Run.newHost Run.make
  have hstays : machine.StaysSorted isBlock { machine with heap := (machine.heap.newHost
      (.function definition machine.environment properties)).2 } := by
    refine .newHost hm rfl rfl rfl fun definition closure properties he => ?_
    obtain ⟨_, rfl, _⟩ := Host.function.inj he
    exact (hc rfl).sorts
  exact .read_bind hm (.update_bind hm .refl hstays (.pure _ hstays.sorted))

/-- A block has a scope of its own. -/
theorem inBlock {run : Run α} (h : run.Sorts true) : (Run.inBlock run).Sorts true := by
  intro machine isBlock hm hc
  have hin := hc rfl
  let scope : Scope := ⟨(machine.heap.scope machine.environment.function).owner, []⟩
  let inside := sortScope isBlock machine.heap.scopes.size true
  have hstays : machine.StaysSorted inside { machine with heap := (machine.heap.newScope scope).2 } :=
    .newScope hm scope true rfl rfl
  let entered : Machine := { machine with
    heap := (machine.heap.newScope scope).2, environment := machine.environment.push ⟨machine.heap.scopes.size⟩ }
  have halike := sortsAlike_sortScope isBlock machine.heap.scopes.size true
  have hsorts := hin.sorts.mono hstays.grows halike
  have hentered : entered.InCode inside := by
    refine ⟨hin.outer, fun id hid => ?_, hsorts.function⟩
    obtain rfl | hid := List.mem_cons.1 hid
    · refine ⟨?_, sortScope_self _ _ _⟩
      exact Nat.lt_of_lt_of_eq (Nat.lt_succ_self _) (Array.size_push _).symm
    · exact hsorts.blocks id hid
  unfold Run.inBlock
  refine .bracket hm halike (.newScope scope rfl) hstays.grows (.inr hentered) ?_ fun later he => ?_
  · exact h entered inside hstays.sorted fun _ => hentered
  · exact ⟨rfl, congrArg Environment.pop he⟩

end Sorts

/-- Code of a function is entered. -/
theorem sortsFrom_within {run : Run α} {environment : Environment} (hm : machine.Sorted isBlock)
    (hc : { machine with environment }.InCode isBlock) (h : run.Sorts true) :
    (Run.within environment run).SortsFrom machine isBlock := by
  unfold Run.within
  refine .bracket hm .refl (.same rfl) (Nat.le_refl _) (.inr hc) ?_ fun later he => ⟨rfl, rfl⟩
  exact h _ isBlock hm fun _ => hc

end Run

/-! ## Calls and programs -/

namespace Steps

open Run

variable {next : Steps} {machine : Machine} {isBlock : ScopeId → Bool} {inCode : Bool}

/-- What runs in a new scope of a function, which is not that of a block. -/
private theorem sortsFrom_newFunctionScope {α : Type} {run : Run α} {scope : Scope} {closure : Environment}
    (hm : machine.Sorted isBlock) (h : run.Sorts true) :
    (Run.bind (Run.make fun heap => heap.newScope scope) fun id =>
      Run.within (closure.pushFunction id) run).SortsFrom machine isBlock := by
  have hstays : machine.StaysSorted (sortScope isBlock machine.heap.scopes.size false)
      { machine with heap := (machine.heap.newScope scope).2 } := .newScope hm scope false rfl rfl
  unfold Run.make
  refine .update_bind hm (sortsAlike_sortScope _ _ _) hstays (sortsFrom_within hstays.sorted ⟨?_, ?_⟩ h)
  · simp [Environment.pushFunction, Environment.scopes]
  · refine ⟨fun id hid => absurd hid List.not_mem_nil, ?_, sortScope_self _ _ _⟩
    exact Nat.lt_of_lt_of_eq (Nat.lt_succ_self _) (Array.size_push _).symm

private theorem sortsFrom_callFunction {definition : Script.Function} {closure : Environment} {args : List Value}
    (hm : machine.Sorted isBlock) (h : (next.runFunction definition args).Sorts true) :
    (next.callFunction definition closure args).SortsFrom machine isBlock := by
  unfold Steps.callFunction Steps.inCall
  refine .read_bind hm ?_
  split
  · have hthrow (name message : String) : (throwNamed name message : Run Value).Sorts false :=
      .of_plain (.throwNamed name message : Plain false _)
    exact hthrow _ _ machine isBlock hm nofun
  · have hcalled : Machine.Sorted { machine with callDepth := machine.callDepth + 1 } isBlock :=
      hm.mono (Nat.le_refl _) .refl rfl
    refine .bracket hm .refl (.same rfl) (Nat.le_refl _) (.inl rfl) (.read_bind hcalled ?_) fun later he => ⟨rfl, he⟩
    exact sortsFrom_newFunctionScope hcalled h

/-- A program runs in scopes that are not those of blocks. -/
theorem sorts_runProgram {body : List Script.Statement} {bindings : List (String × Value)}
    (h : (next.runStatements body bindings).Sorts true) : (next.runProgram body bindings).Sorts inCode := by
  intro machine isBlock hm _
  let counted : Machine := { machine with runs := machine.runs + 1 }
  have hcounted : machine.StaysSorted isBlock counted := .of_same hm rfl rfl rfl
  unfold Steps.runProgram
  refine .update_bind hm .refl hcounted ?_
  have hglobals : globals.Sorts false := .of_plain (.globals : Plain false _)
  refine (hglobals counted isBlock hcounted.sorted nofun).bind fun global later isBlock' hr heq => ?_
  have hlater : later.Sorted isBlock' := by
    have hend := hr.sorted
    rwa [heq] at hend
  let outer : Scope := ⟨machine.runs, global.map fun binding => (binding.1, ⟨binding.2, true⟩)⟩
  have houter : later.StaysSorted (sortScope isBlock' later.heap.scopes.size false)
      { later with heap := (later.heap.newScope outer).2 } := .newScope hlater outer false rfl rfl
  exact .update_bind hlater (sortsAlike_sortScope _ _ _) houter (sortsFrom_newFunctionScope houter.sorted h)

/-- Whatever is called, a function written in a script runs in a scope of its own. -/
theorem sorts_callHost {id : HostId} {args : List Value}
    (hf : ∀ definition, (next.runFunction definition args).Sorts true)
    (hp : ∀ body bindings, (next.runProgram body bindings).Sorts inCode) : (next.callHost id args).Sorts inCode := by
  intro machine isBlock hm hc
  unfold Steps.callHost
  refine .read_bind hm ?_
  cases hid : machine.heap.host id with
  | native name action => exact Sorts.of_plain (.native action args) machine isBlock hm hc
  | embedded name respond => exact Sorts.of_plain (.reply _ : Plain false _) machine isBlock hm hc
  | function definition closure properties => exact sortsFrom_callFunction hm (hf definition)
  | require loader dir parent =>
    exact @Closed.refusing _ _ _ (Sorts.outside inCode).closed next next (fun body _ => hp body) loader trivial dir
      parent args machine isBlock hm hc
  | module cache record => exact .fail _ hm
  | cacheView cache => exact .fail _ hm

end Steps

/-- Whatever the rules make, scopes are told apart. -/
theorem Run.Alike.sorts {n : Nat} {α : Type} {run run' : Run α} (h : Run.Alike Run.Spent n run run') :
    run.Sorts true := by
  have hcomposed := (Run.Sorts.outside true).closed.toComposed
  induction h with
  | part h =>
    rw [show _ = Run.exhausted from h]
    exact (Run.Sorts.outside true).exhausted
  | plain h => exact .of_plain h
  | bind _ _ ih ihn => exact .bind ih ihn
  | declareVariable name value? => exact .declareVariable name value?
  | declareLexical name value mutable => exact .declareLexical name value mutable
  | assign name value => exact .assign name value
  | newFunction definition _ => exact .newFunction definition
  | inBlock _ ih => exact .inBlock ih
  | @catching _ _ run run' handler handler' _ _ ih ihh =>
    exact @Run.Composed.catching _ _ _ hcomposed run run' handler handler' ih ihh
  | @ensuring _ run run' last last' _ _ ih ihl =>
    exact @Run.Composed.ensuring _ _ hcomposed run run' last last' ih ihl
  | callHost id args _ _ ihf ihp =>
    exact Steps.sorts_callHost ihf fun body bindings => Steps.sorts_runProgram (ihp body bindings)

end ScriptModules
