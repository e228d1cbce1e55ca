import ScriptModules.Config.Basic
import ScriptModules.Files.Site
import ScriptModules.Module.Handler
import ScriptModules.Value.Heap

/-!
# The machine

All that a run of modules can see and change: the heap, the sites, the registries of handlers, the
loaders, and where the run is.  `Run` is a computation on the machine that ends with a result, fails, or
runs out of the steps that it was given.  It is made of changes of the machine, one after the other, and
it tells which machines it goes through.
-/

namespace ScriptModules

/-- An engine of an embedding program. -/
structure ForeignEngine where
  /-- The line and the message of the refusal of a source text. -/
  refuse : (source : String) → Option (Nat × String)
  /-- What a run of a source text in a file of a directory sets on the exports. -/
  sets : (source directory filename : String) → List (String × Value)
  /-- What a run of a source text with its load function results in. -/
  answer : (source : String) → (require : Value) → Reply

/-- What runs source modules. -/
inductive Engine where
  | interpreter
  | foreign (engine : ForeignEngine)

structure Loader where
  config : Config
  engine : Engine
  site : SiteId
  cache : CacheId
  registry : RegistryId
  builtins : Keyed Value
  /-- The entry module, if one was run. -/
  main : Option Path

instance : Inhabited Loader := ⟨⟨.standard, .interpreter, ⟨0⟩, ⟨0⟩, ⟨0⟩, [], none⟩⟩

/-- What happens in a run. -/
inductive Event where
  | printed (stream : Stream) (line : String)
  | warned (failure : Failure)
  /-- A module is put into the cache with new exports, for the module that requires it. -/
  | started (cache : CacheId) (id : Path) (parent : Option Path) (exports : Value)
  /-- The body of a module begins with this value as its `exports`. -/
  | entered (cache : CacheId) (id : Path) (exports : Value)
  /-- What a module exports is replaced. -/
  | assigned (cache : CacheId) (id : Path) (exports : Value)
  /-- A module is found in the cache, and what it exports is given to the module that requires it. -/
  | found (cache : CacheId) (id : Path) (parent : Option Path) (exports : Value)
  /-- A module is loaded, and what it exports is given away. -/
  | finished (cache : CacheId) (id : Path) (exports : Value)
  /-- A module is taken out of the cache because its load failed. -/
  | failed (cache : CacheId) (id : Path) (failure : Failure)
  /-- A script has called a load function, which failed. -/
  | refused (failure : Failure)
  /-- A failure that came up between two points of the run goes no further. -/
  | dropped (since till : Nat)
  deriving DecidableEq

structure Machine where
  heap : Heap
  sites : Array Site
  registries : Array Registry
  loaders : Array Loader
  /-- The scopes of the code that is run. -/
  environment : Environment
  /-- The calls of script functions that have not ended. -/
  callDepth : Nat
  /-- The number of runs of programs so far. -/
  runs : Nat
  /-- The modules that are being loaded, the innermost first. -/
  loading : List (CacheId × Path)
  /-- What has happened, the latest first. -/
  events : List Event

namespace Machine

def empty : Machine := ⟨.empty, #[], #[], #[], default, 0, 0, [], []⟩

instance : Inhabited Machine := ⟨empty⟩

/-- A loader. -/
def loader (machine : Machine) (id : LoaderId) : Loader := machine.loaders[id.index]?.getD default

/-- A registry of handlers. -/
def registry (machine : Machine) (id : RegistryId) : Registry :=
  machine.registries[id.index]?.getD default

end Machine

/-- How a computation ends. -/
inductive Outcome (α : Type) where
  | ok (result : α)
  | failed (failure : Failure)
  /-- The steps were used up. -/
  | exhausted
  deriving DecidableEq

/-- From the first machine the second one is reached by some changes, one after the other. -/
inductive Machine.Reaches (moves : Machine → Machine → Prop) (machine : Machine) : Machine → Prop
  | refl : Reaches moves machine machine
  | step {before after : Machine} : Reaches moves machine before → moves before after → Reaches moves machine after

namespace Machine.Reaches

variable {moves moves' : Machine → Machine → Prop} {machine later last : Machine}

theorem mono (h : Reaches moves machine later) (hm : ∀ before after, moves before after → moves' before after) :
    Reaches moves' machine later := by
  induction h with
  | refl => exact .refl
  | step _ h ih => exact .step ih (hm _ _ h)

private theorem trans (h : Reaches moves machine later) (h' : Reaches moves later last) :
    Reaches moves machine last := by
  induction h' with
  | refl => exact h
  | step _ h ih => exact .step ih h

end Machine.Reaches

/-- A computation on the machine.  Whatever its outcome, the machine keeps what was done.  `passes` tells
which machines the computation goes through: the first one, the last one, and the one after each change in
between.  `moves` tells these changes, each by the machine before it and the machine after it. -/
structure Run (α : Type) where
  apply : Machine → Outcome α × Machine
  passes : Machine → Machine → Prop
  moves : Machine → Machine → Machine → Prop
  passes_start : ∀ machine, passes machine machine
  passes_end : ∀ machine, passes machine (apply machine).2
  passes_moves : ∀ machine later, passes machine later → Machine.Reaches (moves machine) machine later

namespace Run

variable {α β σ : Type}

instance : CoeFun (Run α) fun _ => Machine → Outcome α × Machine := ⟨Run.apply⟩

/-! ## How runs are made -/

@[inline] protected def pure (a : α) : Run α where
  apply machine := (.ok a, machine)
  passes machine other := other = machine
  moves _ _ _ := False
  passes_start _ := rfl
  passes_end _ := rfl
  passes_moves _ _ h := h ▸ .refl

@[inline] protected def bind (run : Run α) (next : α → Run β) : Run β where
  apply machine := match run.apply machine with
    | (.ok a, machine) => (next a).apply machine
    | (.failed failure, machine) => (.failed failure, machine)
    | (.exhausted, machine) => (.exhausted, machine)
  passes machine other := run.passes machine other ∨
    ∃ a middle, run.apply machine = (.ok a, middle) ∧ (next a).passes middle other
  moves machine before after := run.moves machine before after ∨
    ∃ a middle, run.apply machine = (.ok a, middle) ∧ (next a).moves middle before after
  passes_start machine := .inl (run.passes_start machine)
  passes_end machine := by
    have h := run.passes_end machine
    split
    · next a middle heq => exact .inr ⟨a, middle, heq, (next a).passes_end middle⟩
    · next heq => exact .inl (by rwa [heq] at h)
    · next heq => exact .inl (by rwa [heq] at h)
  passes_moves machine later h := by
    rcases h with h | ⟨a, middle, heq, h⟩
    · exact (run.passes_moves machine later h).mono fun _ _ => .inl
    · have hend := run.passes_moves machine _ (run.passes_end machine)
      rw [heq] at hend
      refine (hend.mono fun _ _ => .inl).trans (((next a).passes_moves middle later h).mono fun _ _ h => ?_)
      exact .inr ⟨a, middle, heq, h⟩

instance : Monad Run where
  pure := Run.pure
  bind := Run.bind

/-- Changes the machine in one step, and gives a result. -/
@[inline] def update (f : Machine → α × Machine) : Run α where
  apply machine := match f machine with
    | (a, machine) => (.ok a, machine)
  passes machine other := other = machine ∨ other = (f machine).2
  moves machine before after := before = machine ∧ after = (f machine).2
  passes_start _ := .inl rfl
  passes_end _ := .inr rfl
  passes_moves _ _ h := by
    rcases h with rfl | rfl
    · exact .refl
    · exact .step .refl ⟨rfl, rfl⟩

/-- Ends with a failure. -/
def fail (failure : Failure) : Run α where
  apply machine := (.failed failure, machine)
  passes machine other := other = machine
  moves _ _ _ := False
  passes_start _ := rfl
  passes_end _ := rfl
  passes_moves _ _ h := h ▸ .refl

/-- Ends because the steps are used up. -/
def exhausted : Run α where
  apply machine := (.exhausted, machine)
  passes machine other := other = machine
  moves _ _ _ := False
  passes_start _ := rfl
  passes_end _ := rfl
  passes_moves _ _ h := h ▸ .refl

/-- Runs to an end, and reports a failure as a result. -/
@[inline] def attempt (run : Run α) : Run (Except Failure α) where
  apply machine := match run.apply machine with
    | (.ok a, machine) => (.ok (.ok a), machine)
    | (.failed failure, machine) => (.ok (.error failure), machine)
    | (.exhausted, machine) => (.exhausted, machine)
  passes := run.passes
  moves := run.moves
  passes_start := run.passes_start
  passes_end machine := by
    have h := run.passes_end machine
    split <;> next heq => rwa [heq] at h
  passes_moves := run.passes_moves

/-- Enters something, runs there, and leaves it whatever the outcome, with what was kept of the machine
outside. -/
@[inline] def bracket (keep : Machine → σ) (enter : Machine → Machine) (leave : σ → Machine → Machine)
    (run : Run α) : Run α where
  apply machine :=
    let kept := keep machine
    match run.apply (enter machine) with
    | (outcome, machine) => (outcome, leave kept machine)
  passes machine other := other = machine ∨ run.passes (enter machine) other ∨
    other = leave (keep machine) (run.apply (enter machine)).2
  moves machine before after := before = machine ∧ after = enter machine ∨
    run.moves (enter machine) before after ∨
    before = (run.apply (enter machine)).2 ∧ after = leave (keep machine) (run.apply (enter machine)).2
  passes_start _ := .inl rfl
  passes_end _ := .inr (.inr rfl)
  passes_moves machine later h := by
    rcases h with rfl | h | rfl
    · exact .refl
    · refine .trans (.step .refl (.inl ⟨rfl, rfl⟩)) ?_
      exact (run.passes_moves (enter machine) later h).mono fun _ _ h => .inr (.inl h)
    · refine .step (.trans (.step .refl (.inl ⟨rfl, rfl⟩)) ?_) (.inr (.inr ⟨rfl, rfl⟩))
      exact (run.passes_moves (enter machine) _ (run.passes_end _)).mono fun _ _ h => .inr (.inl h)

/-! ## Reading and changing the machine -/

/-- What is read off the machine. -/
@[inline] def read (f : Machine → α) : Run α := update fun machine => (f machine, machine)

/-- Changes the machine. -/
@[inline] def change (f : Machine → Machine) : Run Unit := update fun machine => ((), f machine)

/-- The result, or the failure. -/
def ofExcept : Except Failure α → Run α
  | .ok a => Run.pure a
  | .error failure => fail failure

/-- The heap as it is. -/
def heap : Run Heap := read Machine.heap

/-- Works on the heap in one step. -/
@[inline] def make (f : Heap → α × Heap) : Run α := update fun machine =>
  match f machine.heap with
  | (a, heap) => (a, { machine with heap })

/-- Changes the heap. -/
@[inline] def changeHeap (f : Heap → Heap) : Run Unit := make fun heap => ((), f heap)

/-- Changes the heap, or fails. -/
@[inline] def tryHeap (f : Heap → Except Failure Heap) : Run Unit := do
  ofExcept (← make fun heap => match f heap with
    | .ok heap => (.ok (), heap)
    | .error failure => (.error failure, heap))

/-- Lets the surroundings know. -/
def note (event : Event) : Run Unit := change fun m => { m with events := event :: m.events }

/-- The point that the run is at: how much has happened so far. -/
def now : Run Nat := read fun m => m.events.length

/-- Fails because a value is used in a way that its kind does not allow. -/
def failType (cause : TypeCause) : Run α := fail (.type cause)

/-- Runs, and does something more if that fails. -/
def onFailure (run : Run α) (last : Failure → Run Unit) : Run α := do
  match ← attempt run with
  | .ok a => return a
  | .error failure =>
    last failure
    fail failure

/-- A new array of these items. -/
def newArray (items : List Value) : Run Value := do
  return .array (← make fun heap => heap.newArray items.toArray)

/-- A new object with these entries. -/
def newObject (entries : List (String × Value)) : Run Value := do
  return .object (← make fun heap => heap.newObject (Keyed.ofList entries))

/-- A new host object. -/
def newHost (host : Host) : Run Value := do
  return .host (← make fun heap => heap.newHost host)

/-- A loader. -/
def loader (id : LoaderId) : Run Loader := read fun m => m.loader id

/-- A site. -/
def site (id : SiteId) : Run Site := read fun m => m.sites[id.index]?.getD default

/-- Changes a site. -/
def changeSite (id : SiteId) (f : Site → Site) : Run Unit := change fun m =>
  { m with sites := m.sites.modify id.index f }

/-- A registry of handlers. -/
def registry (id : RegistryId) : Run Registry := read fun m => m.registry id

/-- Changes a loader. -/
def changeLoader (id : LoaderId) (f : Loader → Loader) : Run Unit := change fun m =>
  { m with loaders := m.loaders.modify id.index f }

end Run
end ScriptModules
