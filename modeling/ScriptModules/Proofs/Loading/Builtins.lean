import ScriptModules.Proofs.Loading.Identity
import ScriptModules.Proofs.Loading.Require
import ScriptModules.Proofs.Runs.HostKinds

/-!
# Builtin modules

An embedding program may offer values as builtin modules at any time.  No request changes what is offered, so under
each name a loader has what was registered last (`Run.registers_of_meetAll`).  That is what everyone gets who requires
the name with `node:` before it, or without if the name does not begin like that itself: from wherever, whatever files
there are, and with nothing changed (`Run.provides_of_meetAll`).
-/

namespace ScriptModules

/-- What an embedding program does once its loaders are set up. -/
inductive Demand where
  | register (loader : LoaderId) (name : String) (exports : Value)
  | request (request : Request)

/-- What is registered with a loader under a name. -/
def Demand.registered? (loaderId : LoaderId) (name : String) : Demand → Option Value
  | .register loader other exports => if loader = loaderId ∧ other = name then some exports else none
  | .request _ => none

/-- What is registered last with a loader under a name. -/
def lastRegistered (loaderId : LoaderId) (name : String) : List Demand → Option Value
  | [] => none
  | demand :: demands => (lastRegistered loaderId name demands).or (demand.registered? loaderId name)

namespace Run

/-- Meets a demand. -/
def meet (fuel : Nat) : Demand → Run Unit
  | .register loader name exports => registerBuiltin loader name exports
  | .request request => do
    let _ ← attempt (serve fuel request)
    return ()

/-- Meets demands one after the other, whether requests fail or not. -/
def meetAll (fuel : Nat) : List Demand → Run Unit
  | [] => return ()
  | demand :: demands => do
    meet fuel demand
    meetAll fuel demands

end Run

/-! ## How a specifier names a builtin module -/

namespace Scene

variable {scene : Scene} {name specifier : String}

private theorem drop_lead (name : String) :
    String.ofList (("node:" ++ name).toList.drop builtinLead.length) = name := by
  rw [String.toList_append, show "node:".toList = builtinLead from rfl, List.drop_left, String.ofList_toList]

/-- With `node:` before it, a name is that of the builtin module, whatever the name is. -/
theorem builtinName?_lead (h : scene.config.builtins = true) (hf : (scene.builtins.find? name).isSome = true) :
    scene.builtinName? ("node:" ++ name) = some name := by
  have hlead : builtinLead.isPrefixOf ("node:" ++ name).toList = true := by
    rw [List.isPrefixOf_iff_prefix, String.toList_append]
    exact List.prefix_append _ _
  unfold builtinName?
  rw [if_pos h, if_pos hlead, drop_lead]
  exact if_pos hf

/-- Without it, only if the name does not begin with it. -/
theorem builtinName?_bare (h : scene.config.builtins = true) (hf : (scene.builtins.find? name).isSome = true)
    (hb : ¬ builtinLead <+: name.toList) : scene.builtinName? name = some name := by
  unfold builtinName?
  rw [if_pos h, if_neg (mt List.isPrefixOf_iff_prefix.1 hb)]
  exact if_pos hf

/-- A builtin module is found before anything is looked for, and nothing is noted. -/
theorem resolve_of_builtin (hs : specifier ≠ "") (h : scene.builtinName? specifier = some name) (dir : Path)
    (noted : List Failure) : (scene.resolve specifier dir).run noted = (.ok (.builtin name), noted) := by
  unfold resolve
  rw [if_neg hs, h]
  rfl

end Scene

/-! ## What a specifier gives -/

/-- Whoever asks for this specifier gets these exports, or that it leads to this builtin module, and nothing is
changed. -/
structure Machine.Provides (machine : Machine) (loaderId : LoaderId) (specifier name : String) (exports : Value) :
    Prop where
  resolved : ∀ dir, Run.resolve loaderId specifier dir machine = (.ok (.builtin name), machine)
  required : ∀ (next : Steps) dir parent,
    next.require loaderId specifier dir parent machine = (.ok exports, machine)
  /-- A script calls its load function. -/
  called : ∀ (next : Steps) host dir parent rest, machine.heap.host host = .require loaderId dir parent →
    next.callHost host (.string specifier :: rest) machine = (.ok exports, machine)
  /-- A script asks its load function where the specifier leads. -/
  identified : ∀ (next : Steps) host dir parent rest, machine.heap.host host = .require loaderId dir parent →
    ∃ function later, Run.property (.host host) "resolve" machine = (.ok (.host function), later) ∧
      later.heap.caches = machine.heap.caches ∧
      next.callHost function (.string specifier :: rest) later = (.ok (.string name), later)

namespace Run

variable {machine later : Machine} {loaderId : LoaderId} {specifier name : String} {exports : Value}

private theorem resolve_of_builtin (hs : specifier ≠ "")
    (h : (machine.scene loaderId).builtinName? specifier = some name) (dir : Path) :
    resolve loaderId specifier dir machine = (.ok (.builtin name), machine) := by
  rw [resolve_eq, Scene.resolve_of_builtin hs h]
  rfl

private theorem require_of_builtin (hs : specifier ≠ "")
    (h : (machine.scene loaderId).builtinName? specifier = some name)
    (hf : (machine.loader loaderId).builtins.find? name = some exports) (next : Steps) (dir : Path)
    (parent : Option Path) : next.require loaderId specifier dir parent machine = (.ok exports, machine) := by
  unfold Steps.require
  refine (bind_ok (resolve_of_builtin hs h dir)).trans ((bind_ok (a := machine.loader loaderId) rfl).trans ?_)
  rw [hf]
  rfl

private theorem native_resolve (hs : specifier ≠ "")
    (h : (machine.scene loaderId).builtinName? specifier = some name) (dir : Path) (rest : List Value) :
    native (.resolve loaderId dir) (.string specifier :: rest) machine = (.ok (.string name), machine) := by
  unfold native
  exact (bind_ok (a := specifier) rfl).trans (bind_ok (resolve_of_builtin hs h dir))

/-- What the scene tells of a builtin module is all that matters. -/
theorem provides_of_builtin (hs : specifier ≠ "")
    (h : (machine.scene loaderId).builtinName? specifier = some name)
    (hf : (machine.loader loaderId).builtins.find? name = some exports) :
    machine.Provides loaderId specifier name exports where
  resolved := resolve_of_builtin hs h
  required := require_of_builtin hs h hf
  called next host dir parent rest hh := by
    rw [next.callHost_require hh]
    exact onFailure_ok (require_of_builtin hs h hf next dir parent)
  identified next host dir parent rest hh := by
    refine ⟨_, _, (hostProperty_resolve hh).trans rfl, rfl, ?_⟩
    rw [next.callHost_native (Heap.host_newHost machine.heap _)]
    refine native_resolve hs ?_ dir rest
    exact h

end Run

/-! ## What is offered -/

/-- The loaders are as many, and this one has the same configuration, and what was given as builtin modules beside
those from before. -/
structure Machine.Registers (loaderId : LoaderId) (given : String → Option Value) (machine later : Machine) :
    Prop where
  size : later.loaders.size = machine.loaders.size
  config : (later.loader loaderId).config = (machine.loader loaderId).config
  builtins : loaderId.index < machine.loaders.size → ∀ name,
    (later.loader loaderId).builtins.find? name = (given name).or ((machine.loader loaderId).builtins.find? name)

namespace Machine

variable {machine later last : Machine} {loaderId : LoaderId} {given more : String → Option Value}

private theorem Registers.trans (h : machine.Registers loaderId given later) (h' : later.Registers loaderId more last) :
    machine.Registers loaderId (fun name => (more name).or (given name)) last where
  size := h'.size.trans h.size
  config := h'.config.trans h.config
  builtins hi name := by
    rw [h'.builtins (h.size ▸ hi), h.builtins hi, Option.or_assoc]

private theorem registers_of_loader (hs : later.loaders.size = machine.loaders.size)
    (hc : (later.loader loaderId).config = (machine.loader loaderId).config)
    (hb : (later.loader loaderId).builtins = (machine.loader loaderId).builtins) :
    machine.Registers loaderId (fun _ => none) later :=
  ⟨hs, hc, fun _ name => by rw [hb, Option.none_or]⟩

/-- The loader after a change of some loader. -/
theorem loader_modify (machine : Machine) (id other : LoaderId) (f : Loader → Loader) :
    ({ machine with loaders := machine.loaders.modify id.index f }).loader other =
      if id = other ∧ other.index < machine.loaders.size then f (machine.loader other) else machine.loader other := by
  simp only [Machine.loader, Array.getElem?_modify]
  by_cases hid : id = other
  · subst hid
    by_cases hi : id.index < machine.loaders.size
    · simp [hi]
    · simp [hi]
  · rw [if_neg fun h : id.index = other.index => hid (congrArg LoaderId.mk h), if_neg fun h => hid h.1]

/-- To change the entry module of a loader offers nothing. -/
private theorem registers_of_main (id : LoaderId) (main : Option Path) : machine.Registers loaderId (fun _ => none)
    { machine with loaders := machine.loaders.modify id.index fun loader => { loader with main } } := by
  refine registers_of_loader Array.size_modify ?_ ?_
  · rw [loader_modify]
    split <;> rfl
  · rw [loader_modify]
    split <;> rfl

end Machine

namespace Run

variable {α β : Type} {machine later moment : Machine} {loaderId : LoaderId}

/-- At each moment of the run the loader offers what it has offered at the start. -/
def KeepsOffers (loaderId : LoaderId) (run : Run α) : Prop :=
  ∀ machine later, run.passes machine later → machine.Registers loaderId (fun _ => none) later

namespace KeepsOffers

private theorem bind {run : Run α} {next : α → Run β} (h : run.KeepsOffers loaderId)
    (hn : ∀ a, (next a).KeepsOffers loaderId) : (Run.bind run next).KeepsOffers loaderId := by
  rintro machine last (hp | ⟨a, middle, hr, hp⟩)
  · exact h machine last hp
  · exact (h machine middle (passes_of_eq hr)).trans (hn a middle last hp)

private theorem attempt {run : Run α} (h : run.KeepsOffers loaderId) : (Run.attempt run).KeepsOffers loaderId := h

private theorem pure (a : α) : (Run.pure a).KeepsOffers loaderId := by
  rintro machine later rfl
  exact Machine.registers_of_loader rfl rfl rfl

private theorem of_keepsTo {run : Run α} (h : run.KeepsTo true fun _ => True) : run.KeepsOffers loaderId := by
  intro machine later hp
  have hs := (h machine (fun _ => trivial) later hp).2
  have hl := hs.loader loaderId
  exact Machine.registers_of_loader (by rw [hs.loaders]) (by rw [hl]) (by rw [hl])

private theorem changeMain (id : LoaderId) (main : Option Path) :
    (changeLoader id fun loader => { loader with main }).KeepsOffers loaderId := by
  rintro machine later (rfl | rfl)
  · exact Machine.registers_of_loader rfl rfl rfl
  · exact Machine.registers_of_main id main

/-- Code that may do anything makes host objects of any kind. -/
private theorem isKind : Host.IsKind true (fun _ => True) fun _ => True := by
  refine ⟨?_, ?_, ?_, ?_⟩ <;> simp

private theorem runMain (fuel : Nat) (id : LoaderId) (path : Path) :
    ((steps fuel).runMain id path).KeepsOffers loaderId := by
  have hkept := KeepsTo.kept isKind
  have hload (target : Path) : ((steps fuel).load id target none).KeepsTo true fun _ => True :=
    @Closed.load _ _ _ hkept.toClosed (steps fuel) (steps (fuel + 1))
      (fun body _ => hkept.steps_runProgram fuel body) id trivial target none
  have hplain {γ : Type} {run : Run γ} (h : run.Plain true) : run.KeepsOffers loaderId :=
    of_keepsTo (.of_plain isKind h)
  unfold Steps.runMain
  refine .bind (hplain (.read _)) fun loader => .bind (hplain (.read _)) fun site => ?_
  refine .bind (hplain (.resolve _ _ _)) fun target => ?_
  cases target with
  | builtin name => exact hplain (.fail _)
  | file target =>
    refine .bind (changeMain id (some target)) fun _ => ?_
    -- A failure changes the entry module back, and goes on.
    refine .bind (attempt (of_keepsTo (hload target))) fun result => ?_
    cases result with
    | ok value => exact hplain (.pure _)
    | error failure => exact .bind (changeMain id none) fun _ => hplain (.fail _)

/-- No request changes what is offered. -/
theorem serve (fuel : Nat) (request : Request) : (Run.serve fuel request).KeepsOffers loaderId := by
  cases request with
  | runMain id path => exact runMain fuel id path
  | _ => exact of_keepsTo (.serve isKind fuel trivial)

end KeepsOffers

/-! ## All demands -/

/-- A registration replaces what was offered under its name, and nothing else. -/
private theorem registers_of_registerBuiltin (id : LoaderId) (name : String) (exports : Value) :
    machine.Registers loaderId (fun other => (Demand.register id name exports).registered? loaderId other)
      (registerBuiltin id name exports machine).2 := by
  change machine.Registers loaderId _ { machine with loaders := machine.loaders.modify id.index _ }
  refine ⟨Array.size_modify, ?_, fun hi other => ?_⟩
  · rw [Machine.loader_modify]
    split <;> rfl
  · rw [Machine.loader_modify, Demand.registered?]
    by_cases hid : id = loaderId
    · rw [if_pos ⟨hid, hi⟩, Keyed.find?_insert]
      by_cases hname : name = other
      · rw [if_pos hname, if_pos ⟨hid, hname⟩, Option.some_or]
      · rw [if_neg hname, if_neg fun h => hname h.2, Option.none_or]
    · rw [if_neg fun h => hid h.1, if_neg fun h => hid h.1, Option.none_or]

private theorem registers_of_meet {fuel : Nat} {demand : Demand} (h : meet fuel demand machine = (.ok (), later)) :
    machine.Registers loaderId (fun name => demand.registered? loaderId name) later := by
  cases demand with
  | register id name exports =>
    obtain ⟨_, rfl⟩ := Prod.mk.inj h
    exact registers_of_registerBuiltin id name exports
  | request request =>
    have hkeeps : (meet fuel (.request request)).KeepsOffers loaderId :=
      .bind (.attempt (.serve fuel request)) fun _ => .pure ()
    exact hkeeps machine later (passes_of_eq h)

/-- A loader offers what was registered last under each name, beside what it has offered from the start. -/
theorem registers_of_meetAll {fuel : Nat} {demands : List Demand}
    (h : meetAll fuel demands machine = (.ok (), later)) :
    machine.Registers loaderId (fun name => lastRegistered loaderId name demands) later := by
  induction demands generalizing machine with
  | nil =>
    obtain ⟨_, rfl⟩ := Prod.mk.inj h
    exact Machine.registers_of_loader rfl rfl rfl
  | cons demand demands ih =>
    rcases bind_inv h with ⟨_, middle, hmeet, h⟩ | ⟨_, _, hf⟩ | ⟨_, hf⟩
    · exact (registers_of_meet hmeet).trans (ih h)
    · cases hf
    · cases hf

/-- Whatever was demanded of a loader that offers builtin modules, what was registered last under a name is what it
gives for that name, at each moment of the next request too, to scripts and to the embedding program alike, whatever
files there are.  The name may be anything; if it begins with `node:` itself, it needs another one before it. -/
theorem provides_of_meetAll (fuel : Nat) (demands : List Demand) (hi : loaderId.index < machine.loaders.size)
    (hb : (machine.loader loaderId).config.builtins = true)
    (he : meetAll fuel demands machine = (.ok (), later)) {name : String} {exports : Value} (hn : name ≠ "")
    (ho : (lastRegistered loaderId name demands).or ((machine.loader loaderId).builtins.find? name) = some exports)
    (request : Request) (hp : (serve fuel request).passes later moment) (sites : Array Site) :
    ({ moment with sites }).Provides loaderId ("node:" ++ name) name exports ∧
      (¬ Scene.builtinLead <+: name.toList → ({ moment with sites }).Provides loaderId name name exports) := by
  have hgiven : machine.Registers loaderId (fun name => lastRegistered loaderId name demands) later :=
    registers_of_meetAll he
  have hoffers := hgiven.trans (KeepsOffers.serve fuel request later moment hp)
  have hconfig : (({ moment with sites } : Machine).scene loaderId).config.builtins = true :=
    (congrArg Config.builtins hoffers.config).trans hb
  have hfind : (moment.loader loaderId).builtins.find? name = some exports :=
    (hoffers.builtins hi name).trans ((congrArg (Option.or · _) Option.none_or).trans ho)
  have hsome : ((({ moment with sites } : Machine).scene loaderId).builtins.find? name).isSome = true :=
    Option.isSome_iff_exists.2 ⟨exports, hfind⟩
  have hlead : "node:" ++ name ≠ "" := by
    intro h
    simp at h
  exact ⟨provides_of_builtin hlead (Scene.builtinName?_lead hconfig hsome) hfind,
    fun hbare => provides_of_builtin hn (Scene.builtinName?_bare hconfig hsome hbare) hfind⟩

/-- A name may be that of a file, and what is registered under it may be replaced between requests. -/
theorem provides_of_replaced : ∃ later,
    meetAll 30 [.register ⟨0⟩ "./a" .null, .request (.runMain ⟨0⟩ ⟨"/a"⟩), .register ⟨0⟩ "./a" (.string "b")]
        (.ofSite .cycle) = (.ok (), later) ∧
      ∀ moment, (serve 30 (.require ⟨0⟩ "/b" ⟨"/"⟩ none)).passes later moment → ∀ sites : Array Site,
        ({ moment with sites }).Provides ⟨0⟩ "node:./a" "./a" (.string "b") ∧
          ({ moment with sites }).Provides ⟨0⟩ "./a" "./a" (.string "b") := by
  have hrun : (meetAll 30 [.register ⟨0⟩ "./a" .null, .request (.runMain ⟨0⟩ ⟨"/a"⟩),
      .register ⟨0⟩ "./a" (.string "b")] (.ofSite .cycle)).1 = .ok () := by
    decide +kernel
  have hlast : (lastRegistered ⟨0⟩ "./a" [.register ⟨0⟩ "./a" .null, .request (.runMain ⟨0⟩ ⟨"/a"⟩),
      .register ⟨0⟩ "./a" (.string "b")]).or (((Machine.ofSite .cycle).loader ⟨0⟩).builtins.find? "./a") =
        some (.string "b") := by
    decide +kernel
  refine ⟨_, Prod.ext hrun rfl, fun moment hp sites => ?_⟩
  have hprovides := provides_of_meetAll 30 _ (by decide) (by decide) (Prod.ext hrun rfl) (by decide) hlast _ hp sites
  exact ⟨hprovides.1, hprovides.2 (by decide)⟩

/-- A name that begins with `node:` is not found by itself: what is looked for is the rest of it. -/
theorem not_always_provided : ∃ later,
    meetAll 0 [.register ⟨0⟩ "node:x" (.string "1")] (.ofSite .cycle) = (.ok (), later) ∧
      lastRegistered ⟨0⟩ "node:x" [.register ⟨0⟩ "node:x" (.string "1")] = some (.string "1") ∧
      (require ⟨0⟩ "node:x" ⟨"/"⟩ none later).1 = .failed (.notFound "node:x" ⟨"/"⟩) := by
  have hrun : (meetAll 0 [.register ⟨0⟩ "node:x" (.string "1")] (.ofSite .cycle)).1 = .ok () := by decide +kernel
  refine ⟨_, Prod.ext hrun rfl, by decide, ?_⟩
  decide +kernel

end Run
end ScriptModules
