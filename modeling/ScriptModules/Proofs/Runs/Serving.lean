import ScriptModules.Machine.Embedding
import ScriptModules.Proofs.Runs.Closed
import ScriptModules.Proofs.Runs.Outcome

/-!
# What requests keep

Requests do a little more than loads: they set up sites and loaders, and serve whatever an embedding program asks for.
Nothing of this has to do with scopes or functions.  So whatever is kept by all that leaves those alone
(`Run.Outside`) holds of requests as soon as it holds of programs and calls (`Run.Outside.serveAll`), and holds of how
a machine is set up (`Run.Outside.setUp`).  What relates two ways to take steps is carried over in the same way
(`Run.Served.serveAll`).
-/

namespace ScriptModules

/-- The second machine has the same arrays, scopes and host objects, and the same code is run. -/
structure Machine.SameScopes (machine later : Machine) : Prop where
  arrays : later.heap.arrays = machine.heap.arrays
  scopes : later.heap.scopes = machine.heap.scopes
  hosts : later.heap.hosts = machine.heap.hosts
  runs : later.runs = machine.runs
  environment : later.environment = machine.environment

namespace Run

/-- Plain runs make no scopes, and do not run programs. -/
theorem Plain.scopes_and_runs {α : Type} {writes : Bool} {run : Run α} (h : run.Plain writes) (machine : Machine) :
    (run machine).2.heap.scopes = machine.heap.scopes ∧ (run machine).2.runs = machine.runs := by
  induction h generalizing machine with
  | pure a => exact ⟨rfl, rfl⟩
  | fail failure => exact ⟨rfl, rfl⟩
  | @bind _ _ run next _ _ ih ihn =>
    have hfirst := ih machine
    cases hr : run machine with
    | mk outcome middle =>
      rw [hr] at hfirst
      cases outcome with
      | ok a =>
        rw [bind_ok hr]
        exact ⟨(ihn a middle).1.trans hfirst.1, (ihn a middle).2.trans hfirst.2⟩
      | failed failure => rwa [bind_failed hr]
      | exhausted => rwa [bind_exhausted hr]
  | update h =>
    have hs := h machine
    rw [Run.update, hs.elsewhere]
    exact ⟨hs.heap.scopes, rfl⟩
  | note _ => exact ⟨rfl, rfl⟩
  | changeSite id f _ => exact ⟨rfl, rfl⟩
  | assignExports cache id exports =>
    unfold Run.assignExports Run.update
    dsimp only
    split <;> exact ⟨rfl, rfl⟩

/-! ## Serving with other steps -/

end Run

namespace Steps

/-- Serves a request with these steps. -/
def serve (next : Steps) : Request → Run Value
  | .require loader specifier dir parent => next.require loader specifier dir parent
  | .runMain loader path => next.runMain loader path
  | .snippet loader source dir => next.runSnippet loader source dir
  | .program body bindings => next.runProgram body bindings
  | .call id args => next.callHost id args
  | .edit site change => do
    Run.changeSite site change
    return .undefined

/-- Serves requests one after the other. -/
def serveAll (next : Steps) : List Request → Run Unit
  | [] => return ()
  | request :: requests => do
    let _ ← Run.attempt (next.serve request)
    serveAll next requests

end Steps

namespace Run

private theorem serve_eq (fuel : Nat) (request : Request) : serve fuel request = (steps fuel).serve request := by
  cases request <;> rfl

theorem serveAll_eq (fuel : Nat) (requests : List Request) :
    serveAll fuel requests = (steps fuel).serveAll requests := by
  induction requests with
  | nil => rfl
  | cons request requests ih => rw [serveAll, Steps.serveAll, serve_eq, ih]

/-- What is kept by the ways in which requests are served. -/
structure Served (related : {α : Type} → Run α → Run α → Prop) : Prop
    extends Closed true (fun _ => True) related where
  changeLoader (id : LoaderId) (f : Loader → Loader) : related (Run.changeLoader id f) (Run.changeLoader id f)

namespace Served

variable {related : {α : Type} → Run α → Run α → Prop} (h : Served @related) {next next' : Steps}
  (hp : ∀ body, Script.IsProgram body → ∀ bindings,
    related (next.runProgram body bindings) (next'.runProgram body bindings))

include h hp

private theorem runMain (loaderId : LoaderId) (path : Path) :
    related (next.runMain loaderId path) (next'.runMain loaderId path) := by
  unfold Steps.runMain
  refine h.bind (h.plain (.read _)) fun loader => h.bind (h.plain (.read _)) fun site => ?_
  refine h.bind (h.plain (.resolve _ _ _)) fun target => ?_
  cases target with
  | builtin name => exact h.plain (.fail _)
  | file id =>
    refine h.bind (h.changeLoader _ _) fun _ => ?_
    exact h.onFailure (h.load hp trivial id none) fun failure => h.changeLoader _ _

variable (hc : ∀ id args, related (next.callHost id args) (next'.callHost id args))

include hc

/-- A program that is asked for need not have been parsed. -/
theorem serve (request : Request) (hr : ∀ body bindings, request = .program body bindings →
    related (next.runProgram body bindings) (next'.runProgram body bindings)) :
    related (next.serve request) (next'.serve request) := by
  cases request with
  | require loader specifier dir parent => exact h.require hp trivial specifier dir parent
  | runMain loader path => exact h.runMain hp loader path
  | snippet loader source dir => exact h.runSnippet hp trivial source dir
  | program body bindings => exact hr body bindings rfl
  | call id args => exact hc id args
  | edit site f => exact h.plain (.bind (.changeSite _ _ rfl) fun _ => .pure _)

/-- Requests are served in related ways, if programs are run and functions called so. -/
theorem serveAll (requests : List Request) (hr : ∀ body bindings, .program body bindings ∈ requests →
    related (next.runProgram body bindings) (next'.runProgram body bindings)) :
    related (next.serveAll requests) (next'.serveAll requests) := by
  induction requests with
  | nil => exact h.plain (.pure _)
  | cons request requests ih =>
    have hfirst := h.serve hp hc request fun body bindings he => hr body bindings (he ▸ List.mem_cons_self)
    refine h.bind (h.attempt hfirst) fun _ => ih fun body bindings hm => ?_
    exact hr body bindings (List.mem_cons_of_mem _ hm)

end Served

/-! ## What has to do neither with scopes nor with functions -/

/-- What is kept by all that has to do neither with scopes nor with functions. -/
structure Outside (kept : {α : Type} → Run α → Prop) : Prop where
  pure {α : Type} (a : α) : kept (Run.pure a)
  fail {α : Type} (failure : Failure) : kept (Run.fail failure : Run α)
  exhausted {α : Type} : kept (Run.exhausted : Run α)
  bind {α β : Type} {run : Run α} {next : α → Run β} : kept run → (∀ a, kept (next a)) → kept (Run.bind run next)
  attempt {α : Type} {run : Run α} : kept run → kept (Run.attempt run)
  sameFrame {α : Type} {f : Machine → α × Machine} :
    (∀ machine, Machine.SameFrame machine (f machine).2) → kept (Run.update f)
  elsewhere {α : Type} {f : Machine → α × Machine} :
    (∀ machine, Machine.SameScopes machine (f machine).2) → kept (Run.update f)
  newHost {host : Host} : (∀ definition closure properties, host ≠ .function definition closure properties) →
    kept (Run.newHost host)

namespace Outside

variable {α β : Type} {kept : {α : Type} → Run α → Prop} (h : Outside @kept)

include h

theorem note (event : Event) : kept (Run.note event) := by
  unfold Run.note Run.change
  exact h.elsewhere fun machine => ⟨rfl, rfl, rfl, rfl, rfl⟩

theorem plain {run : Run α} (hr : run.Plain true) : kept run := by
  induction hr with
  | pure a => exact h.pure a
  | fail failure => exact h.fail failure
  | bind _ _ ih ihn => exact h.bind ih ihn
  | update hf => exact h.sameFrame hf
  | note _ => exact h.note _
  | changeSite id f _ =>
    unfold Run.changeSite Run.change
    exact h.elsewhere fun machine => ⟨rfl, rfl, rfl, rfl, rfl⟩
  | assignExports cache id exports =>
    refine h.elsewhere fun machine => ?_
    split
    · exact ⟨rfl, rfl, rfl, rfl, rfl⟩
    · exact ⟨rfl, rfl, rfl, rfl, rfl⟩

/-- Loads are such runs. -/
theorem closed : Closed true (fun _ => True) fun run _ => kept run where
  plain := h.plain
  note := h.note
  bind := h.bind
  attempt := h.attempt
  exhausted := h.exhausted
  change hf := h.elsewhere fun machine => by
    refine ⟨(hf machine).arrays, (hf machine).scopes, (hf machine).hosts, ?_, ?_⟩
    · rw [(hf machine).elsewhere]
    · rw [(hf machine).elsewhere]
  newRequire _ _ _ := h.newHost nofun

private theorem mapM {f : α → Run β} (hf : ∀ a, kept (f a)) (items : List α) : kept (items.mapM f) := by
  suffices hl : ∀ done, kept (List.mapM.loop f items done) from hl []
  induction items with
  | nil => exact fun done => h.pure _
  | cons item items ih => exact fun done => h.bind (hf item) fun b => ih (b :: done)

/-! ## Requests -/

/-- And so are requests. -/
theorem served : Served fun run _ => kept run where
  toClosed := h.closed
  changeLoader id f := by
    unfold Run.changeLoader Run.change
    exact h.elsewhere fun machine => ⟨rfl, rfl, rfl, rfl, rfl⟩

/-- What programs and calls keep is kept by requests. -/
theorem serveAll {fuel : Nat} (hp : ∀ body bindings, kept ((steps fuel).runProgram body bindings))
    (hc : ∀ id args, kept ((steps fuel).callHost id args)) (requests : List Request) :
    kept (Run.serveAll fuel requests) := by
  rw [serveAll_eq]
  exact @Served.serveAll _ h.served (steps fuel) (steps fuel) (fun body _ => hp body) hc requests
    fun body bindings _ => hp body bindings

end Outside

/-! ## Setting up -/

namespace Outside

variable {kept : {α : Type} → Run α → Prop} (h : Outside @kept)

include h

private theorem builtins (config : Config) (site : SiteId) : kept (Run.builtins config site) := by
  have hnative (name : String) (action : Native) : kept (newNative name action) := by
    unfold Run.newNative
    exact h.bind (h.newHost nofun) fun value => h.pure _
  have hobject (entries : List (String × Value)) : kept (newObject entries) :=
    h.plain (.newObject entries)
  unfold Run.builtins Run.fileModule Run.pathModule
  split
  · refine h.bind (h.bind (h.mapM (fun call => hnative _ _) _) fun functions => hobject _) fun files => ?_
    refine h.bind (h.bind (h.mapM (fun call => hnative _ _) _) fun functions => hobject _) fun paths => ?_
    exact h.pure _
  · exact h.pure _

private theorem newLoader (config : Config) (engine : Engine) (site : SiteId) (cache? : Option CacheId)
    (registryId? : Option RegistryId) : kept (Run.newLoader config engine site cache? registryId?) := by
  have hcache : kept newCache := by
    unfold Run.newCache Run.make
    exact h.elsewhere fun machine => ⟨rfl, rfl, rfl, rfl, rfl⟩
  have hregistry (registry : Registry) : kept (newRegistry registry) := by
    unfold Run.newRegistry
    exact h.elsewhere fun machine => ⟨rfl, rfl, rfl, rfl, rfl⟩
  have hrest (cache : CacheId) (registry : RegistryId) : kept (Run.bind (Run.builtins config site) fun builtins =>
      Run.update fun m => ((⟨m.loaders.size⟩ : LoaderId), { m with
        loaders := m.loaders.push { config, engine, site, cache, registry, builtins, main := none } })) :=
    h.bind (h.builtins config site) fun builtins => h.elsewhere fun machine => ⟨rfl, rfl, rfl, rfl, rfl⟩
  unfold Run.newLoader
  refine h.bind (h.plain (.ofExcept _)) fun _ => ?_
  cases cache? with
  | none =>
    refine h.bind hcache fun cache => ?_
    cases registryId? with
    | none => exact h.bind (hregistry _) (hrest cache)
    | some registry => exact h.bind (h.pure registry) (hrest cache)
  | some cache =>
    refine h.bind (h.pure cache) fun cache => ?_
    cases registryId? with
    | none => exact h.bind (hregistry _) (hrest cache)
    | some registry => exact h.bind (h.pure registry) (hrest cache)

/-- How a machine with a site is set up. -/
theorem setUp (site : Site) :
    kept (Run.bind (Run.newSite site) fun id => Run.newLoader .standard .interpreter id none none) := by
  have hsite : kept (Run.newSite site) := by
    unfold Run.newSite
    exact h.elsewhere fun machine => ⟨rfl, rfl, rfl, rfl, rfl⟩
  exact h.bind hsite fun id => h.newLoader _ _ _ _ _

end Outside
end Run
end ScriptModules
