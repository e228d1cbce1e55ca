import ScriptModules.Machine.Embedding
import ScriptModules.Proofs.Runs.Closed

/-!
# Which host objects there are

What code can reach depends on the host objects that there are.  Code makes only views, functions of its own, and load
functions of the loaders that it uses, so whatever is true of those stays true of all host objects if it is true of
them at the start; and the loaders stay as they are, as do the sites where no native function changes files
(`Run.KeepsTo.kept`).  So it is with requests, but for those that concern an entry module (`Run.KeepsTo.serve`).
-/

namespace ScriptModules

/-- What is true of all host objects that code makes if it uses these loaders only, and, unless with `writes`, of no
native function that changes files. -/
structure Host.IsKind (writes : Bool) (loads : LoaderId → Prop) (kind : Host → Prop) : Prop where
  passive : ∀ host, host.isPassive = true → kind host
  function : ∀ definition closure properties, kind (.function definition closure properties)
  require : ∀ loader dir parent, kind (.require loader dir parent) ↔ loads loader
  native : ∀ name action, kind (.native name action) → writes = false → action.writes = false

/-- The request concerns these loaders only, if any, and no entry module. -/
def Request.Keeps (loads : LoaderId → Prop) : Request → Prop
  | .require loader _ _ _ | .snippet loader _ _ => loads loader
  | .runMain _ _ => False
  | _ => True

namespace Machine

variable {kind : Host → Prop} {writes : Bool} {machine later last : Machine}

/-- All host objects are of this kind. -/
def HostsAre (machine : Machine) (kind : Host → Prop) : Prop := ∀ id, kind (machine.heap.host id)

theorem HostsAre.of_hosts (h : machine.HostsAre kind) (hh : later.heap.hosts = machine.heap.hosts) :
    later.HostsAre kind := by
  intro id
  rw [Heap.host, hh]
  exact h id

theorem HostsAre.of_push {host : Host} (h : machine.HostsAre kind) (hk : kind host)
    (hh : later.heap.hosts = machine.heap.hosts.push host) : later.HostsAre kind := by
  intro id
  rw [Heap.host, hh, Array.getElem?_push]
  split
  · exact hk
  · exact h id

/-- The second machine has the same loaders, and, unless with `writes`, the same sites. -/
structure SameSetting (writes : Bool) (machine later : Machine) : Prop where
  loaders : later.loaders = machine.loaders
  sites : writes = false → later.sites = machine.sites

private theorem SameSetting.refl (machine : Machine) : machine.SameSetting writes machine := ⟨rfl, fun _ => rfl⟩

private theorem SameSetting.trans (h : SameSetting writes machine later) (h' : SameSetting writes later last) :
    SameSetting writes machine last :=
  ⟨h'.loaders.trans h.loaders, fun hw => (h'.sites hw).trans (h.sites hw)⟩

theorem SameSetting.loader (h : SameSetting writes machine later) (id : LoaderId) :
    later.loader id = machine.loader id := by
  rw [Machine.loader, h.loaders]
  rfl

end Machine

namespace Run

variable {α β σ : Type} {writes : Bool} {kind : Host → Prop}

/-- From this machine on all host objects are of this kind at each moment of the run, and the loaders are the same,
as are the sites unless with `writes`. -/
def KeepsToAt (writes : Bool) (kind : Host → Prop) (run : Run α) (machine : Machine) : Prop :=
  ∀ later, run.passes machine later → later.HostsAre kind ∧ Machine.SameSetting writes machine later

/-- Where all host objects are of this kind, they are at each moment of the run. -/
def KeepsTo (writes : Bool) (kind : Host → Prop) (run : Run α) : Prop :=
  ∀ machine : Machine, machine.HostsAre kind → run.KeepsToAt writes kind machine

namespace KeepsTo

variable {machine : Machine}

/-! ## Steps -/

/-- A run that is one change of the machine, or none. -/
theorem of_step {run : Run α} (hp : ∀ machine later, run.passes machine later → later = machine ∨ later = (run machine).2)
    (h : ∀ machine : Machine, machine.HostsAre kind →
      (run machine).2.HostsAre kind ∧ Machine.SameSetting writes machine (run machine).2) : run.KeepsTo writes kind := by
  intro machine hm later hpass
  rcases hp machine later hpass with rfl | rfl
  · exact ⟨hm, .refl _⟩
  · exact h machine hm

/-- A change that makes no host object. -/
theorem of_hosts {run : Run α} (hp : ∀ machine later, run.passes machine later → later = machine ∨ later = (run machine).2)
    (h : ∀ machine, (run machine).2.heap.hosts = machine.heap.hosts ∧ (run machine).2.loaders = machine.loaders ∧
      (run machine).2.sites = machine.sites) : run.KeepsTo writes kind :=
  .of_step hp fun machine hm => ⟨hm.of_hosts (h machine).1, (h machine).2.1, fun _ => (h machine).2.2⟩

private theorem read (f : Machine → α) : (Run.read f).KeepsTo writes kind :=
  .of_hosts (fun _ _ h => h) fun _ => ⟨rfl, rfl, rfl⟩

private theorem make {f : Heap → α × Heap} (h : ∀ heap, (f heap).2.hosts = heap.hosts) :
    (Run.make f).KeepsTo writes kind :=
  .of_hosts (fun _ _ h => h) fun machine => ⟨h machine.heap, rfl, rfl⟩

/-! ## Ways to make runs -/

private theorem bindAt {run : Run α} {next : α → Run β} (h : run.KeepsToAt writes kind machine)
    (hn : ∀ a later, run machine = (.ok a, later) → later.HostsAre kind → (next a).KeepsToAt writes kind later) :
    (Run.bind run next).KeepsToAt writes kind machine := by
  rintro last (hp | ⟨a, later, hr, hp⟩)
  · exact h last hp
  · have hend := h _ (run.passes_end machine)
    rw [show (run.apply machine).2 = later by rw [hr]] at hend
    obtain ⟨hlast, hs⟩ := hn a later hr hend.1 last hp
    exact ⟨hlast, hend.2.trans hs⟩

private theorem bind {run : Run α} {next : α → Run β} (h : run.KeepsTo writes kind)
    (hn : ∀ a, (next a).KeepsTo writes kind) :
    (Run.bind run next).KeepsTo writes kind :=
  fun machine hm => bindAt (h machine hm) fun a later _ hl => hn a later hl

private theorem attempt {run : Run α} (h : run.KeepsTo writes kind) : (Run.attempt run).KeepsTo writes kind := h

/-- A run that enters and leaves something, without a host object or a loader of its own. -/
theorem bracket {keep : Machine → σ} {enter : Machine → Machine} {leave : σ → Machine → Machine} {run : Run α}
    (he : ∀ machine : Machine, (enter machine).heap.hosts = machine.heap.hosts ∧
      (enter machine).loaders = machine.loaders ∧ (enter machine).sites = machine.sites)
    (hl : ∀ kept, ∀ machine : Machine, (leave kept machine).heap.hosts = machine.heap.hosts ∧
      (leave kept machine).loaders = machine.loaders ∧ (leave kept machine).sites = machine.sites)
    (h : run.KeepsTo writes kind) : (Run.bracket keep enter leave run).KeepsTo writes kind := by
  intro machine hm later hp
  have hentered : Machine.SameSetting writes machine (enter machine) := ⟨(he machine).2.1, fun _ => (he machine).2.2⟩
  have hrun := h (enter machine) (hm.of_hosts (he machine).1)
  rcases hp with rfl | hp | rfl
  · exact ⟨hm, .refl _⟩
  · obtain ⟨hlater, hs⟩ := hrun later hp
    exact ⟨hlater, hentered.trans hs⟩
  · obtain ⟨hlast, hs⟩ := hrun _ (run.passes_end _)
    exact ⟨hlast.of_hosts (hl _ _).1, (hentered.trans hs).trans ⟨(hl _ _).2.1, fun _ => (hl _ _).2.2⟩⟩

private theorem newHost {host : Host} (h : kind host) : (Run.newHost host).KeepsTo writes kind := by
  have hmake : (Run.make fun heap => heap.newHost host).KeepsTo writes kind :=
    .of_step (fun _ _ h => h) fun machine hm => ⟨hm.of_push h rfl, rfl, fun _ => rfl⟩
  unfold Run.newHost
  exact .bind hmake fun id => .of_hosts (fun _ _ => .inl) fun _ => ⟨rfl, rfl, rfl⟩

section

variable {loads : LoaderId → Prop} (hkind : Host.IsKind writes loads kind)

include hkind

/-- What runs no script makes views and native functions only. -/
theorem of_plain {run : Run α} (h : run.Plain writes) : run.KeepsTo writes kind := by
  induction h with
  | pure a => exact .of_hosts (fun _ _ => .inl) fun _ => ⟨rfl, rfl, rfl⟩
  | fail failure => exact .of_hosts (fun _ _ => .inl) fun _ => ⟨rfl, rfl, rfl⟩
  | bind _ _ ih ihn => exact .bind ih ihn
  | @update _ f h =>
    refine .of_step (fun _ _ h => h) fun machine hm => ?_
    change (f machine).2.HostsAre kind ∧ Machine.SameSetting writes machine (f machine).2
    refine ⟨?_, by rw [(h machine).elsewhere], fun _ => by rw [(h machine).elsewhere]⟩
    rcases (h machine).heap.hosts with hh | ⟨host, hpassive, hh⟩
    · exact hm.of_hosts hh
    · exact hm.of_push (hkind.passive host hpassive) hh
  | note _ => exact .of_hosts (fun _ _ h => h) fun _ => ⟨rfl, rfl, rfl⟩
  | changeSite id f hw =>
    exact .of_step (fun _ _ h => h) fun machine hm =>
      ⟨hm.of_hosts rfl, rfl, fun hn => absurd (hw.symm.trans hn) Bool.noConfusion⟩
  | assignExports cache id exports =>
    refine .of_hosts (fun _ _ h => h) fun machine => ?_
    unfold Run.assignExports Run.update
    dsimp only
    split <;> exact ⟨rfl, rfl, rfl⟩

/-- Loads keep to what programs keep to. -/
theorem closed : Closed writes loads fun run _ => run.KeepsTo writes kind where
  plain := .of_plain hkind
  note _ := .of_hosts (fun _ _ h => h) fun _ => ⟨rfl, rfl, rfl⟩
  exhausted := .of_hosts (fun _ _ => .inl) fun _ => ⟨rfl, rfl, rfl⟩
  bind := .bind
  attempt := .attempt
  change h := .of_hosts (fun _ _ h => h) fun machine =>
    ⟨(h machine).hosts, by rw [Run.update, (h machine).elsewhere], by rw [Run.update, (h machine).elsewhere]⟩
  newRequire dir parent hl := .newHost ((hkind.require _ dir parent).2 hl)

/-! ## Rules -/

/-- What is called is of the kind too, so that a native function changes no files and a load function is of one of
the loaders. -/
theorem callHost {next : Steps} (id : HostId) (args : List Value)
    (hf : ∀ definition closure, (next.callFunction definition closure args).KeepsTo writes kind)
    (hp : ∀ body bindings, (next.runProgram body bindings).KeepsTo writes kind) :
    (next.callHost id args).KeepsTo writes kind := by
  intro machine hm
  have hhost := hm id
  unfold Steps.callHost
  refine bindAt (read _ machine hm) fun heap later hr hl => ?_
  obtain ⟨hheap, rfl⟩ := Prod.mk.inj hr
  obtain rfl := Outcome.ok.inj hheap
  cases hcalled : machine.heap.host id with
  | native name action =>
    have hplain : (Run.native action args).Plain writes := by
      cases writes with
      | true => exact (Plain.native action args).widen
      | false =>
        have hnative := Plain.native action args
        rwa [hkind.native name action (hcalled ▸ hhost) rfl] at hnative
    exact of_plain hkind hplain machine hm
  | embedded name respond => exact of_plain hkind (.reply _) machine hm
  | function definition closure properties => exact hf definition closure machine hm
  | require loader dir parent =>
    have hloads : loads loader := (hkind.require loader dir parent).1 (hcalled ▸ hhost)
    exact @Closed.refusing _ _ _ (closed hkind) _ .none (fun body _ => hp body) loader hloads dir parent args machine hm
  | module cache record => exact of_plain hkind (.fail _) machine hm
  | cacheView cache => exact of_plain hkind (.fail _) machine hm

/-- Whatever the rules make keeps to the kind. -/
theorem kept : Kept writes loads fun run _ => run.KeepsTo writes kind where
  toClosed := closed hkind
  spent := (closed hkind).exhausted
  scopes h := .of_hosts (fun _ _ h => h) fun machine => by
    rw [Run.update, h machine]
    exact ⟨rfl, rfl, rfl⟩
  newFunction definition := by
    unfold Run.newFunction
    exact .bind (.make fun _ => rfl) fun properties => .bind (.read _) fun environment =>
      .newHost (hkind.function _ _ _)
  within environment := .bracket (fun _ => ⟨rfl, rfl, rfl⟩) fun _ _ => ⟨rfl, rfl, rfl⟩
  inBlock := .bracket (fun _ => ⟨rfl, rfl, rfl⟩) fun _ _ => ⟨rfl, rfl, rfl⟩
  inCall h := by
    unfold Steps.inCall
    refine .bind (.read _) fun depth => ?_
    split
    · exact .of_plain hkind (.throwNamed _ _)
    · exact .bracket (fun _ => ⟨rfl, rfl, rfl⟩) (fun _ _ => ⟨rfl, rfl, rfl⟩) h
  callHost := .callHost hkind

end

/-! ## Requests -/

/-- Requests that keep to the loaders keep all host objects of this kind. -/
theorem serve {loads : LoaderId → Prop} (hkind : Host.IsKind true loads kind) (fuel : Nat) {request : Request}
    (hr : request.Keeps loads) : (Run.serve fuel request).KeepsTo true kind := by
  have hkept := kept hkind
  cases request with
  | require loader specifier dir parent => exact hkept.steps_require fuel hr specifier dir parent
  | runMain loader path => exact hr.elim
  | snippet loader source dir =>
    exact @Closed.runSnippet _ _ _ hkept.toClosed (steps fuel) (steps (fuel + 1))
      (fun body _ => hkept.steps_runProgram fuel body) loader hr source dir
  | program body bindings => exact hkept.steps_runProgram fuel body bindings
  | call id args => exact hkept.alike (n := 0) (Steps.alike_callHost (steps_alike fuel) id args)
  | edit site change => exact .of_plain hkind (.bind (.changeSite _ _ rfl) fun _ => .pure _)

end KeepsTo
end Run
end ScriptModules
