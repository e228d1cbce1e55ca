import ScriptModules.Proofs.Loading.Load

/-!
# From a specifier to a module

To resolve a specifier changes nothing but what is noted of descriptors that cannot be read.  So a request for a
specifier that leads to a file is a load of that file (`Steps.require_of_file`), and what is known of loads is
known of requests (`Steps.require_of_some`, `Steps.require_ok`, `Steps.require_failed`).
-/

namespace ScriptModules

/-- What resolution looks at from a loader. -/
def Machine.scene (machine : Machine) (id : LoaderId) : Scene where
  config := (machine.loader id).config
  site := (machine.sites[(machine.loader id).site.index]?.getD default).view
  builtins := (machine.loader id).builtins

namespace Run

private theorem forM_warned (noted : List Failure) (machine : Machine) :
    (noted.forM fun failure => note (.warned failure)) machine =
      (.ok (), { machine with events := (noted.map .warned).reverse ++ machine.events }) := by
  induction noted generalizing machine with
  | nil => rfl
  | cons failure noted ih =>
    have hfirst : note (.warned failure) machine =
        (.ok (), { machine with events := .warned failure :: machine.events }) := rfl
    change Run.bind (note (.warned failure)) (fun _ => noted.forM fun failure => note (.warned failure))
      machine = _
    rw [bind_ok hfirst, ih]
    simp

private theorem search_eq {α : Type} (s : Search α) (machine : Machine) :
    search s machine = (.ok (s.run []).1,
      { machine with events := ((s.run []).2.map .warned).reverse ++ machine.events }) := by
  unfold search
  exact bind_ok (forM_warned _ _)

/-- To resolve a specifier is to search for it, and to note which descriptors cannot be read. -/
theorem resolve_eq (loaderId : LoaderId) (specifier : String) (dir : Path) (machine : Machine) :
    resolve loaderId specifier dir machine =
      ofExcept (((machine.scene loaderId).resolve specifier dir).run []).1 { machine with
        events := ((((machine.scene loaderId).resolve specifier dir).run []).2.map .warned).reverse ++
          machine.events } := by
  have hscene : scene loaderId machine = (.ok (machine.scene loaderId), machine) := rfl
  unfold resolve
  exact (bind_ok hscene).trans (bind_ok (search_eq _ machine))

/-- To resolve a specifier changes nothing else. -/
theorem resolve_inv {loaderId : LoaderId} {specifier : String} {dir : Path} {outcome : Outcome Target}
    {machine later : Machine} (h : resolve loaderId specifier dir machine = (outcome, later)) :
    ∃ noted : List Failure,
      later = { machine with events := (noted.map .warned).reverse ++ machine.events } := by
  rw [resolve_eq] at h
  exact ⟨_, (ofExcept_inv h).1⟩

/-- A specifier leads to a target when the search finds it. -/
theorem resolve_ok_iff {loaderId : LoaderId} {specifier : String} {dir : Path} {machine : Machine}
    {target : Target} : (resolve loaderId specifier dir machine).1 = .ok target ↔
      (((machine.scene loaderId).resolve specifier dir).run []).1 = .ok target := by
  rw [resolve_eq]
  cases (((machine.scene loaderId).resolve specifier dir).run []).1 with
  | ok found => simp [ofExcept, Run.pure]
  | error failure => simp [ofExcept, fail]

end Run

namespace Steps

open Run

variable {next : Steps} {machine later : Machine} {loaderId : LoaderId} {specifier : String} {dir id : Path}
  {parent : Option Path}

/-- A request for a specifier that leads to a file is a load of it. -/
theorem require_of_file (next : Steps) (parent : Option Path) (hm : machine.Sound)
    (hr : (resolve loaderId specifier dir machine).1 = .ok (.file id)) :
    ∃ middle : Machine, middle.Sound ∧ middle.graph = machine.graph ∧
      middle.loader loaderId = machine.loader loaderId ∧
      next.require loaderId specifier dir parent machine = next.load loaderId id parent middle := by
  have hfile : resolve loaderId specifier dir machine =
      (.ok (.file id), (resolve loaderId specifier dir machine).2) := by rw [← hr]
  obtain ⟨noted, hnoted⟩ := resolve_inv hfile
  refine ⟨(resolve loaderId specifier dir machine).2, ?_, ?_, ?_, ?_⟩
  · rw [hnoted]
    exact ⟨hm.registries, hm.caches, hm.disciplined⟩
  · rw [hnoted]
    rfl
  · rw [hnoted]
    rfl
  · unfold Steps.require
    exact bind_ok hfile

/-- A request for a specifier that leads to a module in the cache gives what that exports. -/
theorem require_of_some {value : Value} (next : Steps) (parent : Option Path) (hm : machine.Sound)
    (hr : (resolve loaderId specifier dir machine).1 = .ok (.file id))
    (he : machine.graph.exports? ((machine.loader loaderId).cache, id) = some value) :
    (next.require loaderId specifier dir parent machine).1 = .ok value := by
  obtain ⟨middle, _, hg, hl, heq⟩ := require_of_file next parent hm hr
  rw [← hg, ← hl] at he
  obtain ⟨record, hrecord, rfl⟩ := Option.map_eq_some_iff.1 he
  obtain ⟨later, hstep, _, _⟩ := load_of_some next parent hrecord
  rw [heq, hstep.eq]

/-- What a request gives for a specifier that leads to a file is what that module exports then. -/
theorem require_ok {value : Value} (hc : next.Scripted) (hm : machine.Sound)
    (hr : (resolve loaderId specifier dir machine).1 = .ok (.file id))
    (h : next.require loaderId specifier dir parent machine = (.ok value, later)) :
    later.graph.exports? ((machine.loader loaderId).cache, id) = some value := by
  obtain ⟨middle, hmiddle, _, hl, he⟩ := require_of_file next parent hm hr
  rw [he] at h
  rw [← hl]
  exact load_ok hc hmiddle h

/-- A request fails for a specifier that leads to a file when the load of that module begins and then fails. -/
theorem require_failed {failure : Failure} (hc : next.Scripted) (hm : machine.Sound)
    (hr : (resolve loaderId specifier dir machine).1 = .ok (.file id))
    (h : next.require loaderId specifier dir parent machine = (.failed failure, later)) :
    ∃ (exports : Value) (entered middle : Machine), entered.Sound ∧
      machine.graph.Allows (.started (machine.loader loaderId).cache id parent exports) ∧
      entered.graph = machine.graph.after (.started (machine.loader loaderId).cache id parent exports) ∧
      entered.Leads (((machine.loader loaderId).cache, id) :: machine.graph.loading) middle ∧
      middle.Shows (.failed (machine.loader loaderId).cache id failure) later := by
  obtain ⟨start, hstart, hg, hl, he⟩ := require_of_file next parent hm hr
  rw [he] at h
  obtain ⟨exports, entered, middle, hs, hloading, hmiddle, hf⟩ := load_failed hc hstart h
  rw [hl] at hs hloading hf
  have hentered : start.Leads start.loading entered := by
    refine .of_shows hs List.suffix_rfl ?_
    rw [hloading]
    exact List.suffix_cons _ _
  rw [hloading] at hmiddle
  refine ⟨exports, entered, middle, hentered.sound hstart, hg ▸ hs.allows, hg ▸ hs.graph, ?_, hf⟩
  rw [show machine.graph.loading = start.loading by rw [← hg]; rfl]
  exact hmiddle

end Steps
end ScriptModules
