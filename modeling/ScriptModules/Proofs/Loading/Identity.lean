import ScriptModules.Proofs.Files.Memory
import ScriptModules.Proofs.Loading.Requests
import ScriptModules.Proofs.Loading.Require
import ScriptModules.Proofs.Resolution.Identity
import ScriptModules.Proofs.Runs.Properties
import ScriptModules.Proofs.Runs.Resuming

/-!
# One entry for each identity

What a load function resolves a specifier to can be given to a load function again, and to the view of the cache:
all of them mean the same entry of the cache (`Steps.one_entry_of_resolve`).
-/

namespace ScriptModules

/-- A package with a main file. -/
def Site.package : Site := .ofFiles [("/p/package.json", "\x7b\"main\": \"lib\"\x7d"), ("/p/lib.js", "")]

namespace Steps

open Run

variable {machine later : Machine} {loaderId : LoaderId} {specifier : String} {dir id : Path}

private theorem resolve_of_identity (hsite : (machine.scene loaderId).site.Faithful)
    (hext : ∀ suffix ∈ (machine.loader loaderId).config.extensions, Path.separator ∉ suffix.toList)
    (hr : (resolve loaderId specifier dir machine).1 = .ok (.file id))
    (hn : (machine.loader loaderId).builtins.find? id.text = Option.none) (dir' : Path) :
    resolve loaderId id.text dir' machine = (.ok (.file id), machine) := by
  obtain ⟨hid, hf, hself⟩ := Scene.identity_of_resolve hsite hext (resolve_ok_iff.1 hr)
  rw [resolve_eq, Scene.resolve_of_identity hid hf hself hn]
  rfl

private theorem require_of_resolve {target : Machine} (next : Steps) (parent : Option Path)
    (hr : resolve loaderId specifier dir machine = (.ok (.file id), target)) :
    next.require loaderId specifier dir parent machine = next.load loaderId id parent target := by
  unfold Steps.require
  exact bind_ok hr

/-- What a specifier leads to is the canonical path of a file.  Given as a specifier it leads to itself from
everywhere, so requests for both are loads of the same module.  After a request for it the specifier leads there
still, and the view of the cache shows the module there, with what the request gave. -/
theorem one_entry_of_resolve {machine : Machine} {loaderId : LoaderId} {specifier : String} {dir id : Path}
    (hsite : (machine.scene loaderId).site.Faithful)
    (hext : ∀ suffix ∈ (machine.loader loaderId).config.extensions, Path.separator ∉ suffix.toList)
    (hr : (resolve loaderId specifier dir machine).1 = .ok (.file id)) :
    (id.isAbsolute = true ∧ id.normalize = id ∧ (machine.scene loaderId).site.isFile id = true) ∧
    ((machine.loader loaderId).builtins.find? id.text = Option.none →
      ∀ dir', resolve loaderId id.text dir' machine = (.ok (.file id), machine) ∧
        ∀ (next : Steps) parent parent',
          next.require loaderId specifier dir parent machine =
            next.load loaderId id parent (resolve loaderId specifier dir machine).2 ∧
          next.require loaderId id.text dir' parent' machine = next.load loaderId id parent' machine) ∧
    ∀ fuel parent value later, machine.Sound →
      (steps fuel).require loaderId specifier dir parent machine = (.ok value, later) →
      later.sites = machine.sites →
        (native (.resolve loaderId dir) [.string specifier] later).1 = .ok (.string id.text) ∧
        ∀ function d p, later.heap.host function = .require loaderId d p → ∃ view last,
          (do property (← hostProperty function "cache") id.text) later = (.ok (.host view), last) ∧
            last.heap.host view = .module (machine.loader loaderId).cache id ∧
            (property (.host view) "exports" last).1 = .ok value := by
  obtain ⟨hid, hfile, _⟩ := Scene.identity_of_resolve hsite hext (resolve_ok_iff.1 hr)
  have hfirst : resolve loaderId specifier dir machine =
      (.ok (.file id), (resolve loaderId specifier dir machine).2) := Prod.ext hr rfl
  refine ⟨⟨hid.absolute, hid.normal, hfile⟩, fun hn dir' => ?_, ?_⟩
  · have hagain := resolve_of_identity hsite hext hr hn dir'
    exact ⟨hagain, fun next parent parent' =>
      ⟨require_of_resolve next parent hfirst, require_of_resolve next parent' hagain⟩⟩
  · intro fuel parent value later hm h hsites
    have hresumes := resuming_require fuel loaderId specifier dir parent machine
    rw [h] at hresumes
    have hloader : later.loader loaderId = machine.loader loaderId := hresumes.loader loaderId
    constructor
    · have hscene : later.scene loaderId = machine.scene loaderId := by
        rw [Machine.scene, hloader, hsites]
        rfl
      have hlater : (resolve loaderId specifier dir later).1 = .ok (.file id) := by
        rw [resolve_ok_iff, hscene]
        exact resolve_ok_iff.1 hr
      unfold native
      rw [show (bind (specifierArgument [.string specifier]) _ : Run Value) later = _ from bind_ok rfl]
      exact congrArg Prod.fst (bind_ok (Prod.ext hlater rfl))
    · intro function d p hfunction
      obtain ⟨record, hrecord, rfl⟩ := Option.map_eq_some_iff.1 (require_ok (steps_scripted fuel) hm hr h)
      have hcache := hostProperty_cache hfunction
      rw [hloader, newHost_eq] at hcache
      have hcontains : (Cache.contains (later.heap.cache (machine.loader loaderId).cache) id) = true :=
        Option.isSome_iff_exists.2 ⟨record, hrecord⟩
      let viewed : Machine := { later with
        heap := (later.heap.newHost (.cacheView (machine.loader loaderId).cache)).2 }
      have hview : hostProperty (later.heap.newHost (.cacheView (machine.loader loaderId).cache)).1 id.text viewed =
          newHost (.module (machine.loader loaderId).cache id) viewed :=
        hostProperty_cacheView (Heap.host_newHost _ _) hcontains
      rw [newHost_eq] at hview
      let last : Machine := { viewed with
        heap := (viewed.heap.newHost (.module (machine.loader loaderId).cache id)).2 }
      have hlast : (last.heap.cache (machine.loader loaderId).cache).find? id = some record := hrecord
      refine ⟨_, last, (bind_ok hcache).trans hview, Heap.host_newHost _ _, ?_⟩
      exact congrArg Prod.fst (hostProperty_exports (Heap.host_newHost _ _) hlast)

/-- A package is required by its directory.  Its main file is found as what that names, from everywhere and
afterwards. -/
theorem one_entry_of_package :
    (∀ dir, resolve ⟨0⟩ "/p/lib.js" dir (.ofSite .package) = (.ok (.file ⟨"/p/lib.js"⟩), .ofSite .package)) ∧
      ∃ later, (steps 30).require ⟨0⟩ "./p" ⟨"/"⟩ .none (.ofSite .package) = (.ok (.object ⟨2⟩), later) ∧
        (native (.resolve ⟨0⟩ ⟨"/"⟩) [.string "./p"] later).1 = .ok (.string "/p/lib.js") := by
  have hresolve : (resolve ⟨0⟩ "./p" ⟨"/"⟩ (.ofSite .package)).1 = .ok (.file ⟨"/p/lib.js"⟩) := by
    decide +kernel
  have hrun : ((steps 30).require ⟨0⟩ "./p" ⟨"/"⟩ .none (.ofSite .package)).1 = .ok (.object ⟨2⟩) := by
    decide +kernel
  have hsites : ((steps 30).require ⟨0⟩ "./p" ⟨"/"⟩ .none (.ofSite .package)).2.sites =
      (Machine.ofSite .package).sites := by
    decide +kernel
  have hsite : ((Machine.ofSite .package).scene ⟨0⟩).site.Faithful :=
    Site.package.faithful_view rfl (by decide)
  have hbuiltin : ((Machine.ofSite .package).loader ⟨0⟩).builtins.find? "/p/lib.js" = Option.none := by
    decide +kernel
  obtain ⟨_, hself, hlater⟩ := one_entry_of_resolve hsite (by decide) hresolve
  dsimp only at hself
  exact ⟨fun dir => (hself hbuiltin dir).1, _, Prod.ext hrun rfl,
    (hlater 30 .none _ _ (Machine.settled_ofSite _).sound (Prod.ext hrun rfl) hsites).1⟩

end Steps
end ScriptModules
