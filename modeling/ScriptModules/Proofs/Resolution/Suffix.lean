import ScriptModules.Machine.Loading
import ScriptModules.Proofs.Path.Names
import ScriptModules.Proofs.Resolution.Identity
import ScriptModules.Proofs.Runs.Outcome

/-!
# Suffixes of resolution and suffixes of handlers

Resolution appends suffixes to paths (`Scene.starts`), and the handler of a file is that of the extension of its
name.  The two agree on the suffixes that hold no other dot and no separator (`Scene.dispatches_iff_of_resolve`).
-/

namespace ScriptModules

open ScriptModules.Path

/-- A suffix that resolution can work with is more than a dot. -/
theorem Config.one_lt_length_of_validate {config : Config} {suffix : String} (hv : config.validate = .ok ())
    (hs : suffix ∈ config.extensions) : 1 < suffix.toList.length := by
  have hall : config.extensions.find? (fun e => !isExtension e) = none := by
    unfold validate at hv
    split at hv
    · cases hv
    · split at hv
      · cases hv
      · split at hv
        · cases hv
        · split at hv
          · cases hv
          · assumption
  have hext : isExtension suffix = true := by simpa using List.find?_eq_none.1 hall suffix hs
  unfold isExtension at hext
  split at hext
  · next heq =>
    rw [heq]
    simp
  · cases hext

namespace Scene

variable (scene : Scene)

/-! ## What suffixes are appended to -/

/-- The paths that suffixes are appended to for a directory. -/
def directoryStarts (dir : Path) : List Path :=
  if scene.site.isDirectory dir then
    ((scene.mainNamed? dir).elim [] fun main =>
      [resolveFrom dir ⟨main⟩, (resolveFrom dir ⟨main⟩).join ⟨"index"⟩]) ++ [dir.join ⟨"index"⟩]
  else []

/-- The paths that suffixes are appended to for a specifier that is used in a directory. -/
def starts (specifier : String) (base : Path) : List Path :=
  if isPathSpecifier specifier then
    resolveFrom base ⟨specifier⟩ :: scene.directoryStarts (resolveFrom base ⟨specifier⟩)
  else (searchPaths scene.config scene.site base).flatMap fun dir =>
    resolveFrom dir ⟨specifier⟩ :: scene.directoryStarts (resolveFrom dir ⟨specifier⟩)

/-- The paths that are tried for a specifier are these, without and with the suffixes. -/
theorem candidates_eq (specifier : String) (base : Path) :
    scene.candidates specifier base = (scene.starts specifier base).flatMap scene.fileCandidates := by
  have hdirectory (dir : Path) :
      scene.directoryCandidates dir = (scene.directoryStarts dir).flatMap scene.fileCandidates := by
    unfold directoryCandidates directoryStarts
    split
    · cases scene.mainNamed? dir <;> simp
    · rfl
  unfold candidates starts placeCandidates
  simp only [hdirectory]
  split
  · rw [List.flatMap_cons]
  · rw [List.flatMap_assoc]
    simp only [List.flatMap_cons]

variable {scene} {specifier : String} {dir base path id : Path} {suffix : String}

private theorem text_join_index_ne_empty (dir : Path) : (dir.join ⟨"index"⟩).text ≠ "" := by
  unfold join
  split
  · decide
  · split
    · decide
    · split <;>
      · intro he
        have hnil := congrArg String.toList he
        rw [String.toList_append] at hnil
        exact absurd (List.append_eq_nil_iff.1 hnil).2 (by decide)

private theorem ne_empty_of_mem_directoryStarts (h : path ∈ scene.directoryStarts dir) : path.text ≠ "" := by
  unfold directoryStarts at h
  split at h
  · cases hm : scene.mainNamed? dir with
    | none =>
      rw [hm] at h
      exact List.mem_singleton.1 h ▸ text_join_index_ne_empty dir
    | some main =>
      rw [hm] at h
      simp only [Option.elim_some, List.cons_append, List.nil_append, List.mem_cons, List.not_mem_nil, or_false] at h
      rcases h with rfl | rfl | rfl
      · exact text_normalize_ne_empty _
      · exact text_join_index_ne_empty _
      · exact text_join_index_ne_empty _
  · cases h

/-- No suffix is appended to the empty path. -/
theorem ne_empty_of_mem_starts (h : path ∈ scene.starts specifier base) : path.text ≠ "" := by
  have hplace {start : Path} (hstart : start.text ≠ "") (hp : path ∈ start :: scene.directoryStarts start) :
      path.text ≠ "" := by
    rcases List.mem_cons.1 hp with rfl | hp
    · exact hstart
    · exact ne_empty_of_mem_directoryStarts hp
  unfold starts at h
  split at h
  · exact hplace (text_normalize_ne_empty _) h
  · obtain ⟨search, _, hp⟩ := List.mem_flatMap.1 h
    exact hplace (text_normalize_ne_empty _) hp

/-! ## Agreement with handlers -/

/-- The specifier leads to a file that is a path with a suffix appended to it, and that is the first file among all
that is tried: those paths, without and with the suffixes. -/
structure Appends (scene : Scene) (specifier : String) (dir path : Path) (suffix : String) : Prop where
  start : path ∈ scene.starts specifier (dir.absolutize scene.site.workingDirectory)
  listed : suffix ∈ scene.config.extensions
  first : ((scene.starts specifier (dir.absolutize scene.site.workingDirectory)).flatMap
    scene.fileCandidates).find? scene.site.isFile = some (withSuffix path suffix)

/-- What a specifier leads to by a suffix. -/
theorem Appends.resolve_eq {noted : List Failure} (h : scene.Appends specifier dir path suffix)
    (hr : ((scene.resolve specifier dir).run noted).1 = .ok (.file id)) : id = scene.identity (withSuffix path suffix) := by
  by_cases hs : specifier = ""
  · rw [resolve, if_pos hs] at hr
    cases hr
  cases hb : scene.builtinName? specifier with
  | some name =>
    rw [resolve, if_neg hs, hb] at hr
    cases hr
  | none =>
    rw [resolve_eq_find? noted dir hs hb, candidates_eq, h.first] at hr
    exact (Target.file.inj (Except.ok.inj hr)).symm

/-- Let a specifier lead to a file without links by a suffix that is appended to a path that does not end in a
separator, and let the suffix have a handler.  The extension of the file is that suffix exactly if no other dot and no
separator is in it, and then the file is handled by that handler. -/
theorem dispatches_iff_of_resolve {registry : Registry} {handler : Handler} {noted : List Failure}
    (hv : scene.config.validate = .ok ()) (hh : registry.handlers.lookup suffix = some handler)
    (ha : scene.Appends specifier dir path suffix) (hp : path.text.toList.getLast? ≠ some separator)
    (hl : scene.identity (withSuffix path suffix) = (withSuffix path suffix).normalize)
    (hr : ((scene.resolve specifier dir).run noted).1 = .ok (.file id)) :
    (id.extension? = some suffix ↔ isPlainSuffix suffix = true) ∧
      (isPlainSuffix suffix = true → registry.handlerFor id = handler ∧
        ∀ (next : Steps) (loaderId : LoaderId) (loader : Loader) (record : Record) (machine : Machine),
          machine.registry loader.registry = registry → record.id = id →
            next.handleFile loaderId loader record machine =
              ((registry.settle (registry.handlers.length + 1) handler).elim Run.exhausted
                (next.handle loaderId loader record)) machine) := by
  have hid : id = (withSuffix path suffix).normalize := (ha.resolve_eq hr).trans hl
  have hext : id.extension? = some suffix ↔ isPlainSuffix suffix = true := by
    rw [hid, withSuffix]
    exact extension?_normalize_append (ne_empty_of_mem_starts ha.start) hp
      (Config.one_lt_length_of_validate hv ha.listed)
  refine ⟨hext, fun hplain => ?_⟩
  have hhandler : registry.handlerFor id = handler := by
    have hbind : (id.extension?.bind fun suffix => registry.handlers.lookup suffix) = some handler := by
      rw [hext.2 hplain]
      exact hh
    unfold Registry.handlerFor
    rw [hbind]
  refine ⟨hhandler, fun next loaderId loader record machine hregistry hrecord => ?_⟩
  have hread : Run.registry loader.registry machine = (.ok registry, machine) := by
    rw [← hregistry]
    rfl
  unfold Steps.handleFile
  refine (Run.bind_ok hread).trans ?_
  rw [hrecord, hhandler]
  cases registry.settle (registry.handlers.length + 1) handler <;> rfl

/-- A scene with one file, which is found by this suffix. -/
def suffixed (suffix : String) : Scene where
  config := { Config.standard with extensions := [suffix] }
  site := Site.ofFiles [("/a/lib.min" ++ suffix, "")]
  builtins := []

private theorem suffixed_appends {suffix : String} (h : suffix ∈ [".txt", ".d.js"]) :
    (suffixed suffix).Appends "./lib.min" ⟨"/a"⟩ ⟨"/a/lib.min"⟩ suffix ∧
      (suffixed suffix).identity (withSuffix ⟨"/a/lib.min"⟩ suffix) = (withSuffix ⟨"/a/lib.min"⟩ suffix).normalize ∧
      (((suffixed suffix).resolve "./lib.min" ⟨"/a"⟩).run []).1 =
        .ok (.file ((suffixed suffix).identity (withSuffix ⟨"/a/lib.min"⟩ suffix))) := by
  have hfirst : (((suffixed suffix).starts "./lib.min" (Path.absolutize ⟨"/a"⟩
      (suffixed suffix).site.workingDirectory)).flatMap (suffixed suffix).fileCandidates).find?
        (suffixed suffix).site.isFile = some (withSuffix ⟨"/a/lib.min"⟩ suffix) := by
    revert suffix
    decide +kernel
  refine ⟨⟨?_, List.mem_singleton.2 rfl, hfirst⟩, ?_, ?_⟩
  · clear hfirst
    revert suffix
    decide +kernel
  · clear hfirst
    revert suffix
    decide +kernel
  · rw [resolve_eq_find? [] _ (by decide) rfl, candidates_eq, hfirst]

/-- The dots of a name before its suffix do not count. -/
theorem dispatches_suffixed :
    ∃ id, (((suffixed ".txt").resolve "./lib.min" ⟨"/a"⟩).run []).1 = .ok (.file id) ∧
      (Registry.standard.register ".txt" .verbatim).handlerFor id = .verbatim := by
  obtain ⟨happends, hlinks, hresolve⟩ := @suffixed_appends ".txt" (by decide)
  have hlookup : (Registry.standard.register ".txt" .verbatim).handlers.lookup ".txt" = some .verbatim := by decide
  have hagrees := dispatches_iff_of_resolve rfl hlookup happends (by decide) hlinks hresolve
  exact ⟨_, hresolve, (hagrees.2 (by decide)).1⟩

/-- A suffix with two dots is never found by its handler. -/
theorem not_all_dispatched :
    ¬∀ (scene : Scene) (registry : Registry) (suffix : String) (handler : Handler) (specifier : String)
      (dir path id : Path), scene.config.validate = .ok () → registry.handlers.lookup suffix = some handler →
      scene.Appends specifier dir path suffix → path.text.toList.getLast? ≠ some separator →
      scene.identity (withSuffix path suffix) = (withSuffix path suffix).normalize →
      ((scene.resolve specifier dir).run []).1 = .ok (.file id) → registry.handlerFor id = handler := by
  intro h
  obtain ⟨happends, hlinks, hresolve⟩ := @suffixed_appends ".d.js" (by decide)
  have hlookup : (Registry.standard.register ".d.js" .verbatim).handlers.lookup ".d.js" = some .verbatim := by decide
  have hclaim := h _ _ _ _ _ _ _ _ rfl hlookup happends (by decide) hlinks hresolve
  have hsource : (Registry.standard.register ".d.js" .verbatim).handlerFor
      (withSuffix ⟨"/a/lib.min"⟩ ".d.js").normalize = .source := by
    decide +kernel
  rw [hlinks, hsource] at hclaim
  cases hclaim

end Scene
end ScriptModules
