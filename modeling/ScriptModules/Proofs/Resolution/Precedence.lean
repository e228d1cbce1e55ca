import ScriptModules.Module.Resolution

/-!
# The order of resolution

A specifier stands for one flat list of paths, and names the first of them that is a file
(`Scene.resolve_eq_firstFile`).  For a directory the list holds what its descriptor names, if that can be read,
before its index file; for a package it goes through the search paths, one after the other.
-/

namespace ScriptModules

/-- A descriptor never names the empty text. -/
theorem Json.ne_empty_of_descriptorMain? {text main : String} (h : descriptorMain? text = .ok (some main)) :
    main ≠ "" := by
  unfold descriptorMain? at h
  cases hr : Reader.descriptorMain.runAll text with
  | error fault =>
    rw [hr] at h
    contradiction
  | ok document? =>
    rw [hr] at h
    simp only [Except.map, Except.ok.injEq] at h
    split at h
    · split at h
      · contradiction
      · next hne =>
        obtain rfl := Option.some.inj h
        exact hne
    · contradiction

namespace Scene

variable (scene : Scene)

/-! ## The list -/

/-- The main file that the descriptor of a directory names.  One that cannot be read, or is malformed, or names
no file, is passed over. -/
def mainNamed? (dir : Path) : Option String :=
  let descriptor := dir.join ⟨scene.config.descriptor⟩
  if scene.site.isFile descriptor then
    match scene.site.readText descriptor with
    | .ok text => (Json.descriptorMain? text).toOption.join
    | .error _ => none
  else none

/-- The paths that are tried for a directory. -/
def directoryCandidates (dir : Path) : List Path :=
  if scene.site.isDirectory dir then
    (match scene.mainNamed? dir with
      | some main =>
        scene.fileCandidates (Path.resolveFrom dir ⟨main⟩) ++
          scene.fileCandidates ((Path.resolveFrom dir ⟨main⟩).join ⟨"index"⟩)
      | none => [])
    ++ scene.fileCandidates (dir.join ⟨"index"⟩)
  else []

/-- The paths that are tried for a path, first as a file and then as a directory. -/
def placeCandidates (path : Path) : List Path :=
  scene.fileCandidates path ++ scene.directoryCandidates path

/-- The paths that are tried for a specifier that is used in a directory. -/
def candidates (specifier : String) (base : Path) : List Path :=
  if Path.isPathSpecifier specifier then scene.placeCandidates (Path.resolveFrom base ⟨specifier⟩)
  else (searchPaths scene.config scene.site base).flatMap fun dir =>
    scene.placeCandidates (Path.resolveFrom dir ⟨specifier⟩)

/-! ## The search -/

variable {scene} (noted : List Failure)

/-- When a descriptor names a main file. -/
theorem mainNamed?_eq_some_iff {dir : Path} {main : String} : scene.mainNamed? dir = some main ↔
    scene.site.isFile (dir.join ⟨scene.config.descriptor⟩) = true ∧
      ∃ text, scene.site.readText (dir.join ⟨scene.config.descriptor⟩) = .ok text ∧
        Json.descriptorMain? text = .ok (some main) := by
  unfold mainNamed?
  by_cases hf : scene.site.isFile (dir.join ⟨scene.config.descriptor⟩)
  · cases hr : scene.site.readText (dir.join ⟨scene.config.descriptor⟩) with
    | error failure => simp [hf, hr]
    | ok text =>
      cases hm : Json.descriptorMain? text with
      | error fault => simp [hf, hr, hm, Except.toOption]
      | ok main? => simp [hf, hr, hm, Except.toOption]
  · simp [hf]

private theorem run_bind {α β : Type} (s : Search α) (next : α → Search β) :
    ((s >>= next).run noted).1 = ((next (s.run noted).1).run (s.run noted).2).1 := rfl

/-- The main file of a directory is the first of its paths that is a file. -/
theorem asDirectory?_eq (dir : Path) :
    ((scene.asDirectory? dir).run noted).1 = (scene.directoryCandidates dir).find? scene.site.isFile := by
  unfold asDirectory? directoryCandidates mainNamed? mainOf
  by_cases hd : scene.site.isDirectory dir
  · by_cases hf : scene.site.isFile (dir.join ⟨scene.config.descriptor⟩)
    · cases hr : scene.site.readText (dir.join ⟨scene.config.descriptor⟩) with
      | error failure =>
        simp only [hd, hf, hr, asFile?]
        rfl
      | ok text =>
        cases hm : Json.descriptorMain? text with
        | error fault =>
          simp only [hd, hf, hr, hm, asFile?]
          rfl
        | ok main? =>
          cases main? with
          | none =>
            simp only [hd, hf, hr, hm, asFile?]
            rfl
          | some main =>
            simp only [hd, hf, hr, hm, asFile?, Except.toOption, Option.join_some, if_true, List.find?_append,
              Option.or_assoc]
            exact Option.orElse_eq_or.trans (congrArg _ Option.orElse_eq_or)
    · simp only [hd, hf, asFile?]
      rfl
  · simp only [hd]
    rfl

/-- A path leads to the first of its paths that is a file. -/
theorem candidate?_eq (path : Path) :
    ((scene.candidate? path).run noted).1 =
      ((scene.placeCandidates path).find? scene.site.isFile).map scene.identity := by
  unfold candidate? placeCandidates asFile?
  rw [List.find?_append]
  cases (scene.fileCandidates path).find? scene.site.isFile with
  | some hit => rfl
  | none =>
    rw [Option.none_or, ← asDirectory?_eq noted path]
    rfl

/-- Some paths lead to the first of all their paths that is a file. -/
theorem firstCandidate?_eq (paths : List Path) :
    ((scene.firstCandidate? paths).run noted).1 =
      ((paths.flatMap scene.placeCandidates).find? scene.site.isFile).map scene.identity := by
  induction paths generalizing noted with
  | nil => rfl
  | cons path paths ih =>
    rw [List.flatMap_cons, List.find?_append, firstCandidate?, run_bind, candidate?_eq]
    cases (scene.placeCandidates path).find? scene.site.isFile with
    | some hit => rfl
    | none => exact ih _

/-! ## What a specifier names -/

variable {specifier : String} {dir : Path}

/-- What a specifier that names no builtin module leads to. -/
theorem resolve_eq_find? (dir : Path) (hs : specifier ≠ "") (hb : scene.builtinName? specifier = none) :
    ((scene.resolve specifier dir).run noted).1 =
      match (scene.candidates specifier (dir.absolutize scene.site.workingDirectory)).find? scene.site.isFile with
      | some hit => .ok (.file (scene.identity hit))
      | none => .error (.notFound specifier (dir.absolutize scene.site.workingDirectory)) := by
  unfold resolve candidates
  simp only [hs, hb, if_false]
  by_cases hp : Path.isPathSpecifier specifier
  · simp only [hp, if_true]
    rw [run_bind, candidate?_eq]
    cases (scene.placeCandidates _).find? scene.site.isFile <;> rfl
  · simp only [hp]
    rw [if_neg Bool.false_ne_true, if_neg Bool.false_ne_true, run_bind, firstCandidate?_eq, List.flatMap_map]
    cases (List.flatMap _ _).find? scene.site.isFile <;> rfl

/-- A specifier that names no builtin module names the first of its paths that is a file, and none only where none
of them is a file.  What it names is the normal form of that path, with links followed unless they are kept.  For a
path the package directories, the search paths and the environment do not count.  What a descriptor names is not
empty, and one that names nothing counts for nothing. -/
theorem resolve_eq_firstFile (hs : specifier ≠ "") (hb : scene.builtinName? specifier = none) :
    let base := dir.absolutize scene.site.workingDirectory
    (((scene.resolve specifier dir).run noted).1 =
        match (scene.candidates specifier base).find? scene.site.isFile with
        | some hit => .ok (.file (scene.identity hit))
        | none => .error (.notFound specifier base)) ∧
      (∀ path, scene.identity path =
        if scene.config.preserveSymlinks then path.normalize
        else (scene.site.realPath? path.normalize).getD path.normalize) ∧
      (((scene.resolve specifier dir).run noted).1 = .error (.notFound specifier base) ↔
        ∀ path ∈ scene.candidates specifier base, scene.site.isFile path = false) ∧
      (Path.isPathSpecifier specifier = true →
        ∀ packageRoot pathVariable maxSearchDepth extraPaths variableValue?,
          resolve { scene with
            config := { scene.config with packageRoot, pathVariable, maxSearchDepth, extraPaths }
            site := { scene.site with variableValue? } } specifier dir = scene.resolve specifier dir) ∧
      (∀ d main, scene.mainNamed? d = some main → main ≠ "") ∧
      ∀ d, (∀ text main, scene.site.readText (d.join ⟨scene.config.descriptor⟩) = .ok text →
          Json.descriptorMain? text ≠ .ok (some main)) →
        scene.directoryCandidates d =
          if scene.site.isDirectory d then scene.fileCandidates (d.join ⟨"index"⟩) else [] := by
  have hrun := resolve_eq_find? noted dir hs hb
  refine ⟨hrun, scene.identity_eq, ?_, ?_, ?_, ?_⟩
  · rw [hrun]
    cases hf : (scene.candidates specifier (dir.absolutize scene.site.workingDirectory)).find?
        scene.site.isFile with
    | some hit =>
      have hm := List.mem_of_find?_eq_some hf
      have hh := List.find?_some hf
      simp only [reduceCtorEq, false_iff]
      intro h
      rw [h hit hm] at hh
      contradiction
    | none => simpa using hf
  · intro hp packageRoot pathVariable maxSearchDepth extraPaths variableValue?
    simp only [resolve, hp, if_true]
    rfl
  · intro d main hm
    obtain ⟨_, text, _, hm⟩ := mainNamed?_eq_some_iff.1 hm
    exact Json.ne_empty_of_descriptorMain? hm
  · intro d hd
    have hmain : scene.mainNamed? d = none := by
      refine Option.eq_none_iff_forall_ne_some.2 fun main hm => ?_
      obtain ⟨_, text, hr, hm⟩ := mainNamed?_eq_some_iff.1 hm
      exact hd text main hr hm
    simp only [directoryCandidates, hmain, List.nil_append]

/-- A package in a directory above, whose descriptor names a directory, beside one nearby that has nothing to
load. -/
def packaged : Scene where
  config := .standard
  site := Site.ofFiles [("/a/node_modules/p/package.json", "\x7b\"main\": \"lib\"\x7d"),
    ("/a/node_modules/p/lib/index.json", ""), ("/a/node_modules/p/index.js", ""),
    ("/a/b/node_modules/p/package.json", "\x7b\"main\": 1\x7d")]
  builtins := []

/-- The package is found, and its main file before its index file. -/
theorem resolve_packaged : ((packaged.resolve "p" ⟨"/a/b"⟩).run []).1 =
    .ok (.file ⟨"/a/node_modules/p/lib/index.json"⟩) := by
  have hfile : (packaged.candidates "p" ⟨"/a/b"⟩).find? packaged.site.isFile =
      some ⟨"/a/node_modules/p/lib/index.json"⟩ := by
    decide +kernel
  have h := (@resolve_eq_firstFile packaged [] "p" ⟨"/a/b"⟩ (by decide) rfl).1
  have hbase : Path.absolutize ⟨"/a/b"⟩ packaged.site.workingDirectory = ⟨"/a/b"⟩ := by decide +kernel
  have hidentity : packaged.identity ⟨"/a/node_modules/p/lib/index.json"⟩ = ⟨"/a/node_modules/p/lib/index.json"⟩ := by
    decide +kernel
  rw [hbase, hfile] at h
  exact h.trans (congrArg (fun id => Except.ok (Target.file id)) hidentity)

end Scene
end ScriptModules
