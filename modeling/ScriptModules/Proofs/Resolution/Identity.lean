import ScriptModules.Proofs.Path.Canonical
import ScriptModules.Proofs.Resolution.Precedence

/-!
# Identities

On a site that can be relied on (`SiteView.Faithful`) an identity is the canonical path of a file, and it is its own
identity: as a specifier it names the same module from everywhere (`Scene.resolve_identity`).
-/

namespace ScriptModules

open ScriptModules.Path

/-- What resolution relies on: modules are seen from an absolute directory, no spelling of the root is a file, and
the path of a file without links is a canonical one of a file that has no links. -/
structure SiteView.Faithful (site : SiteView) : Prop where
  workingDirectory : site.workingDirectory.isAbsolute = true
  root : ∀ p, p.normalize = ⟨"/"⟩ → site.isFile p = false
  realPath : ∀ p q, site.isFile p = true → site.realPath? p = some q →
    q.IsCanonical ∧ site.isFile q = true ∧ site.realPath? q = some q

/-! ## Search paths -/

private theorem isAbsolute_of_mem_ancestorsPast {passed : List Path} {limit : Nat} {start dir : Path}
    (h : start.isAbsolute = true) (hd : dir ∈ ancestorsPast passed limit start) : dir.isAbsolute = true := by
  induction limit generalizing passed start with
  | zero => cases hd
  | succ limit ih =>
    rw [ancestorsPast] at hd
    split at hd
    · cases hd
    · rcases List.mem_cons.1 hd with rfl | hd
      · exact h
      · cases hp : start.parent? with
        | none =>
          rw [hp] at hd
          cases hd
        | some parent =>
          simp only [hp] at hd
          split at hd
          · cases hd
          · exact ih (isAbsolute_parent? h hp) hd

private theorem isAbsolute_of_mem_ancestors {limit : Nat} {start dir : Path} (h : start.isAbsolute = true)
    (hd : dir ∈ ancestors limit start) : dir.isAbsolute = true :=
  isAbsolute_of_mem_ancestorsPast h hd

private theorem isAbsolute_of_mem_searchPaths {config : Config} {site : SiteView} {start dir : Path}
    (h : site.workingDirectory.isAbsolute = true) (hd : dir ∈ searchPaths config site start) :
    dir.isAbsolute = true := by
  simp only [searchPaths, List.mem_append] at hd
  rcases hd with (hd | hd) | hd
  · obtain ⟨ancestor, ha, rfl⟩ := List.mem_map.1 hd
    exact isAbsolute_join (isAbsolute_of_mem_ancestors (isCanonical_absolutize start h).absolute
      (List.mem_filter.1 ha).1) _
  · unfold variablePaths at hd
    split at hd
    · cases hd
    · obtain ⟨entry, _, rfl⟩ := List.mem_map.1 hd
      exact (isCanonical_absolutize _ h).absolute
  · obtain ⟨path, _, rfl⟩ := List.mem_map.1 hd
    exact (isCanonical_absolutize _ h).absolute

namespace Scene

variable {scene : Scene} {specifier : String} {dir path id : Path} {noted : List Failure}

/-! ## Candidates -/

private theorem isCanonical_of_mem_fileCandidates
    (hext : ∀ suffix ∈ scene.config.extensions, separator ∉ suffix.toList) {start : Path}
    (h : start.IsCanonical) (hp : path ∈ scene.fileCandidates start) :
    path.IsCanonical ∨ path.normalize = ⟨"/"⟩ := by
  rcases List.mem_cons.1 hp with rfl | hp
  · exact .inl h
  · obtain ⟨suffix, hs, rfl⟩ := List.mem_map.1 hp
    exact h.append (hext suffix hs)

private theorem isName_index : IsName "index" := by
  rw [isName_iff]
  decide

private theorem isCanonical_of_mem_placeCandidates
    (hext : ∀ suffix ∈ scene.config.extensions, separator ∉ suffix.toList) {start : Path}
    (h : start.IsCanonical) (hp : path ∈ scene.placeCandidates start) :
    path.IsCanonical ∨ path.normalize = ⟨"/"⟩ := by
  rcases List.mem_append.1 hp with hp | hp
  · exact isCanonical_of_mem_fileCandidates hext h hp
  · unfold directoryCandidates at hp
    split at hp
    · rcases List.mem_append.1 hp with hp | hp
      · cases hm : scene.mainNamed? start with
        | none =>
          rw [hm] at hp
          cases hp
        | some main =>
          rw [hm] at hp
          have hmain := isCanonical_resolveFrom h.absolute ⟨main⟩
          rcases List.mem_append.1 hp with hp | hp
          · exact isCanonical_of_mem_fileCandidates hext hmain hp
          · exact isCanonical_of_mem_fileCandidates hext (hmain.join isName_index) hp
      · exact isCanonical_of_mem_fileCandidates hext (h.join isName_index) hp
    · cases hp

/-- What is tried for a specifier is canonical, but for spellings of the root. -/
theorem isCanonical_of_mem_candidates (hcwd : scene.site.workingDirectory.isAbsolute = true)
    (hext : ∀ suffix ∈ scene.config.extensions, separator ∉ suffix.toList) {base : Path}
    (hb : base.isAbsolute = true) (hp : path ∈ scene.candidates specifier base) :
    path.IsCanonical ∨ path.normalize = ⟨"/"⟩ := by
  unfold candidates at hp
  split at hp
  · exact isCanonical_of_mem_placeCandidates hext (isCanonical_resolveFrom hb _) hp
  · obtain ⟨search, hs, hp⟩ := List.mem_flatMap.1 hp
    exact isCanonical_of_mem_placeCandidates hext
      (isCanonical_resolveFrom (isAbsolute_of_mem_searchPaths hcwd hs) _) hp

/-! ## Files -/

/-- A specifier that leads to a file is one that a candidate is the identity of. -/
theorem exists_of_resolve (h : ((scene.resolve specifier dir).run noted).1 = .ok (.file id)) :
    ∃ hit ∈ scene.candidates specifier (dir.absolutize scene.site.workingDirectory),
      scene.site.isFile hit = true ∧ scene.identity hit = id := by
  by_cases hs : specifier = ""
  · rw [resolve, if_pos hs] at h
    cases h
  cases hb : scene.builtinName? specifier with
  | some name =>
    rw [resolve, if_neg hs, hb] at h
    cases h
  | none =>
    rw [resolve_eq_find? noted dir hs hb] at h
    cases hf : (scene.candidates specifier (dir.absolutize scene.site.workingDirectory)).find?
        scene.site.isFile with
    | none =>
      rw [hf] at h
      cases h
    | some hit =>
      rw [hf] at h
      obtain rfl := Target.file.inj (Except.ok.inj h)
      exact ⟨hit, List.mem_of_find?_eq_some hf, List.find?_some hf, rfl⟩

/-- The identity of a file is its own. -/
theorem identity_of_file (hsite : scene.site.Faithful) {hit : Path}
    (hc : hit.IsCanonical ∨ hit.normalize = ⟨"/"⟩) (hf : scene.site.isFile hit = true) :
    (scene.identity hit).IsCanonical ∧ scene.site.isFile (scene.identity hit) = true ∧
      scene.identity (scene.identity hit) = scene.identity hit := by
  have hhit : hit.IsCanonical := hc.resolve_right fun hroot => by
    rw [hsite.root hit hroot] at hf
    contradiction
  by_cases hl : scene.config.preserveSymlinks
  · have hid {p : Path} (hp : p.IsCanonical) : scene.identity p = p := by
      rw [identity_eq, if_pos hl, hp.normal]
    rw [hid hhit, hid hhit]
    exact ⟨hhit, hf, rfl⟩
  · have hid {p : Path} (hp : p.IsCanonical) : scene.identity p = (scene.site.realPath? p).getD p := by
      rw [identity_eq, if_neg hl, hp.normal]
    cases hr : scene.site.realPath? hit with
    | none =>
      have hself : scene.identity hit = hit := by
        rw [hid hhit, hr]
        rfl
      rw [hself]
      exact ⟨hhit, hf, hself⟩
    | some real =>
      obtain ⟨hreal, hfile, hfix⟩ := hsite.realPath hit real hf hr
      have himage : scene.identity hit = real := by
        rw [hid hhit, hr]
        rfl
      rw [himage, hid hreal, hfix]
      exact ⟨hreal, hfile, rfl⟩

private theorem builtinName?_of_absolute (h : id.isAbsolute = true)
    (hn : scene.builtins.find? id.text = none) : scene.builtinName? id.text = none := by
  obtain ⟨rest, hrest⟩ := isAbsolute_iff.1 h
  have hlead : builtinLead.isPrefixOf id.text.toList = false := by
    rw [hrest]
    rfl
  unfold builtinName?
  simp only [hlead, Bool.false_eq_true, if_false, hn, Option.isSome_none, ite_self]

/-- A canonical path of a file that is its own identity names itself from everywhere, and nothing has to be noted. -/
theorem resolve_of_identity (hid : id.IsCanonical) (hf : scene.site.isFile id = true)
    (hself : scene.identity id = id) (hn : scene.builtins.find? id.text = none) (dir : Path)
    (noted : List Failure) : (scene.resolve id.text dir).run noted = (.ok (.file id), noted) := by
  obtain ⟨rest, hrest⟩ := isAbsolute_iff.1 hid.absolute
  have hne : id.text ≠ "" := by
    intro he
    rw [he] at hrest
    cases hrest
  have hcandidate : (scene.candidate? id).run noted = (some id, noted) := by
    have hhit : scene.asFile? id = some id := by
      rw [asFile?, fileCandidates, List.find?_cons_of_pos hf]
    unfold candidate?
    rw [hhit]
    exact congrArg (fun found => (some found, noted)) hself
  have hbase : resolveFrom (dir.absolutize scene.site.workingDirectory) ⟨id.text⟩ = id :=
    (resolveFrom_of_absolute _ hid.absolute).trans hid.normal
  unfold resolve
  rw [if_neg hne, builtinName?_of_absolute hid.absolute hn]
  simp only [isPathSpecifier_of_absolute hid.absolute, if_true, hbase, StateT.run_bind, hcandidate]
  rfl

/-- What a specifier leads to is a canonical path of a file, and names itself from everywhere. -/
theorem identity_of_resolve (hsite : scene.site.Faithful)
    (hext : ∀ suffix ∈ scene.config.extensions, separator ∉ suffix.toList)
    (h : ((scene.resolve specifier dir).run noted).1 = .ok (.file id)) :
    id.IsCanonical ∧ scene.site.isFile id = true ∧ scene.identity id = id := by
  obtain ⟨hit, hm, hf, rfl⟩ := exists_of_resolve h
  have hbase := (isCanonical_absolutize dir hsite.workingDirectory).absolute
  exact identity_of_file hsite (isCanonical_of_mem_candidates hsite.workingDirectory hext hbase hm) hf

end Scene
end ScriptModules
