import ScriptModules.Module.SearchPath
import ScriptModules.Proofs.Path.Parent

/-!
# Search paths as a list

The way up from a directory gets shorter with each step, so it comes to no directory twice, and the search for
packages goes up to the root or as far as it may (`ancestors_eq_take_lineage`).  All search paths are the package
directories on that way, then those of the environment, and then those of the configuration
(`searchPaths_eq_append`).
-/

namespace ScriptModules

open ScriptModules.Path

/-! ## The way up -/

/-- The way up never comes to a directory that was passed before, as all of those are deeper. -/
private theorem ancestorsPast_eq_take_lineage {passed : List Path} {dir : Path}
    (h : ∀ other ∈ passed, dir.components.length < other.components.length) (limit : Nat) :
    ancestorsPast passed limit dir = dir.lineage.take limit := by
  induction limit generalizing passed dir with
  | zero => rfl
  | succ limit ih =>
    have hnew : ¬passed.any dir.same = true := by
      intro hany
      obtain ⟨other, ho, hsame⟩ := List.any_eq_true.1 hany
      have hlength := h other ho
      rw [same_iff.1 hsame] at hlength
      exact Nat.lt_irrefl _ hlength
    rw [ancestorsPast, if_neg hnew]
    cases hp : dir.parent? with
    | none => rw [lineage_of_parent?_eq_none hp, List.take_succ_cons, List.take_nil]
    | some parent =>
      have hlength := length_components_of_parent? hp
      have hother : ¬parent.same dir = true := by
        intro hsame
        rw [same_iff.1 hsame] at hlength
        omega
      have hpassed : ∀ other ∈ dir :: passed, parent.components.length < other.components.length := by
        intro other ho
        rcases List.mem_cons.1 ho with rfl | ho
        · omega
        · have hdeeper := h other ho
          omega
      rw [lineage_of_parent? hp, List.take_succ_cons, ← ih hpassed]
      simp only [if_neg hother]

/-- The directories on the way to the root, as many as are asked for. -/
theorem ancestors_eq_take_lineage (limit : Nat) (dir : Path) : ancestors limit dir = dir.lineage.take limit :=
  ancestorsPast_eq_take_lineage (fun _ ho => absurd ho List.not_mem_nil) limit

/-! ## Entries -/

namespace Config

/-- The entries of a list of paths are its pieces without the blanks around them, if anything is left of them. -/
theorem listEntries_eq (list : String) : listEntries list =
    (((Text.split delimiter list.toList).map Text.trim).filter (· ≠ [])).map String.ofList := by
  unfold listEntries
  induction Text.split delimiter list.toList with
  | nil => rfl
  | cons piece pieces ih =>
    rw [List.filterMap_cons, ih, List.map_cons, List.filter_cons]
    cases Text.trim piece with
    | nil => rfl
    | cons c cs => rfl

end Config

/-- The entries of the environment variable, seen from the working directory. -/
theorem variablePaths_eq (config : Config) (site : SiteView) : variablePaths config site =
    (site.variableValue? config.pathVariable).elim [] fun list =>
      (((Text.split delimiter list.toList).map Text.trim).filter (· ≠ [])).map fun entry =>
        (Path.mk (String.ofList entry)).absolutize site.workingDirectory := by
  unfold variablePaths
  cases site.variableValue? config.pathVariable with
  | none => rfl
  | some list =>
    simp only [Config.listEntries_eq, List.map_map, Option.elim_some]
    rfl

/-! ## All search paths -/

/-- The package directories are those beside the directories whose last step has another name. -/
theorem packageDirectories_eq (packageRoot : String) (dirs : List Path) : packageDirectories packageRoot dirs =
    (dirs.filter fun dir => dir.components.getLast? ≠ some (.name packageRoot)).map
      fun dir => dir.join ⟨packageRoot⟩ := by
  have hsegment (dir : Path) : (!dir.endsWithSegment packageRoot) =
      decide (dir.components.getLast? ≠ some (.name packageRoot)) := by
    rw [endsWithSegment, decide_not, Bool.beq_eq_decide_eq]
  simp only [packageDirectories, hsegment]

/-- The search paths are the package directories beside the first directories on the way from the start up to the
root, but for those that are package directories themselves, then the entries of the environment variable, and then
those of the configuration.  No directory comes twice on the way, and so nothing ends it before the root but its
limit. -/
theorem searchPaths_eq_append (config : Config) {site : SiteView} (h : site.workingDirectory.isAbsolute = true)
    (start : Path) : ∃ chain : List Path,
      chain[0]? = some (start.absolutize site.workingDirectory) ∧
      (∀ k, chain[k + 1]? = chain[k]?.bind parent?) ∧
      chain.getLast? = some ⟨"/"⟩ ∧
      chain.Pairwise (fun below above => above.same below = false) ∧
      searchPaths config site start =
        (((chain.take config.maxSearchDepth).filter fun dir =>
            dir.components.getLast? ≠ some (.name config.packageRoot)).map fun dir => dir.join ⟨config.packageRoot⟩) ++
          ((site.variableValue? config.pathVariable).elim [] fun list =>
            (((Text.split delimiter list.toList).map Text.trim).filter (· ≠ [])).map fun entry =>
              (Path.mk (String.ofList entry)).absolutize site.workingDirectory) ++
          config.extraPaths.map fun path => path.absolutize site.workingDirectory := by
  refine ⟨(start.absolutize site.workingDirectory).lineage, getElem?_lineage_zero _, getElem?_lineage_succ _,
    getLast?_lineage (isCanonical_absolutize start h), ?_, ?_⟩
  · refine (pairwise_lineage _).imp fun {below above} hlength => Bool.eq_false_iff.2 fun hsame => ?_
    rw [same_iff.1 hsame] at hlength
    exact Nat.lt_irrefl _ hlength
  · rw [searchPaths, packageDirectories_eq, variablePaths_eq, ancestors_eq_take_lineage]

/-- A site that names two directories in its environment, with blanks around them and nothing between them. -/
def shared : SiteView :=
  { Site.ofFiles [] with
    workingDirectory := ⟨"/work"⟩
    environment := [("NODE_PATH", " /opt/lib :: shared ")] : Site }

/-- The directory of packages on the way up has none beside it, but counts as one of the three. -/
theorem searchPaths_shared : shared.workingDirectory.isAbsolute = true ∧ ∃ chain : List Path,
    chain[0]? = some ⟨"/work/node_modules/p"⟩ ∧ chain[1]? = some ⟨"/work/node_modules"⟩ ∧
      chain[2]? = some ⟨"/work"⟩ ∧ chain[3]? = some ⟨"/"⟩ ∧ chain.getLast? = some ⟨"/"⟩ ∧
      searchPaths { Config.standard with maxSearchDepth := 3, extraPaths := [⟨"extra"⟩] } shared
          ⟨"node_modules/./p"⟩ =
        [⟨"/work/node_modules/p/node_modules"⟩, ⟨"/work/node_modules"⟩, ⟨"/opt/lib"⟩, ⟨"/work/shared"⟩,
          ⟨"/work/extra"⟩] := by
  have hcwd : shared.workingDirectory.isAbsolute = true := by decide
  obtain ⟨chain, hstart, hnext, hroot, _, _⟩ := searchPaths_eq_append
    { Config.standard with maxSearchDepth := 3, extraPaths := [⟨"extra"⟩] } hcwd ⟨"node_modules/./p"⟩
  have hfirst : chain[0]? = some ⟨"/work/node_modules/p"⟩ := hstart.trans (by decide +kernel)
  have hsecond : chain[1]? = some ⟨"/work/node_modules"⟩ := by
    rw [hnext, hfirst]
    decide +kernel
  have hthird : chain[2]? = some ⟨"/work"⟩ := by
    rw [hnext, hsecond]
    decide +kernel
  have hlast : chain[3]? = some ⟨"/"⟩ := by
    rw [hnext, hthird]
    decide +kernel
  exact ⟨hcwd, chain, hfirst, hsecond, hthird, hlast, hroot, by decide +kernel⟩

end ScriptModules
