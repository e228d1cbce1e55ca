import ScriptModules.Config.Basic
import ScriptModules.Files.Site

/-!
# Search paths

The directories in which a package is looked for: beside the directories on the way to the root, nearest
first, then those that the environment names, then those of the configuration.
-/

namespace ScriptModules

/-- At most `limit` directories on the way from a directory to the root, nearest first.  The way ends where it comes
to a directory that was passed before, that has none above it, or that is the one above itself. -/
def ancestorsPast (passed : List Path) : Nat → Path → List Path
  | 0, _ => []
  | limit + 1, dir =>
    if passed.any dir.same then []
    else dir :: match dir.parent? with
      | none => []
      | some parent => if parent.same dir then [] else ancestorsPast (dir :: passed) limit parent

/-- The first `limit` directories on the way from a directory to the root, nearest first. -/
def ancestors (limit : Nat) (dir : Path) : List Path := ancestorsPast [] limit dir

/-- The package directories beside some directories; a package directory has none of its own. -/
def packageDirectories (packageRoot : String) (dirs : List Path) : List Path :=
  (dirs.filter fun dir => !dir.endsWithSegment packageRoot).map (·.join ⟨packageRoot⟩)

/-- The directories that the environment names. -/
def variablePaths (config : Config) (site : SiteView) : List Path :=
  match site.variableValue? config.pathVariable with
  | none => []
  | some list => (Config.listEntries list).map fun entry =>
    (Path.mk entry).absolutize site.workingDirectory

/-- All directories in which a package is looked for from `start`. -/
def searchPaths (config : Config) (site : SiteView) (start : Path) : List Path :=
  packageDirectories config.packageRoot
      (ancestors config.maxSearchDepth (start.absolutize site.workingDirectory))
    ++ variablePaths config site
    ++ config.extraPaths.map fun path => path.absolutize site.workingDirectory

end ScriptModules
