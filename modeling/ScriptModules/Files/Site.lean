import ScriptModules.Failure
import ScriptModules.Files.Tree

/-!
# Sites

A site is where modules are loaded: its files, its working directory and its environment variables.
Files are kept in memory or on disk, which shows in the words of a refusal and where a path is no
canonical one: only on disk may it be too long, hold a NUL, or end with a separator that tells.

Resolution sees a site through its answers alone (`SiteView`).
-/

namespace ScriptModules

/-- How the files of a site are kept. -/
inductive Keeping where
  | memory
  | disk
  deriving DecidableEq, Repr, Inhabited

/-- The refusal in words. -/
def Files.Fault.message : Keeping → Files.Fault → String
  | _, .notText => "stream did not contain valid UTF-8"
  | .memory, .isDirectory => "is a directory"
  | .memory, .notDirectory => "not a directory"
  | .memory, _ => "no such file or directory"
  | .disk, .missing => "No such file or directory (os error 2)"
  | .disk, .notDirectory => "Not a directory (os error 20)"
  | .disk, .isDirectory => "Is a directory (os error 21)"
  | .disk, .tooManyLinks => "Too many levels of symbolic links (os error 40)"
  | .disk, .tooLong => "File name too long (os error 36)"
  | .disk, .holdsNul => "file name contained an unexpected NUL byte"

structure Site where
  keeping : Keeping
  tree : Files.Tree
  /-- The directory that relative paths are seen from by the modules. -/
  workingDirectory : Path
  /-- The directory that a relative path leads from where it is used as it is, if any. -/
  startDirectory : Option Path
  environment : List (String × String)
  deriving DecidableEq, Inhabited

namespace Site

open Files

/-- The value of an environment variable. -/
def variableValue? (site : Site) (name : String) : Option String := site.environment.lookup name

/-- The steps from the root that a path asks for.  In memory they are its names and `..` only. -/
def route? (site : Site) (path : Path) : Option (List Step) :=
  match site.keeping with
  | .memory =>
    if path.isAbsolute then some ((stepsOf path.text).filter fun step => step ≠ .stay ∧ step ≠ .slash)
    else none
  | .disk =>
    if path.isAbsolute then some (stepsOf path.text)
    else if path.text = "" then none
    else site.startDirectory.map fun start => stepsOf start.text ++ stepsOf path.text

/-- Where the steps of a path lead.  In memory a path that leads nowhere is missing whatever the
reason. -/
def destination (site : Site) (path : Path) (writes : Bool) : Except Fault Tree.Spot :=
  match site.route? path with
  | none => .error .missing
  | some steps =>
    match site.keeping with
    | .memory => (site.tree.walk ⟨none, false⟩ linkLimit false [] steps).mapError fun _ => .missing
    | .disk => site.tree.walk ⟨some nameLimit, writes⟩ linkLimit false [] steps

/-- Why a path is refused whatever there is: on disk it must not hold a NUL or be too long. -/
def textFault? (site : Site) (path : Path) : Option Fault :=
  if site.keeping = .memory then none
  else if path.text.toList.contains '\x00' then some .holdsNul
  else if pathLimit < path.text.utf8ByteSize then some .tooLong
  else none

/-- Where a path leads; with `writes`, a file is to be written there. -/
def spot (site : Site) (path : Path) (writes : Bool) : Except Fault Tree.Spot :=
  match site.textFault? path with
  | some fault => .error fault
  | none => site.destination path writes

/-- The place and the node that a path leads to. -/
def find (site : Site) (path : Path) : Except Fault (Place × Node) :=
  match site.spot path false with
  | .ok (.present place node) => .ok (place, node)
  | .ok (.absent ..) => .error .missing
  | .error fault => .error fault

/-- Is there anything? -/
def existsAt (site : Site) (path : Path) : Bool := (site.find path).toOption.isSome

/-- Is there a file? -/
def isFile (site : Site) (path : Path) : Bool :=
  match site.find path with
  | .ok (_, .file _) => true
  | _ => false

/-- Is there a directory? -/
def isDirectory (site : Site) (path : Path) : Bool :=
  match site.find path with
  | .ok (_, .directory) => true
  | _ => false

/-- The path of a place. -/
def pathOf (place : Place) : Path := ⟨"/" ++ "/".intercalate place⟩

/-- The path without links and folded steps, if it leads anywhere; it may be longer than others. -/
def realPath? (site : Site) (path : Path) : Option Path :=
  match site.destination path false with
  | .ok (.present place _) => some (pathOf place)
  | _ => none

/-- A refusal as a failure. -/
def refuse (site : Site) (path : Path) (fault : Fault) : Failure :=
  .access path (fault.message site.keeping)

/-- The text of a file. -/
def readText (site : Site) (path : Path) : Except Failure String :=
  match site.find path with
  | .ok (_, .file (some text)) => .ok text
  | .ok (_, .file none) => .error (site.refuse path .notText)
  | .ok _ => .error (site.refuse path .isDirectory)
  | .error fault => .error (site.refuse path fault)

/-- Writes the text of a file.  A link that leads nowhere is followed on disk only. -/
def writeText (site : Site) (path : Path) (text : String) : Except Failure Site :=
  let written (place : Place) : Site :=
    { site with tree := site.tree.put place (.file (some text)) }
  match site.spot path true with
  | .ok (.present place (.file _)) => .ok (written place)
  | .ok (.present ..) => .error (site.refuse path .isDirectory)
  | .ok (.absent place linked) =>
    if linked && site.keeping = .memory then .error (site.refuse path .missing)
    else .ok (written place)
  | .error fault => .error (site.refuse path fault)

/-- The place that a path names when no link is followed. -/
def placeOf (path : Path) : Place :=
  path.normalize.components.filterMap fun step => match step with
    | .name name => some name
    | _ => none

/-- Puts a node where a path leads, and makes the directories on the way where there is nothing. -/
def install (site : Site) (path : Path) (node : Node) : Site :=
  match site.spot path false with
  | .ok (.present place _) | .ok (.absent place _) => { site with tree := site.tree.add place node }
  | .error _ =>
    let folded := path.normalize
    let parents := (folded.parent?.map fun parent => stepsOf parent.text).getD []
    let (tree, parent) := site.tree.reach linkLimit [] parents
    { site with tree := tree.add (parent ++ folded.fileName?.toList) node }

/-- Takes out what is at a path, and all below it; a link itself is taken out. -/
def remove (site : Site) (path : Path) : Site :=
  let place := match path.normalize.parent?.map site.find, path.normalize.fileName? with
    | some (.ok (parent, _)), some name => parent ++ [name]
    | _, _ => placeOf path
  { site with tree := site.tree.remove place }

/-- The names in a directory, in order. -/
def list (site : Site) (path : Path) : Except Failure (List String) :=
  match site.find path with
  | .ok (place, .directory) => .ok (site.tree.names place)
  | .ok _ => .error (site.refuse path .notDirectory)
  | .error fault => .error (site.refuse path fault)

/-- A site in memory with these files, seen from its root. -/
def ofFiles (files : List (String × String)) : Site where
  keeping := .memory
  tree := files.foldl (fun tree (path, text) => tree.add (placeOf ⟨path⟩) (.file (some text))) .empty
  workingDirectory := ⟨"/"⟩
  startDirectory := none
  environment := []

end Site

/-- What resolution asks of a site.  Any answers will do, as long as they stay the same. -/
structure SiteView where
  isFile : Path → Bool
  isDirectory : Path → Bool
  readText : Path → Except Failure String
  realPath? : Path → Option Path
  workingDirectory : Path
  variableValue? : String → Option String
  deriving Inhabited

/-- The answers of a site. -/
def Site.view (site : Site) : SiteView where
  isFile := site.isFile
  isDirectory := site.isDirectory
  readText := site.readText
  realPath? := site.realPath?
  workingDirectory := site.workingDirectory
  variableValue? := site.variableValue?

instance : Coe Site SiteView := ⟨Site.view⟩

end ScriptModules
