import ScriptModules.CommandLine.Command

/-!
# The program

Reads the site where the program is started from the disk, runs the command there, writes the files that
the run has changed, and prints what the run has printed.
-/

namespace ScriptModules.Program

open Files

/-- The text of a path of the disk. -/
def diskPath (place : Place) : String := (Site.pathOf place).text

/-- Adds a node that was found on the disk. -/
def found (place : Place) (node : Node) : StateT Tree IO Unit := modify (·.put place node)

/-- Reads what is at a place, all below it, and all that links lead to from there. -/
partial def readBelow (place : Place) : StateT Tree IO Unit := do
  if ((← get).nodes.lookup place).isSome then return
  let entry : IO.FS.DirEntry := ⟨diskPath place.dropLast, place.getLast?.getD "."⟩
  let kind : Option IO.FS.FileType ←
    try pure (some (← entry.path.symlinkMetadata).type) catch _ => pure none
  match kind with
  | some .file =>
    let bytes : Option ByteArray ←
      try pure (some (← IO.FS.readBinFile (diskPath place))) catch _ => pure none
    found place (.file (bytes.bind String.fromUTF8?))
  | some .dir =>
    found place .directory
    let entries ← try entry.path.readDir catch _ => pure #[]
    for entry in entries do
      readBelow (place ++ [entry.fileName])
  | some .symlink =>
    let target : Option String ←
      try pure (some (← IO.FS.realPath (diskPath place)).toString) catch _ => pure none
    match target with
    | some target =>
      found place (.link target)
      readBelow (Site.placeOf ⟨target⟩)
    | none => pure ()
  | _ => pure ()

/-- The environment variables of the process. -/
def readEnvironment : IO (List (String × String)) := do
  let bytes ← try IO.FS.readBinFile "/proc/self/environ" catch _ => pure .empty
  let text := (String.fromUTF8? bytes).getD ""
  return (Text.split '\x00' text.toList).filterMap fun entry =>
    match entry.dropWhile (· ≠ '=') with
    | [] => none
    | _ :: value => some (String.ofList (entry.takeWhile (· ≠ '=')), String.ofList value)

/-- The places whose files a run may need: the working directory, the directories that arguments and
search paths name, the settings of the user, and the package directories above the working directory. -/
def placesOfInterest (directory : Path) (environment : List (String × String))
    (arguments : List String) : List Place :=
  let placeFrom (text : String) : Place := Site.placeOf (Path.absolutize ⟨text⟩ directory)
  let working := Site.placeOf directory
  let named := arguments.flatMap fun argument =>
    let value := match argument.toList.dropWhile (· ≠ '=') with
      | _ :: value => String.ofList value
      | [] => argument
    [placeFrom value, (placeFrom value).dropLast]
  let searched := ((environment.lookup Config.standard.pathVariable).map fun list =>
    (Text.split Path.delimiter list.toList).map (placeFrom ∘ String.ofList)).getD []
  let settings := ["XDG_CONFIG_HOME", "HOME"].filterMap fun name =>
    (environment.lookup name).map fun dir =>
      placeFrom dir ++ (if name = "HOME" then [".config", "tessera"] else ["tessera"])
  let packages := (List.range (working.length + 1)).map fun n =>
    working.take n ++ [Config.standard.packageRoot]
  (working :: named ++ searched ++ settings ++ packages).filter (· ≠ [])

/-- The site where the program is started. -/
def readSite (arguments : List String) : IO Site := do
  let directory : Path := ⟨(← IO.currentDir).toString⟩
  let environment ← readEnvironment
  let ((), tree) ← ((placesOfInterest directory environment arguments).forM readBelow).run .empty
  let tree := tree.nodes.foldl (fun tree (place, _) => tree.makeParents place) tree
  return ⟨.disk, tree, directory, some directory, environment⟩

/-- Writes the files that differ from what was read. -/
def writeChanges (before after : Tree) : IO Unit :=
  after.nodes.forM fun (place, node) => do
    match node with
    | .file (some text) =>
      if before.find? place ≠ some node then IO.FS.writeFile (diskPath place) text
    | _ => pure ()

/-- Runs the command where the program is started. -/
def start (arguments : List String) : IO UInt32 := do
  let site ← readSite arguments
  let transcript := CommandLine.Command.run site arguments
  writeChanges site.tree transcript.tree
  IO.print transcript.output
  IO.eprint transcript.error
  return UInt32.ofNat transcript.status

end ScriptModules.Program

/-- The program. -/
def main (arguments : List String) : IO UInt32 := ScriptModules.Program.start arguments
