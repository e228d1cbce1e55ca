import ScriptModules.CommandLine.Options
import ScriptModules.Config.Document
import ScriptModules.Machine.Embedding

/-!
# The command

The command resolves a specifier, runs a snippet, or runs an entry module, with the settings of the site
where it is started.  `Command.run` is all of it but for reading the site and writing the result.
-/

namespace ScriptModules.CommandLine

/-- The version of the command. -/
def version : String := "0.1.0"

/-- What is left of a run of the command. -/
structure Transcript where
  status : Nat
  output : String
  error : String
  /-- The files after the run. -/
  tree : Files.Tree

/-- A failure with what was being done, in words, the outermost first. -/
def causes (heap : Heap) (failure : Failure) : List String :=
  heap.describe failure :: match failure with
    | .access _ reason => [reason]
    | .data _ fault => [fault.message]
    | _ => []

/-- The line that tells of a failure, with its first word in red. -/
def errorLine (texts : List String) : String :=
  "\x1b[1m\x1b[31mError\x1b[39m\x1b[0m: " ++ ": ".intercalate texts ++ "\n"

namespace Command

open Run

/-- What goes wrong in the command: a failure and what was being done, or words alone. -/
inductive Trouble where
  | failed (doing : List String) (failure : Failure)
  | refused (text : String)

/-- A computation of the command. -/
abbrev Working := ExceptT Trouble Run

/-- A run, of which is told that something was being done. -/
def doing {α : Type} (words : List String) (run : Run α) : Working α := do
  match ← (attempt run : Run (Except Failure α)) with
  | .ok a => return a
  | .error failure => throw (.failed words failure)

/-- The directory for the settings of a user. -/
def userDirectory (site : Site) : Option Path :=
  match site.variableValue? "XDG_CONFIG_HOME" with
  | some dir => if (Path.mk dir).isAbsolute then some ⟨dir⟩ else home
  | none => home
where
  home : Option Path :=
    match site.variableValue? "HOME" with
    | some "" | none => none
    | some dir => some ((Path.mk dir).join ⟨".config"⟩)

/-- The configuration for the options. -/
def configure (site : Site) (options : Options) : Working Config := do
  let config ← doing [] (ofExcept (Config.ofSite site (userDirectory site)))
  match options.config with
  | none => return config
  | some file =>
    match config.mergeFile site ⟨file⟩ with
    | (config, none) => return config
    | (_, some failure) => throw (.failed ["invalid configuration in " ++ file] failure)

/-- Prints a text on a line of its own. -/
def say (text : String) : Working Unit := note (.printed .output text)

/-- Does what the options ask for. -/
def work (siteId : SiteId) (options : Options) : Working Unit := do
  let start ← site siteId
  let config ← configure start options
  let loader ← doing [] (newLoader config .interpreter siteId none none)
  let base := (options.base.map Path.mk).getD start.workingDirectory
  match options with
  | { resolve := some specifier, .. } =>
    let target ← doing ["cannot resolve '" ++ specifier ++ "'"] (resolve loader specifier base)
    say target.identity
  | { snippet := some source, .. } =>
    let result ← doing [] (runSnippet loader source base)
    if result ≠ .undefined then say ((← heap).display result)
  | { entry := some entry, print, .. } =>
    let exports ← doing ["failed to run " ++ entry] (runMain loader ⟨entry⟩)
    if print then say (((← heap).toJson exports).writeIndented 0)
  | _ => throw (.refused "no entry module given (try --help)")

/-- The lines that were printed, given the events with the latest first. -/
def printed (stream : Stream) (events : List Event) : String :=
  String.join (events.reverse.filterMap fun event => match event with
    | .printed other line => if stream = other then some (line ++ "\n") else none
    | _ => none)

/-- The text on the use of the command. -/
def usage : String :=
  "Usage: tessera [--print] [--verbose] [--config FILE] [--from DIR] "
    ++ "[--resolve SPEC | --eval CODE | ENTRY]\n"

/-- Runs the command with its arguments at a site. -/
def run (site : Site) (arguments : List String) : Transcript :=
  match Options.read arguments with
  | .error .misuse => ⟨2, "", usage, site.tree⟩
  | .error .help => ⟨0, usage, "", site.tree⟩
  | .error .version => ⟨0, "tessera " ++ version ++ "\n", "", site.tree⟩
  | .ok options =>
    let whole : Run (Except Trouble Unit) := do
      let id ← newSite site
      (work id options).run
    let (outcome, machine) := whole .empty
    let output := printed .output machine.events
    let error := printed .error machine.events
    let tree := (machine.sites[0]?.map Site.tree).getD site.tree
    let troubled (texts : List String) : Transcript := ⟨1, output, error ++ errorLine texts, tree⟩
    match outcome with
    | .ok (.ok ()) => ⟨0, output, error, tree⟩
    | .ok (.error (.failed words failure)) => troubled (words ++ causes machine.heap failure)
    | .ok (.error (.refused text)) => troubled [text]
    | .failed failure => troubled (causes machine.heap failure)
    | .exhausted => troubled ["too many steps"]

end Command
end ScriptModules.CommandLine
