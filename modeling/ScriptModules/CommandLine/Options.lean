/-!
# The options of the command

What the arguments of the command ask for.  Options may be given once each; a short one may be joined
with others and with its value, a long one takes its value behind `=` or as the next argument.
-/

namespace ScriptModules.CommandLine

structure Options where
  /-- The entry module. -/
  entry : Option String
  /-- Print the exports of the entry module? -/
  print : Bool
  /-- A specifier to resolve. -/
  resolve : Option String
  /-- A snippet to run. -/
  snippet : Option String
  /-- The directory that specifiers and snippets are seen from. -/
  base : Option String
  /-- One more file with settings. -/
  config : Option String
  /-- Tell more of what is done? -/
  verbose : Bool
  deriving DecidableEq, Repr

namespace Options

def none : Options := ⟨.none, false, .none, .none, .none, .none, false⟩

/-- Why there is nothing to do. -/
inductive Stop where
  /-- The arguments cannot be understood. -/
  | misuse
  | help
  | version
  deriving DecidableEq, Repr

/-- An option. -/
inductive Key where
  | print | verbose | help | version
  | resolve | snippet | base | config
  deriving DecidableEq, Repr

/-- The option with a long name. -/
def Key.ofName? : List Char → Option Key := fun name =>
  match String.ofList name with
  | "print" => some .print
  | "verbose" => some .verbose
  | "help" => some .help
  | "version" => some .version
  | "resolve" => some .resolve
  | "eval" => some .snippet
  | "from" => some .base
  | "config" => some .config
  | _ => .none

/-- The option with a short name. -/
def Key.ofLetter? : Char → Option Key
  | 'p' => some .print
  | 'h' => some .help
  | 'V' => some .version
  | 'e' => some .snippet
  | _ => .none

/-- Does the option take a value? -/
def Key.takesValue : Key → Bool
  | .resolve | .snippet | .base | .config => true
  | _ => false

/-- Sets an option that takes no value. -/
def setFlag (options : Options) : Key → Except Stop Options
  | .print => if options.print then .error .misuse else .ok { options with print := true }
  | .verbose => if options.verbose then .error .misuse else .ok { options with verbose := true }
  | .help => .error .help
  | .version => .error .version
  | _ => .error .misuse

/-- Sets an option to its value; a path has at least one character. -/
def setValue (options : Options) (key : Key) (value : String) : Except Stop Options :=
  match key with
  | .resolve =>
    if options.resolve.isSome then .error .misuse else .ok { options with resolve := some value }
  | .snippet =>
    if options.snippet.isSome then .error .misuse else .ok { options with snippet := some value }
  | .base =>
    if options.base.isSome || value = "" then .error .misuse
    else .ok { options with base := some value }
  | .config =>
    if options.config.isSome || value = "" then .error .misuse
    else .ok { options with config := some value }
  | _ => .error .misuse

/-- Sets the entry module. -/
def setEntry (options : Options) (value : String) : Except Stop Options :=
  if options.entry.isSome || value = "" then .error .misuse
  else .ok { options with entry := some value }

/-- The options so far, and the one whose value is the next argument. -/
abbrev Pending := Options × Option Key

/-- Reads letters behind one hyphen. -/
def readLetters (options : Options) : List Char → Except Stop Pending
  | [] => .ok (options, .none)
  | letter :: rest =>
    match Key.ofLetter? letter with
    | .none => .error .misuse
    | some key =>
      if key.takesValue then
        match rest with
        | [] => .ok (options, some key)
        | '=' :: value => (options.setValue key (String.ofList value)).map (·, .none)
        | value => (options.setValue key (String.ofList value)).map (·, .none)
      else
        match options.setFlag key with
        | .ok options => readLetters options rest
        | .error stop => .error stop

/-- Reads a name behind two hyphens. -/
def readName (options : Options) (text : List Char) : Except Stop Pending :=
  match Key.ofName? (text.takeWhile (· ≠ '=')), text.dropWhile (· ≠ '=') with
  | .none, _ => .error .misuse
  | some key, [] =>
    if key.takesValue then .ok (options, some key) else (options.setFlag key).map (·, .none)
  | some key, _ :: value =>
    if key.takesValue then (options.setValue key (String.ofList value)).map (·, .none)
    else .error .misuse

/-- Reads arguments behind `--`, which are no options. -/
def readPlain (options : Options) : List String → Except Stop Options
  | [] => .ok options
  | argument :: rest => do readPlain (← options.setEntry argument) rest

/-- Reads arguments; `pending` waits for its value. -/
def readAll : Pending → List String → Except Stop Options
  | (options, .none), [] => .ok options
  | (_, some _), [] => .error .misuse
  | (options, pending), argument :: rest =>
    match argument.toList, pending with
    | '-' :: _ :: _, some _ => .error .misuse
    | ['-', '-'], .none => readPlain options rest
    | '-' :: '-' :: name, .none => do readAll (← options.readName name) rest
    | '-' :: letter :: letters, .none => do
      readAll (← options.readLetters (letter :: letters)) rest
    | _, some key => do readAll (← options.setValue key argument, .none) rest
    | _, .none => do readAll (← options.setEntry argument, .none) rest

/-- What the arguments ask for. -/
def read (arguments : List String) : Except Stop Options := readAll (none, .none) arguments

example : (read ["-pe1", "--from=a", "b"]).toOption =
    some ⟨some "b", true, .none, some "1", some "a", .none, false⟩ := by decide +kernel

example : (read ["--resolve", "-x"]).toOption = .none := by decide +kernel

end Options
end ScriptModules.CommandLine
