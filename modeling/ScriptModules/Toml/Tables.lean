import ScriptModules.Toml.Document

/-!
# Tables from lines

The lines of a document name tables in headers and give them entries.  A table may come to be before its
header, through the headers of tables inside of it or through dotted keys; the rules tell which of these
may be combined.  Entries stand in the order in which they have come to be.
-/

namespace ScriptModules.Toml

/-- A line of a document. -/
inductive Line where
  /-- `[path]`: the entries that follow belong to this table. -/
  | header (path : List String)
  /-- `[[path]]`: the entries that follow belong to a new table in this list. -/
  | listHeader (path : List String)
  /-- `path = value` -/
  | entry (path : List String) (value : Toml)

/-- How a table has come to be. -/
inductive Origin where
  /-- By its own header. -/
  | header
  /-- By the header of a table inside of it. -/
  | inner
  /-- By a dotted key. -/
  | dotted
  deriving DecidableEq

/-- What is under a key while the lines are read. -/
inductive Node where
  | value (value : Toml)
  | table (origin : Origin) (entries : List (String × Node))
  /-- A list of tables, the latest first. -/
  | tables (items : List (List (String × Node)))
  deriving Inhabited

abbrev Entries := List (String × Node)

/-- Puts a node under a key: in the place of the one that is there, or behind all others. -/
def put (key : String) (node : Node) : Entries → Entries
  | [] => [(key, node)]
  | (k, old) :: rest => if k = key then (key, node) :: rest else (k, old) :: put key node rest

/-- Changes the table at the end of a path.  Tables on the way are made with this origin where there are
none; a list of tables stands for its latest one. -/
def update (origin : Origin) (change : Origin → Entries → Option Entries) :
    List String → Origin → Entries → Option Entries
  | [], own, entries => change own entries
  | key :: path, _, entries => do
    let node ← match entries.lookup key with
      | none => Node.table origin <$> update origin change path origin []
      | some (.value _) => none
      | some (.table own inner) =>
        if origin = .dotted && own = .header then none
        else Node.table own <$> update origin change path own inner
      | some (.tables []) => none
      | some (.tables (latest :: earlier)) => do
        let latest ← update origin change path .header latest
        some (.tables (latest :: earlier))
    return put key node entries

/-- Adds an entry to a table.  Dotted keys do not add to tables that have come to be otherwise. -/
def addEntry (path : List String) (value : Toml) (own : Origin) (entries : Entries) :
    Option Entries :=
  match path.getLast? with
  | none => none
  | some key =>
    update .dotted (fun owner entries =>
      if !path.dropLast.isEmpty && owner ≠ .dotted then none
      else if (entries.lookup key).isSome then none
      else some (put key (.value value) entries)) path.dropLast own entries

/-- The table of a header: new, or one that has come to be by the headers of tables inside of it, which
is moved behind the others. -/
def openTable (path : List String) (entries : Entries) : Option Entries :=
  match path.getLast? with
  | none => none
  | some key =>
    update .inner (fun _ entries =>
      match entries.lookup key with
      | none => some (put key (.table .header []) entries)
      | some (.table .inner inner) =>
        some (entries.filter (fun entry => entry.1 ≠ key) ++ [(key, .table .header inner)])
      | some _ => none) path.dropLast .header entries

/-- A new table in a list of tables. -/
def openItem (path : List String) (entries : Entries) : Option Entries :=
  match path.getLast? with
  | none => none
  | some key =>
    update .inner (fun _ entries =>
      match entries.lookup key with
      | none => some (put key (.tables [[]]) entries)
      | some (.tables items) => some (put key (.tables ([] :: items)) entries)
      | some _ => none) path.dropLast .header entries

/-- The tables so far, and the path of the table that entries belong to. -/
structure Progress where
  entries : Entries
  current : List String

/-- Takes in one more line. -/
def Progress.add (progress : Progress) : Line → Option Progress
  | .header path => (openTable path progress.entries).map fun entries => ⟨entries, path⟩
  | .listHeader path => (openItem path progress.entries).map fun entries => ⟨entries, path⟩
  | .entry path value =>
    (update .inner (addEntry path value) progress.current .header progress.entries).map
      fun entries => { progress with entries }

mutual

/-- The value that a node has in the end. -/
def Node.finish : Node → Toml
  | .value value => value
  | .table _ entries => .table (finishEntries entries)
  | .tables items => .array (finishItems items).reverse

def finishEntries : List (String × Node) → List (String × Toml)
  | [] => []
  | (key, node) :: rest => (key, node.finish) :: finishEntries rest

def finishItems : List (List (String × Node)) → List Toml
  | [] => []
  | entries :: rest => .table (finishEntries entries) :: finishItems rest

end

/-- The table that lines make, if they can be combined. -/
def ofLines? (lines : List Line) : Option (List (String × Toml)) :=
  (lines.foldlM Progress.add ⟨[], []⟩).map fun progress => finishEntries progress.entries

/-- The table that entries between braces make, if they can be combined. -/
def ofEntries? (entries : List (List String × Toml)) : Option (List (String × Toml)) :=
  ofLines? (entries.map fun (path, value) => .entry path value)

end ScriptModules.Toml
