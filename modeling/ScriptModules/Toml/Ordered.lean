import ScriptModules.Keyed
import ScriptModules.Toml.Read

/-!
# Tables in the order of their keys

A document has the entries of its tables in an order of its own.  `orderedEntries?` puts them in the
order of their keys, at every depth.  It also reads the table that `writeAlone` makes of a moment: a
table that starts with `momentKey` is the moment whose text stands there, whatever follows, and has to
be one.
-/

namespace ScriptModules.Toml

/-- The moment that a whole text writes. -/
def momentOf? : Toml → Option Toml
  | string text =>
    match Reader.moment text.toList with
    | some (found, []) => some found
    | _ => none
  | _ => none

mutual

/-- The value with its tables in the order of their keys. -/
def ordered? : Toml → Option Toml
  | array items => array <$> orderedItems? items
  | table entries =>
    match entries.head? with
    | some (key, value) =>
      if key = momentKey then momentOf? value
      else (table ∘ Keyed.ofList) <$> orderedEntries? entries
    | none => some (table [])
  | value => some value

def orderedItems? : List Toml → Option (List Toml)
  | [] => some []
  | item :: rest => do return (← ordered? item) :: (← orderedItems? rest)

def orderedEntries? : List (String × Toml) → Option (List (String × Toml))
  | [] => some []
  | (key, value) :: rest => do return (key, ← ordered? value) :: (← orderedEntries? rest)

end

/-- The table that a text is, with all tables in the order of their keys. -/
def parseOrdered? (text : String) : Option (Keyed Toml) := do
  return Keyed.ofList (← orderedEntries? (← parse? text))

end ScriptModules.Toml
