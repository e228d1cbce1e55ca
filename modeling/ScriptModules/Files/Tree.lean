import ScriptModules.Keyed
import ScriptModules.Path.Basic

/-!
# Trees of files

A tree holds files, directories and links under the names that lead to them from the root.  `Tree.walk`
follows a list of steps: links on the way are followed, `..` leaves the directory that was reached and
not the name it was reached by, and no more than a fixed number of links are followed.  Its manner tells
how long a name may be, and whether it is on the way to write a file.
-/

namespace ScriptModules.Files

/-- The names that lead from the root to a file or a directory. -/
abbrev Place := List String

/-- What is found under a name. -/
inductive Node where
  /-- A file with its text; one that is no text has none. -/
  | file (text : Option String)
  | directory
  | link (target : String)
  deriving DecidableEq, Repr

/-- Why an access is refused. -/
inductive Fault where
  | missing
  | isDirectory
  | notDirectory
  | notText
  | tooManyLinks
  /-- A name or a whole path has too many bytes. -/
  | tooLong
  /-- A path holds a character that ends texts for the system. -/
  | holdsNul
  deriving DecidableEq, Repr

/-- A part of a path. -/
inductive Step where
  | stay
  | up
  | into (name : String)
  /-- A separator at the end: what is before it can only be a directory. -/
  | slash
  deriving DecidableEq, Repr

/-- The steps of the text of a path behind the root. -/
def stepsOf (text : String) : List Step :=
  ((Text.split Path.separator text.toList).filter (· ≠ [])).map (fun piece =>
    match Component.ofPiece? piece with
    | some .up => .up
    | some (.name name) => .into name
    | _ => .stay)
    ++ if text.toList.getLast? = some Path.separator then [.slash] else []

example : stepsOf "/a//./../b//" = [.into "a", .stay, .up, .into "b", .slash] := by decide +kernel

/-- How a walk goes. -/
structure Manner where
  /-- The most bytes that a name may have, if there is a limit. -/
  nameLimit : Option Nat
  /-- Does it go to a file that is to be written?  Then no separator may end it. -/
  writes : Bool
  deriving DecidableEq, Repr

/-- Is the name longer than names may be? -/
def Manner.isTooLong (manner : Manner) (name : String) : Bool :=
  manner.nameLimit.any (· < name.utf8ByteSize)

/-- The nodes by their places.  The root is a directory without being listed. -/
structure Tree where
  nodes : List (Place × Node)
  deriving DecidableEq, Inhabited

namespace Tree

def empty : Tree := ⟨[]⟩

/-- The node at a place, without following it if it is a link. -/
def find? (tree : Tree) (place : Place) : Option Node :=
  if place = [] then some .directory else tree.nodes.lookup place

/-- Puts a node at a place. -/
def put (tree : Tree) (place : Place) (node : Node) : Tree :=
  ⟨(place, node) :: tree.nodes.filter fun entry => entry.1 ≠ place⟩

/-- Makes the directories that lead to a place, where there is nothing yet. -/
def makeParents (tree : Tree) (place : Place) : Tree :=
  (List.range place.length).foldl (fun tree n =>
    match tree.find? (place.take n) with
    | some _ => tree
    | none => tree.put (place.take n) .directory) tree

/-- Puts a node at a place, and makes the directories that lead there. -/
def add (tree : Tree) (place : Place) (node : Node) : Tree := (tree.makeParents place).put place node

/-- Takes out a place and all below it. -/
def remove (tree : Tree) (place : Place) : Tree :=
  ⟨tree.nodes.filter fun entry => !place.isPrefixOf entry.1⟩

/-- The names in a directory, in order. -/
def names (tree : Tree) (place : Place) : List String :=
  (Keyed.ofList (tree.nodes.filterMap fun (other, _) =>
    match other.getLast? with
    | some name => if other.dropLast = place then some (name, ()) else none
    | none => none)).keys

/-- Where a walk ends. -/
inductive Spot where
  /-- At a file or a directory. -/
  | present (place : Place) (node : Node)
  /-- Behind a directory, where nothing is; the flag tells that a link led there. -/
  | absent (place : Place) (linked : Bool)

/-- A walk up to its end, or to a link. -/
inductive Progress where
  | arrived (spot : Spot)
  | refused (fault : Fault)
  /-- The walk goes on from a place; the flag tells that the link was the last step. -/
  | redirected (place : Place) (steps : List Step) (last : Bool)

/-- Walks up to the next link. -/
def advance (tree : Tree) (manner : Manner) : Place → List Step → Progress
  | place, [] => .arrived (.present place .directory)
  | place, .stay :: rest | place, .slash :: rest => advance tree manner place rest
  | place, .up :: rest => advance tree manner place.dropLast rest
  | place, .into name :: rest =>
    let next := place ++ [name]
    if manner.writes && rest = [.slash] then .refused .isDirectory
    else if manner.isTooLong name then .refused .tooLong
    else match tree.find? next with
      | none => if rest.isEmpty then .arrived (.absent next false) else .refused .missing
      | some .directory => advance tree manner next rest
      | some (.file text) =>
        if rest.isEmpty then .arrived (.present next (.file text)) else .refused .notDirectory
      | some (.link target) =>
        .redirected (if (Path.mk target).isAbsolute then [] else place) (stepsOf target ++ rest)
          rest.isEmpty

/-- Walks from a place, following at most `links` links. -/
def walk (tree : Tree) (manner : Manner) (links : Nat) (linked : Bool) (place : Place)
    (steps : List Step) : Except Fault Spot :=
  match tree.advance manner place steps with
  | .arrived (.absent place _) => .ok (.absent place linked)
  | .arrived spot => .ok spot
  | .refused fault => .error fault
  | .redirected place steps last =>
    match links with
    | 0 => .error .tooManyLinks
    | links + 1 => walk tree manner links (linked || last) place steps

/-- Walks from a place as links lead, and makes a directory wherever there is nothing; gives the place
that is reached. -/
def reach (tree : Tree) (links : Nat) : Place → List Step → Tree × Place
  | place, [] => (tree, place)
  | place, .stay :: rest | place, .slash :: rest => reach tree links place rest
  | place, .up :: rest => reach tree links place.dropLast rest
  | place, .into name :: rest =>
    match tree.walk ⟨none, false⟩ links false place [.into name] with
    | .ok (.present next _) => reach tree links next rest
    | .ok (.absent next _) => reach (tree.put next .directory) links next rest
    | .error _ => reach tree links (place ++ [name]) rest

end Tree

/-- How many links a walk follows. -/
def linkLimit : Nat := 40

/-- How many bytes a name on disk may have. -/
def nameLimit : Nat := 255

/-- How many bytes a path on disk may have. -/
def pathLimit : Nat := 4095

end ScriptModules.Files
