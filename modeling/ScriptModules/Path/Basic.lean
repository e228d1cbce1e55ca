import ScriptModules.Text.Split

/-!
# Paths

A path keeps the text it was written with; what it denotes is its list of components.  Nothing here
looks at a file system: `..` is folded lexically.  Two spellings with the same components are the same
key (`Path.same`), and `Path.normalize` writes the components in their one canonical spelling.
-/

namespace ScriptModules

/-- One step of a path.  A `.` is a step only at the start of a relative path. -/
inductive Component where
  | root
  | current
  | up
  | name (text : String)
  deriving DecidableEq, Repr, Inhabited

namespace Component

/-- The step that a piece of text between two separators stands for, if it stands for any. -/
def ofPiece? : List Char → Option Component
  | [] => none
  | ['.'] => none
  | ['.', '.'] => some .up
  | piece => some (.name (String.ofList piece))

/-- The text of a step other than the root. -/
def text : Component → String
  | .root => ""
  | .current => "."
  | .up => ".."
  | .name s => s

private def rank : Component → Nat
  | .root => 0
  | .current => 1
  | .up => 2
  | .name _ => 3

/-- Steps are ordered by kind, and names by code points. -/
protected def compare : Component → Component → Ordering
  | .name s, .name t => compare s t
  | a, b => compare a.rank b.rank

private theorem compare_eq_iff {a b : Component} : a.compare b = .eq ↔ a = b := by
  cases a <;> cases b <;> simp [Component.compare, rank]

end Component

/-- A path as it was written. -/
structure Path where
  text : String
  deriving DecidableEq, Repr, Inhabited

namespace Path

/-- The separator of the segments of a path. -/
def separator : Char := '/'

/-- The separator of the entries of a list of paths. -/
def delimiter : Char := ':'

/-- The pieces of the text between separators. -/
def pieces (p : Path) : List (List Char) := Text.split separator p.text.toList

/-- The steps of a path: empty pieces and inner `.` are dropped. -/
def components (p : Path) : List Component :=
  match p.pieces with
  | [[]] => []
  | [] :: rest => .root :: rest.filterMap Component.ofPiece?
  | ['.'] :: rest => .current :: rest.filterMap Component.ofPiece?
  | pieces => pieces.filterMap Component.ofPiece?

/-- Writes steps with single separators between them. -/
def ofComponents : List Component → Path
  | .root :: rest => ⟨"/" ++ "/".intercalate (rest.map Component.text)⟩
  | steps => ⟨"/".intercalate (steps.map Component.text)⟩

/-- Two spellings name the same path when their steps agree. -/
def same (p q : Path) : Bool := p.components == q.components

/-- Lexicographic order of lists of steps. -/
def compareSteps : List Component → List Component → Ordering
  | [], [] => .eq
  | [], _ :: _ => .lt
  | _ :: _, [] => .gt
  | a :: as, b :: bs => (a.compare b).then (compareSteps as bs)

/-- Paths are ordered step by step. -/
protected def compare (p q : Path) : Ordering := compareSteps p.components q.components

/-- Two paths are the same if they are made of the same steps. -/
theorem same_iff {p q : Path} : p.same q = true ↔ p.components = q.components := beq_iff_eq

@[simp] theorem same_refl (p : Path) : p.same p = true := same_iff.2 rfl

theorem same_comm (p q : Path) : p.same q = q.same p := by
  rw [Bool.eq_iff_iff, same_iff, same_iff]
  exact eq_comm

theorem same_trans {p q r : Path} (h : p.same q = true) (h' : q.same r = true) : p.same r = true :=
  same_iff.2 ((same_iff.1 h).trans (same_iff.1 h'))

/-- Two spellings of a path cannot be told apart by a third one. -/
theorem same_congr {p q : Path} (h : p.same q = true) (r : Path) : p.same r = q.same r := by
  rw [Bool.eq_iff_iff, same_iff, same_iff, same_iff.1 h]

private theorem compareSteps_eq_iff {as bs : List Component} : compareSteps as bs = .eq ↔ as = bs := by
  induction as generalizing bs with
  | nil => cases bs <;> simp [compareSteps]
  | cons a as ih =>
    cases bs with
    | nil => simp [compareSteps]
    | cons b bs =>
      rw [compareSteps, Ordering.then_eq_eq, Component.compare_eq_iff, ih, List.cons.injEq]

/-- Paths at one place of the order are the same path. -/
theorem compare_eq_iff {p q : Path} : p.compare q = .eq ↔ p.same q = true := by
  rw [Path.compare, compareSteps_eq_iff, same_iff]

/-- Does the path start at the root? -/
def isAbsolute (p : Path) : Bool := p.text.toList.head? == some separator

/-- Folds one more step onto the steps so far, the last one first: `..` drops a name, stays at the
root, and is kept where there is nothing to drop. -/
def foldStep : List Component → Component → List Component
  | done, .current => done
  | .name _ :: done, .up => done
  | .root :: done, .up => .root :: done
  | done, step => step :: done

/-- The steps of a path with `.` and `..` folded away as far as possible. -/
def foldedComponents (p : Path) : List Component := (p.components.foldl foldStep []).reverse

/-- The canonical spelling of a path: no `.`, no foldable `..`, single separators; `.` if no step is
left. -/
def normalize (p : Path) : Path :=
  match p.foldedComponents with
  | [] => ⟨"."⟩
  | steps => ofComponents steps

/-- Appends `q` to `p`; an absolute `q` stands alone. -/
def join (p q : Path) : Path :=
  if q.isAbsolute then q
  else match p.text.toList.getLast? with
    | none => q
    | some c => if c = separator then ⟨p.text ++ q.text⟩ else ⟨p.text ++ "/" ++ q.text⟩

/-- `q` seen from `base`, in canonical spelling. -/
def resolveFrom (base q : Path) : Path := (base.join q).normalize

/-- The absolute path that `p` denotes in the working directory `cwd`, in canonical spelling. -/
def absolutize (p cwd : Path) : Path :=
  if p.isAbsolute then p.normalize else resolveFrom cwd p

/-- Does the last step of the path have this name? -/
def endsWithSegment (p : Path) (segment : String) : Bool :=
  p.components.getLast? == some (.name segment)

/-- The last step, if it is a name. -/
def fileName? (p : Path) : Option String :=
  match p.components.getLast? with
  | some (.name s) => some s
  | _ => none

/-- Does the piece stand for no step? -/
def isIdle (piece : List Char) : Bool := (Component.ofPiece? piece).isNone

/-- Drops the last step from a list of pieces in reverse order, and the idle pieces around it. -/
def dropLastStep? (reversed : List (List Char)) : Option (List (List Char)) :=
  match reversed.dropWhile isIdle with
  | [] => none
  | _ :: rest => some (rest.dropWhile isIdle)

/-- The text of some pieces with separators between them. -/
def joinPieces (pieces : List (List Char)) : List Char := [separator].intercalate pieces

/-- The path without its last step, in the spelling it was written with.  The root and the empty path
have none. -/
def parent? (p : Path) : Option Path :=
  match p.pieces with
  | [[]] => none
  | [] :: rest =>
    (dropLastStep? rest.reverse).map fun kept => ⟨String.ofList (separator :: joinPieces kept.reverse)⟩
  | ['.'] :: rest =>
    match dropLastStep? rest.reverse with
    | none => some ⟨""⟩
    | some kept => some ⟨String.ofList (joinPieces (['.'] :: kept.reverse))⟩
  | pieces => (dropLastStep? pieces.reverse).map fun kept => ⟨String.ofList (joinPieces kept.reverse)⟩

/-- A name that is looked up from a directory, and not in the search path: `.`, `..`, what starts with
`./` or `../`, and what starts at the root. -/
def isPathSpecifier (text : String) : Bool :=
  match Text.split separator text.toList with
  | [] :: _ :: _ => true
  | ['.'] :: _ => true
  | ['.', '.'] :: _ => true
  | _ => false

end Path
end ScriptModules
