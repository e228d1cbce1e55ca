import ScriptModules.Proofs.Path.Canonical

/-!
# Where paths lead

Piece by piece a path leads from one location to the next, where `..` undoes the last name, or leads a level up if
there is none to undo, and stays at the root (`Path.location`).  The canonical spelling of a path is that of its
location (`Path.normalize_eq`), so it has one of a few forms (`Path.IsNormal`), and two paths have the same one exactly
if they lead to the same location (`Path.normalize_leads`).
-/

namespace ScriptModules.Path

/-- Where a path leads without a look at any file: from the root or from the directory that it is seen from, some levels
up, and then down along some names, of which the last one comes first. -/
structure Location where
  rooted : Bool
  up : Nat
  names : List String
  deriving DecidableEq

namespace Location

/-- The location that is reached by one more piece of text between separators. -/
def walk (location : Location) (piece : List Char) : Location :=
  if piece = [] ∨ piece = ['.'] then location
  else if piece = ['.', '.'] then
    match location.names with
    | _ :: names => { location with names }
    | [] => if location.rooted then location else { location with up := location.up + 1 }
  else { location with names := String.ofList piece :: location.names }

/-- The segments that lead to a location. -/
def segments (location : Location) : List String := List.replicate location.up ".." ++ location.names.reverse

/-- The spelling of a location. -/
def path (location : Location) : Path :=
  if location.rooted then ⟨"/" ++ "/".intercalate location.segments⟩
  else if location.segments = [] then ⟨"."⟩
  else ⟨"/".intercalate location.segments⟩

/-- The steps that lead to a location, the last one first. -/
def steps (location : Location) : List Component :=
  location.names.map .name ++ (List.replicate location.up .up ++ if location.rooted then [.root] else [])

/-- The locations that paths lead to: nothing is above the root, and names are names. -/
structure IsProper (location : Location) : Prop where
  rooted : location.rooted = true → location.up = 0
  names : ∀ name ∈ location.names, IsName name

end Location

/-- Where the path leads. -/
def location (p : Path) : Location := p.pieces.foldl Location.walk ⟨p.isAbsolute, 0, []⟩

/-- The canonical spellings: a dot, the root, and segments with single separators between them, of which none is a dot.
Only without a separator before them some segments lead up, and those come before all others. -/
def IsNormal (p : Path) : Prop :=
  p.text = "." ∨ p.text = "/" ∨ ∃ (lead : String) (up : Nat) (names : List String),
    (lead = "" ∨ lead = "/" ∧ up = 0) ∧ List.replicate up ".." ++ names ≠ [] ∧
    (∀ name ∈ names, name ≠ "" ∧ name ≠ "." ∧ name ≠ ".." ∧ separator ∉ name.toList) ∧
    p.text = lead ++ "/".intercalate (List.replicate up ".." ++ names)

namespace Location

variable {location : Location} {piece : List Char}

/-! ## Walks -/

/-- A piece that is no step leads nowhere, and any other one as its step does. -/
theorem steps_walk (h : location.IsProper) :
    (location.walk piece).steps = ((Component.ofPiece? piece).map (foldStep location.steps)).getD location.steps := by
  obtain ⟨rooted, up, names⟩ := location
  unfold Component.ofPiece?
  split
  · rfl
  · rfl
  · cases names with
    | cons name names => simp [walk, steps, foldStep]
    | nil =>
      cases rooted with
      | true =>
        obtain rfl : up = 0 := h.rooted rfl
        simp [walk, steps, foldStep]
      | false => cases up <;> simp [walk, steps, foldStep, List.replicate_succ]
  · next hempty hdot hup =>
    rw [walk, if_neg (not_or.2 ⟨hempty, hdot⟩), if_neg hup, Option.map_some, Option.getD_some, foldStep_name]
    rfl

private theorem IsProper.walk (h : location.IsProper) (hs : separator ∉ piece) : (location.walk piece).IsProper := by
  unfold Location.walk
  split
  · exact h
  · next hstep =>
    obtain ⟨hempty, hdot⟩ := not_or.1 hstep
    split
    · split
      · next name names hn => exact ⟨h.rooted, fun other ho => h.names other (hn ▸ List.mem_cons_of_mem _ ho)⟩
      · split
        · exact h
        · next hr => exact ⟨fun he => absurd he hr, h.names⟩
    · next hup =>
      refine ⟨h.rooted, fun name hn => ?_⟩
      rcases List.mem_cons.1 hn with rfl | hn
      · refine isName_iff.2 ?_
        rw [String.toList_ofList]
        exact ⟨hempty, hdot, hup, hs⟩
      · exact h.names name hn

private theorem IsProper.foldl_walk {pieces : List (List Char)} (h : location.IsProper)
    (hs : ∀ piece ∈ pieces, separator ∉ piece) :
    (pieces.foldl Location.walk location).IsProper := by
  induction pieces generalizing location with
  | nil => exact h
  | cons piece pieces ih =>
    obtain ⟨hpiece, hpieces⟩ := List.forall_mem_cons.1 hs
    exact ih (h.walk hpiece) hpieces

/-- Along some pieces one comes where their steps lead. -/
theorem steps_foldl_walk {pieces : List (List Char)} (h : location.IsProper)
    (hs : ∀ piece ∈ pieces, separator ∉ piece) : (pieces.foldl Location.walk location).steps =
      (pieces.filterMap Component.ofPiece?).foldl foldStep location.steps := by
  induction pieces generalizing location with
  | nil => rfl
  | cons piece pieces ih =>
    obtain ⟨hpiece, hpieces⟩ := List.forall_mem_cons.1 hs
    rw [List.foldl_cons, ih (h.walk hpiece) hpieces, steps_walk h, List.filterMap_cons]
    cases Component.ofPiece? piece with
    | none => rfl
    | some step => rfl

/-! ## Segments -/

private theorem walk_up (rooted : Bool) (up : Nat) (h : rooted = true → up = 0) :
    (List.replicate up ['.', '.']).foldl Location.walk ⟨rooted, 0, []⟩ = ⟨rooted, up, []⟩ := by
  cases rooted with
  | true =>
    rw [h rfl]
    rfl
  | false =>
    induction up with
    | zero => rfl
    | succ up ih =>
      rw [List.replicate_succ', List.foldl_append, ih fun h => absurd h Bool.false_ne_true]
      rfl

private theorem walk_name {name : String} (h : IsName name) (location : Location) :
    location.walk name.toList = { location with names := name :: location.names } := by
  obtain ⟨hempty, hdot, hup, _⟩ := isName_iff.1 h
  rw [walk, if_neg (not_or.2 ⟨hempty, hdot⟩), if_neg hup, String.ofList_toList]

private theorem walk_names {names : List String} (h : ∀ name ∈ names, IsName name) (location : Location) :
    (names.map String.toList).foldl Location.walk location =
      { location with names := names.reverse ++ location.names } := by
  induction names generalizing location with
  | nil => rfl
  | cons name names ih =>
    obtain ⟨hname, hnames⟩ := List.forall_mem_cons.1 h
    rw [List.map_cons, List.foldl_cons, walk_name hname, ih hnames]
    simp

/-- The segments of a location lead there. -/
theorem foldl_walk_segments (h : location.IsProper) :
    (location.segments.map String.toList).foldl Location.walk ⟨location.rooted, 0, []⟩ = location := by
  rw [segments, List.map_append, List.map_replicate, List.foldl_append, show "..".toList = ['.', '.'] from rfl,
    walk_up location.rooted location.up h.rooted, walk_names fun name hn => h.names name (List.mem_reverse.1 hn)]
  simp

private theorem IsProper.isSegment (h : location.IsProper) {segment : String} (hs : segment ∈ location.segments) :
    segment.toList ≠ [] ∧ separator ∉ segment.toList := by
  rcases List.mem_append.1 hs with hs | hs
  · obtain rfl := List.eq_of_mem_replicate hs
    decide
  · obtain ⟨hempty, _, _, hsep⟩ := isName_iff.1 (h.names segment (List.mem_reverse.1 hs))
    exact ⟨hempty, hsep⟩

end Location

/-! ## Spellings -/

variable {location : Location}

/-- What segments are put together to is split into them again. -/
private theorem split_segments (h : location.IsProper) (hne : location.segments ≠ []) :
    Text.split separator ("/".intercalate location.segments).toList = location.segments.map String.toList := by
  rw [String.toList_intercalate]
  refine Text.split_intercalate (by simpa using hne) fun piece hp => ?_
  obtain ⟨segment, hs, rfl⟩ := List.mem_map.1 hp
  exact (h.isSegment hs).2

/-- Segments do not start with a separator. -/
private theorem isAbsolute_segments (h : location.IsProper) (hne : location.segments ≠ []) :
    (Path.mk ("/".intercalate location.segments)).isAbsolute = false := by
  refine Bool.eq_false_iff.2 fun habsolute => ?_
  obtain ⟨rest, hrest⟩ := isAbsolute_iff.1 habsolute
  -- Else the first piece would be empty, and no segment is.
  have hsplit := split_segments h hne
  rw [show ("/".intercalate location.segments).toList = separator :: rest from hrest, Text.split, if_pos rfl] at hsplit
  obtain ⟨segment, hs, hempty⟩ := List.mem_map.1 (hsplit ▸ List.mem_cons_self)
  exact (h.isSegment hs).1 hempty

/-- The spelling of a location leads there. -/
theorem location_path (h : location.IsProper) : location.path.location = location := by
  have hwalk := Location.foldl_walk_segments h
  have hsplit := split_segments h
  unfold Path.location Location.path Path.pieces
  by_cases hrooted : location.rooted = true
  · have htext : ("/" ++ "/".intercalate location.segments).toList =
        separator :: ("/".intercalate location.segments).toList := String.toList_append
    have habsolute : (Path.mk ("/" ++ "/".intercalate location.segments)).isAbsolute = true :=
      isAbsolute_iff.2 ⟨_, htext⟩
    rw [if_pos hrooted, habsolute, htext, Text.split, if_pos rfl, List.foldl_cons]
    rw [hrooted] at hwalk
    by_cases hne : location.segments = []
    · rw [hne] at hwalk ⊢
      exact hwalk
    · rw [hsplit hne]
      exact hwalk
  · rw [if_neg hrooted]
    rw [Bool.eq_false_iff.2 hrooted] at hwalk
    split
    · next hempty =>
      rw [hempty] at hwalk
      exact hwalk
    · next hne =>
      rw [isAbsolute_segments h hne, hsplit hne]
      exact hwalk

private theorem isNormal_path (h : location.IsProper) : location.path.IsNormal := by
  have hnames : ∀ name ∈ location.names.reverse, name ≠ "" ∧ name ≠ "." ∧ name ≠ ".." ∧ separator ∉ name.toList := by
    intro name hn
    obtain ⟨hempty, hdot, hup, hsep⟩ := isName_iff.1 (h.names name (List.mem_reverse.1 hn))
    refine ⟨?_, ?_, ?_, hsep⟩ <;> rintro rfl <;> contradiction
  unfold Location.path
  split
  · next hrooted =>
    have hup := h.rooted hrooted
    by_cases hne : location.segments = []
    · exact .inr (.inl (by rw [hne]; rfl))
    · exact .inr (.inr ⟨"/", location.up, location.names.reverse, .inr ⟨rfl, hup⟩, hne, hnames, rfl⟩)
  · split
    · exact .inl rfl
    · next hne =>
      exact .inr (.inr ⟨"", location.up, location.names.reverse, .inl rfl, hne, hnames, String.empty_append.symm⟩)

/-! ## Paths -/

variable (p : Path)

/-- A path leads to a proper location. -/
theorem isProper_location : p.location.IsProper :=
  Location.IsProper.foldl_walk ⟨fun _ => rfl, fun _ hn => absurd hn List.not_mem_nil⟩ fun _ hp =>
    Text.sep_notMem_of_mem_split hp

theorem rooted_walk (location : Location) (piece : List Char) :
    (location.walk piece).rooted = location.rooted := by
  unfold Location.walk
  split
  · rfl
  · split
    · split
      · rfl
      · split <;> rfl
    · rfl

/-- A path leads from the root if it is absolute. -/
theorem rooted_location : p.location.rooted = p.isAbsolute := by
  suffices h : ∀ (pieces : List (List Char)) (location : Location),
      (pieces.foldl Location.walk location).rooted = location.rooted from
    h p.pieces _
  intro pieces location
  induction pieces generalizing location with
  | nil => rfl
  | cons piece pieces ih => rw [List.foldl_cons, ih, rooted_walk]

/-- A relative path is empty, or its first piece is not. -/
theorem pieces_of_relative (h : p.isAbsolute = false) :
    p.pieces = [[]] ∨ ∃ c piece rest, p.pieces = (c :: piece) :: rest := by
  unfold pieces
  cases ht : p.text.toList with
  | nil => exact .inl rfl
  | cons c cs =>
    have hc : c ≠ separator := by
      rintro rfl
      rw [isAbsolute_iff.2 ⟨cs, ht⟩] at h
      contradiction
    obtain ⟨piece, rest, hs⟩ := List.exists_cons_of_ne_nil (Text.split_ne_nil separator cs)
    rw [Text.split, if_neg hc, hs]
    exact .inr ⟨c, piece, rest, rfl⟩

/-- The steps that are left of a path when it is folded lead where it leads. -/
theorem foldedComponents_eq : p.foldedComponents = p.location.steps.reverse := by
  have hproper : (Location.mk p.isAbsolute 0 []).IsProper := ⟨fun _ => rfl, fun _ hn => absurd hn List.not_mem_nil⟩
  have hsteps := Location.steps_foldl_walk hproper fun _ (hp : _ ∈ p.pieces) => Text.sep_notMem_of_mem_split hp
  rw [foldedComponents, location, hsteps]
  congr 1
  cases habsolute : p.isAbsolute with
  | true =>
    obtain ⟨rest, hrest⟩ := isAbsolute_iff.1 habsolute
    rw [components_of_absolute hrest, pieces_of_absolute hrest]
    rfl
  | false =>
    unfold components
    rcases pieces_of_relative p habsolute with hp | ⟨c, piece, rest, hp⟩
    · rw [hp]
      rfl
    · rw [hp]
      split
      · next he => cases he
      · next he => cases he
      · next hdot =>
        obtain ⟨hpiece, rfl⟩ := List.cons.inj hdot
        rw [hpiece]
        rfl
      · rfl

private theorem ofComponents_of_relative {steps : List Component} (h : .root ∉ steps) :
    ofComponents steps = ⟨"/".intercalate (steps.map Component.text)⟩ := by
  unfold ofComponents
  split
  · exact absurd List.mem_cons_self h
  · rfl

/-- The canonical spelling of a path is that of the location where it leads. -/
theorem normalize_eq : p.normalize = p.location.path := by
  obtain ⟨rooted, up, names, hlocation⟩ : ∃ rooted up names, p.location = ⟨rooted, up, names⟩ := ⟨_, _, _, rfl⟩
  let steps : List Component := List.replicate up .up ++ names.reverse.map .name
  have htexts : steps.map Component.text = (Location.mk rooted up names).segments := by
    rw [Location.segments, List.map_append, List.map_replicate, List.map_map]
    exact congrArg _ (List.map_id _)
  have hfolded : p.foldedComponents = (if rooted then [.root] else []) ++ steps := by
    rw [foldedComponents_eq, hlocation, Location.steps]
    cases rooted <;> simp [steps]
  unfold normalize Location.path
  rw [hfolded, hlocation]
  cases rooted with
  | true => simp only [if_true, List.singleton_append, ofComponents, htexts]
  | false =>
    have hroot : .root ∉ steps := by simp [steps]
    clear_value steps
    simp only [Bool.false_eq_true, if_false, List.nil_append, ← htexts, List.map_eq_nil_iff]
    split
    · rfl
    · next hne => rw [if_neg hne, ofComponents_of_relative hroot]

/-- The canonical spelling of a path leads where the path leads. -/
theorem location_normalize : p.normalize.location = p.location := by
  rw [normalize_eq, location_path (isProper_location p)]

/-- Paths have the same canonical spelling exactly if they lead to the same location. -/
theorem normalize_eq_normalize_iff {p q : Path} : p.normalize = q.normalize ↔ p.location = q.location := by
  constructor
  · intro h
    rw [← location_normalize p, h, location_normalize]
  · intro h
    rw [normalize_eq, normalize_eq, h]

/-- The canonical spelling of a path has one of the canonical forms, is absolute if the path is, leads where the path
leads, and is its own canonical spelling; and only paths that lead to the same location have the same one. -/
theorem normalize_leads : p.normalize.IsNormal ∧ p.normalize.isAbsolute = p.isAbsolute ∧
    p.normalize.location = p.location ∧ p.normalize.normalize = p.normalize ∧
    ∀ q : Path, p.normalize = q.normalize ↔ p.location = q.location := by
  have hlocation (q : Path) : q.normalize.location = q.location := by
    rw [normalize_eq, location_path (isProper_location q)]
  refine ⟨?_, ?_, hlocation p, ?_, fun q => ⟨fun h => ?_, fun h => ?_⟩⟩
  · rw [normalize_eq]
    exact isNormal_path (isProper_location p)
  · rw [← rooted_location, ← rooted_location, hlocation]
  · rw [normalize_eq p.normalize, hlocation, ← normalize_eq]
  · rw [← hlocation p, h, hlocation]
  · rw [normalize_eq, h, ← normalize_eq]

end ScriptModules.Path
