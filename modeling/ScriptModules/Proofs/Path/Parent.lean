import ScriptModules.Proofs.Path.Location

/-!
# The path above

The path above is what a path is without its last step (`Path.components_of_parent?`), and from there the last step
leads where the path leads (`Path.location_of_parent?`).  So the way up (`Path.lineage`) never comes to a path twice
(`Path.pairwise_lineage`), and from a canonical path it ends at the root (`Path.getLast?_lineage`).
-/

namespace ScriptModules.Path

variable {p parent : Path} {step : Component} {names : List String}

/-! ## Where steps lead -/

/-- The location that one more step leads to. -/
def Location.goOn (location : Location) : Component → Location
  | .root => ⟨true, 0, []⟩
  | step => location.walk step.text.toList

private theorem Location.goOn_of_ne_root (h : step ≠ .root) (location : Location) :
    location.goOn step = location.walk step.text.toList := by
  cases step with
  | root => contradiction
  | _ => rfl

/-- Some pieces lead where their steps lead. -/
private theorem foldl_goOn_filterMap (pieces : List (List Char)) (location : Location) :
    (pieces.filterMap Component.ofPiece?).foldl Location.goOn location = pieces.foldl Location.walk location := by
  induction pieces generalizing location with
  | nil => rfl
  | cons piece pieces ih =>
    rw [List.filterMap_cons, List.foldl_cons]
    cases hp : Component.ofPiece? piece with
    | none =>
      rw [Location.walk, if_pos (Component.ofPiece?_eq_none_iff.1 hp)]
      exact ih location
    | some step =>
      rw [List.foldl_cons, Location.goOn_of_ne_root (Component.ne_root_of_ofPiece? hp),
        (Component.text_of_ofPiece? hp).2]
      exact ih _

/-- A path leads where its steps lead. -/
theorem location_eq_foldl (p : Path) : p.location = p.components.foldl Location.goOn ⟨false, 0, []⟩ := by
  unfold location
  cases habsolute : p.isAbsolute with
  | true =>
    obtain ⟨rest, hrest⟩ := isAbsolute_iff.1 habsolute
    rw [components_of_absolute hrest, pieces_of_absolute hrest, List.foldl_cons, List.foldl_cons,
      foldl_goOn_filterMap]
    rfl
  | false =>
    unfold components
    rcases pieces_of_relative p habsolute with hp | ⟨c, piece, rest, hp⟩
    · rw [hp]
      rfl
    · rw [hp]
      split
      · next he => cases he
      · next he => cases he
      · next hdot =>
        obtain ⟨hpiece, rfl⟩ := List.cons.inj hdot
        rw [hpiece, List.foldl_cons, List.foldl_cons, foldl_goOn_filterMap]
        rfl
      · rw [foldl_goOn_filterMap]

/-- Only at the start of a path there may be the root or a dot. -/
theorem components_cases (p : Path) : ∃ lead steps, p.components = lead ++ steps ∧
    (lead = [] ∨ lead = [.root] ∨ lead = [.current]) ∧ ∀ step ∈ steps, step = .up ∨ ∃ name, step = .name name := by
  have hsteps (pieces : List (List Char)) (step : Component) (hs : step ∈ pieces.filterMap Component.ofPiece?) :
      step = .up ∨ ∃ name, step = .name name := by
    obtain ⟨piece, _, hpiece⟩ := List.mem_filterMap.1 hs
    exact (Component.text_of_ofPiece? hpiece).1
  unfold components
  split
  · exact ⟨[], [], rfl, .inl rfl, fun step hs => absurd hs List.not_mem_nil⟩
  · next rest _ _ => exact ⟨[.root], _, rfl, .inr (.inl rfl), hsteps rest⟩
  · next rest _ => exact ⟨[.current], _, rfl, .inr (.inr rfl), hsteps rest⟩
  · exact ⟨[], _, rfl, .inl rfl, hsteps _⟩

/-! ## Steps without the last one -/

private theorem filterMap_dropWhile_isIdle (pieces : List (List Char)) :
    (pieces.dropWhile isIdle).filterMap Component.ofPiece? = pieces.filterMap Component.ofPiece? := by
  induction pieces with
  | nil => rfl
  | cons piece pieces ih =>
    rw [List.dropWhile_cons]
    split
    · next hidle => rw [ih, List.filterMap_cons_none (Option.isNone_iff_eq_none.1 hidle)]
    · rfl

/-- Behind the idle pieces at the front there is nothing, or a step. -/
private theorem dropWhile_isIdle_cases (pieces : List (List Char)) : pieces.dropWhile isIdle = [] ∨
    ∃ piece rest step, pieces.dropWhile isIdle = piece :: rest ∧ Component.ofPiece? piece = some step := by
  cases hd : pieces.dropWhile isIdle with
  | nil => exact .inl rfl
  | cons piece rest =>
    have hpiece : isIdle piece = false := by
      have hhead := List.head?_dropWhile_not isIdle pieces
      rw [hd] at hhead
      exact hhead
    obtain ⟨step, hstep⟩ := Option.isSome_iff_exists.1 (Option.isNone_eq_false_iff.1 hpiece)
    exact .inr ⟨piece, rest, step, rfl, hstep⟩

/-- There is no last step to drop only where there is no step at all. -/
private theorem filterMap_of_dropLastStep?_eq_none {pieces : List (List Char)}
    (h : dropLastStep? pieces.reverse = none) : pieces.filterMap Component.ofPiece? = [] := by
  unfold dropLastStep? at h
  rw [← List.reverse_eq_nil_iff, ← List.filterMap_reverse, ← filterMap_dropWhile_isIdle]
  rcases dropWhile_isIdle_cases pieces.reverse with hd | ⟨piece, rest, step, hd, _⟩
  · rw [hd]
    rfl
  · rw [hd] at h
    cases h

/-- What is kept are pieces from the start, with all steps but the last one. -/
private theorem exists_step_of_dropLastStep? {pieces kept : List (List Char)}
    (h : dropLastStep? pieces.reverse = some kept) : ∃ step, step ≠ .root ∧ kept.reverse <+: pieces ∧
      pieces.filterMap Component.ofPiece? = kept.reverse.filterMap Component.ofPiece? ++ [step] := by
  unfold dropLastStep? at h
  rcases dropWhile_isIdle_cases pieces.reverse with hd | ⟨piece, rest, step, hd, hstep⟩
  · rw [hd] at h
    cases h
  · rw [hd] at h
    obtain rfl := Option.some.inj h
    refine ⟨step, Component.ne_root_of_ofPiece? hstep, ?_, ?_⟩
    · have hrest : rest <:+ pieces.reverse :=
        (hd ▸ List.suffix_cons piece rest).trans (List.dropWhile_suffix isIdle)
      rw [← List.reverse_suffix, List.reverse_reverse]
      exact (List.dropWhile_suffix isIdle).trans hrest
    · rw [← List.reverse_inj, ← List.filterMap_reverse, ← filterMap_dropWhile_isIdle, hd,
        List.filterMap_cons_some hstep, List.reverse_append, ← List.filterMap_reverse, List.reverse_reverse,
        filterMap_dropWhile_isIdle]
      rfl

/-! ## Steps by the first piece -/

private theorem components_of_root {rest : List (List Char)} (h : p.pieces = [] :: rest) (hne : rest ≠ []) :
    p.components = .root :: rest.filterMap Component.ofPiece? := by
  obtain ⟨piece, more, rfl⟩ := List.exists_cons_of_ne_nil hne
  rw [components, h]

private theorem components_of_dot {rest : List (List Char)} (h : p.pieces = ['.'] :: rest) :
    p.components = .current :: rest.filterMap Component.ofPiece? := by
  rw [components, h]
  rfl

private theorem components_of_step {first : List Char} {rest : List (List Char)} (h : p.pieces = first :: rest)
    (hempty : first ≠ []) (hdot : first ≠ ['.']) :
    p.components = (first :: rest).filterMap Component.ofPiece? := by
  rw [components, h]
  split
  · next he => exact absurd (List.cons.inj he).1 hempty
  · next he => exact absurd (List.cons.inj he).1 hempty
  · next he => exact absurd (List.cons.inj he).1 hdot
  · rfl

/-! ## Steps of what pieces are put together to -/

variable {pieces : List (List Char)}

private theorem pieces_joinPieces (hne : pieces ≠ []) (hs : ∀ piece ∈ pieces, separator ∉ piece) :
    (Path.mk (String.ofList (joinPieces pieces))).pieces = pieces := by
  rw [Path.pieces, String.toList_ofList]
  exact Text.split_intercalate hne hs

private theorem components_joinPieces_root (hs : ∀ piece ∈ pieces, separator ∉ piece) :
    (Path.mk (String.ofList (separator :: joinPieces pieces))).components =
      .root :: pieces.filterMap Component.ofPiece? := by
  cases pieces with
  | nil => rfl
  | cons first more =>
    have hpieces : (Path.mk (String.ofList (joinPieces ([] :: first :: more)))).pieces = [] :: first :: more :=
      pieces_joinPieces (List.cons_ne_nil _ _) (List.forall_mem_cons.2 ⟨List.not_mem_nil, hs⟩)
    exact components_of_root hpieces (List.cons_ne_nil _ _)

private theorem components_joinPieces_dot (hs : ∀ piece ∈ pieces, separator ∉ piece) :
    (Path.mk (String.ofList (joinPieces (['.'] :: pieces)))).components =
      .current :: pieces.filterMap Component.ofPiece? :=
  components_of_dot (pieces_joinPieces (List.cons_ne_nil _ _) (List.forall_mem_cons.2 ⟨by decide, hs⟩))

private theorem components_joinPieces_step (hs : ∀ piece ∈ pieces, separator ∉ piece)
    (hfirst : ∀ piece ∈ pieces.head?, piece ≠ [] ∧ piece ≠ ['.']) :
    (Path.mk (String.ofList (joinPieces pieces))).components = pieces.filterMap Component.ofPiece? := by
  cases pieces with
  | nil => rfl
  | cons first more =>
    obtain ⟨hempty, hdot⟩ := hfirst first rfl
    exact components_of_step (pieces_joinPieces (List.cons_ne_nil _ _) hs) hempty hdot

/-! ## The path above -/

/-- The path above is what the path is without its last step. -/
theorem components_of_parent? (h : p.parent? = some parent) :
    ∃ step, step ≠ .root ∧ p.components = parent.components ++ [step] := by
  have hsep : ∀ piece ∈ p.pieces, separator ∉ piece := fun _ hp => Text.sep_notMem_of_mem_split hp
  have hkeeps {first : List Char} {rest kept : List (List Char)} (hp : p.pieces = first :: rest)
      (hfront : kept <+: rest) : ∀ piece ∈ kept, separator ∉ piece := fun piece hm =>
    hsep piece (hp ▸ List.mem_cons_of_mem _ (hfront.mem hm))
  unfold parent? at h
  split at h
  · cases h
  · next rest hempty hp =>
    obtain ⟨kept, hkept, rfl⟩ := Option.map_eq_some_iff.1 h
    obtain ⟨step, hroot, hfront, hsteps⟩ := exists_step_of_dropLastStep? hkept
    exact ⟨step, hroot, by
      rw [components_of_root hp hempty, components_joinPieces_root (hkeeps hp hfront), hsteps, List.cons_append]⟩
  · next rest hp =>
    split at h
    · next hnone =>
      -- The dot itself is the last step.
      obtain rfl := Option.some.inj h
      refine ⟨.current, Component.noConfusion, ?_⟩
      rw [components_of_dot hp, filterMap_of_dropLastStep?_eq_none hnone]
      rfl
    · next kept hkept =>
      obtain rfl := Option.some.inj h
      obtain ⟨step, hroot, hfront, hsteps⟩ := exists_step_of_dropLastStep? hkept
      exact ⟨step, hroot, by
        rw [components_of_dot hp, components_joinPieces_dot (hkeeps hp hfront), hsteps, List.cons_append]⟩
  · next hempty hroot hdot =>
    obtain ⟨kept, hkept, rfl⟩ := Option.map_eq_some_iff.1 h
    obtain ⟨step, hstep, hfront, hsteps⟩ := exists_step_of_dropLastStep? hkept
    obtain ⟨first, rest, hp⟩ : ∃ first rest, p.pieces = first :: rest :=
      List.exists_cons_of_ne_nil (Text.split_ne_nil _ _)
    have hfirst : first ≠ [] ∧ first ≠ ['.'] :=
      ⟨fun he => hroot rest (he ▸ hp), fun he => hdot rest (he ▸ hp)⟩
    -- What is kept starts with the first piece, so it is read as it was written.
    have hstarts : ∀ piece ∈ kept.reverse.head?, piece ≠ [] ∧ piece ≠ ['.'] := by
      intro piece hm
      obtain ⟨more, hk⟩ := List.head?_eq_some_iff.1 hm
      rw [hk, hp] at hfront
      rw [(List.cons_prefix_cons.1 hfront).1]
      exact hfirst
    refine ⟨step, hstep, ?_⟩
    rw [components_of_step hp hfirst.1 hfirst.2, ← hp,
      components_joinPieces_step (fun piece hm => hsep piece (hfront.mem hm)) hstarts, hsteps]

/-- Only the root and the empty path have none above them. -/
theorem components_of_parent?_eq_none (h : p.parent? = none) : p.components = [] ∨ p.components = [.root] := by
  unfold parent? at h
  split at h
  · next hp =>
    rw [components, hp]
    exact .inl rfl
  · next rest hempty hp =>
    have hsteps := filterMap_of_dropLastStep?_eq_none (Option.map_eq_none_iff.1 h)
    exact .inr (by rw [components_of_root hp hempty, hsteps])
  · split at h <;> cases h
  · next hempty hroot hdot =>
    have hsteps := filterMap_of_dropLastStep?_eq_none (Option.map_eq_none_iff.1 h)
    obtain ⟨first, rest, hp⟩ : ∃ first rest, p.pieces = first :: rest :=
      List.exists_cons_of_ne_nil (Text.split_ne_nil _ _)
    -- The first piece stands for a step.
    have hfirst := List.filterMap_eq_nil_iff.1 hsteps first (hp ▸ List.mem_cons_self)
    rcases Component.ofPiece?_eq_none_iff.1 hfirst with rfl | rfl
    · exact (hroot rest hp).elim
    · exact (hdot rest hp).elim

/-- From the path above, the last step leads where the path leads. -/
theorem location_of_parent? (hs : p.components = parent.components ++ [step])
    (hroot : step ≠ .root) : p.location = parent.location.walk step.text.toList := by
  rw [location_eq_foldl, hs, List.foldl_append, ← location_eq_foldl, List.foldl_cons, List.foldl_nil,
    Location.goOn_of_ne_root hroot]

/-- A path has one step more than the one above it. -/
theorem length_components_of_parent? (h : p.parent? = some parent) :
    p.components.length = parent.components.length + 1 := by
  obtain ⟨step, _, hs⟩ := components_of_parent? h
  rw [hs, List.length_append, List.length_singleton]

private theorem parent?_ofNames_nil : (ofNames []).parent? = none := by decide

/-- Above a canonical path is the one without its last name. -/
theorem parent?_ofNames_concat {name : String} (h : ∀ other ∈ names ++ [name], IsName other) :
    (ofNames (names ++ [name])).parent? = some (ofNames names) := by
  have hidle (other : String) (ho : other ∈ names ++ [name]) : isIdle other.toList = false := by
    rw [isIdle, (h other ho).1]
    rfl
  have hkept : (names.map String.toList).reverse.dropWhile isIdle = (names.map String.toList).reverse := by
    rw [← List.map_reverse]
    cases hr : names.reverse with
    | nil => rfl
    | cons last rest =>
      have hlast : last ∈ names := List.mem_reverse.1 (hr ▸ List.mem_cons_self)
      rw [List.map_cons, List.dropWhile_cons, hidle last (List.mem_append_left _ hlast)]
      rfl
  have hdrop : dropLastStep? ((names ++ [name]).map String.toList).reverse =
      some (names.map String.toList).reverse := by
    rw [dropLastStep?, List.map_append, List.map_singleton, List.reverse_append, List.reverse_singleton,
      List.singleton_append, List.dropWhile_cons, hidle name (by simp)]
    exact congrArg some hkept
  have hpieces : (ofNames (names ++ [name])).pieces = [] :: (names ++ [name]).map String.toList := by
    rw [pieces_ofNames h, if_neg (by simp)]
  rw [parent?, hpieces]
  split
  · next he => simp at he
  · next rest hempty he =>
    obtain rfl := (List.cons.inj he).2
    rw [hdrop, Option.map_some, List.reverse_reverse, joinPieces, ← toList_ofNames, String.ofList_toList]
  · next he => cases he
  · next hroot _ => exact (hroot _ rfl).elim

/-! ## The way up -/

/-- A path and those above it, up to the one that has none above it. -/
def lineage (p : Path) : List Path :=
  p :: match _h : p.parent? with
    | none => []
    | some parent => lineage parent
termination_by p.components.length
decreasing_by
  rw [length_components_of_parent? _h]
  exact Nat.lt_succ_self _

theorem lineage_of_parent?_eq_none (h : p.parent? = none) : p.lineage = [p] := by
  rw [lineage]
  split
  · rfl
  · next parent hp =>
    rw [h] at hp
    cases hp

/-- The way up goes on from the path above. -/
theorem lineage_of_parent? (h : p.parent? = some parent) : p.lineage = p :: parent.lineage := by
  rw [lineage]
  split
  · next hp =>
    rw [h] at hp
    cases hp
  · next other hp =>
    rw [h] at hp
    rw [Option.some.inj hp]

theorem getElem?_lineage_zero (p : Path) : p.lineage[0]? = some p := by
  rw [lineage]
  rfl

/-- On the way up each path is the one above the path before it. -/
theorem getElem?_lineage_succ (p : Path) (k : Nat) : p.lineage[k + 1]? = p.lineage[k]?.bind parent? := by
  induction p using lineage.induct generalizing k with
  | case1 p ih =>
    cases h : p.parent? with
    | none =>
      rw [lineage_of_parent?_eq_none h]
      cases k with
      | zero => exact h.symm
      | succ k => rfl
    | some parent =>
      rw [lineage_of_parent? h]
      cases k with
      | zero => exact parent.getElem?_lineage_zero.trans h.symm
      | succ k => exact ih parent h k

private theorem length_components_le_of_mem_lineage {above : Path} (h : above ∈ p.lineage) :
    above.components.length ≤ p.components.length := by
  induction p using lineage.induct with
  | case1 p ih =>
    cases hp : p.parent? with
    | none =>
      rw [lineage_of_parent?_eq_none hp] at h
      obtain rfl := List.mem_singleton.1 h
      exact Nat.le_refl _
    | some parent =>
      rw [lineage_of_parent? hp] at h
      rcases List.mem_cons.1 h with rfl | h
      · exact Nat.le_refl _
      · have hle := ih parent hp h
        have hlength := length_components_of_parent? hp
        omega

/-- The way up gets shorter with each step, so that no two paths on it are the same. -/
theorem pairwise_lineage (p : Path) :
    p.lineage.Pairwise fun below above => above.components.length < below.components.length := by
  induction p using lineage.induct with
  | case1 p ih =>
    cases h : p.parent? with
    | none =>
      rw [lineage_of_parent?_eq_none h]
      exact List.pairwise_singleton _ _
    | some parent =>
      rw [lineage_of_parent? h, List.pairwise_cons]
      refine ⟨fun above ha => ?_, ih parent h⟩
      rw [length_components_of_parent? h]
      exact Nat.lt_succ_of_le (length_components_le_of_mem_lineage ha)

/-- From a canonical path the way up ends at the root. -/
theorem getLast?_lineage (h : p.IsCanonical) : p.lineage.getLast? = some (ofNames []) := by
  induction p using lineage.induct with
  | case1 p ih =>
    obtain ⟨names, hnames, rfl⟩ := isCanonical_iff.1 h
    rcases List.eq_nil_or_concat names with rfl | ⟨before, last, rfl⟩
    · rw [lineage_of_parent?_eq_none parent?_ofNames_nil, List.getLast?_singleton]
    · rw [List.concat_eq_append] at hnames ih ⊢
      have hparent := parent?_ofNames_concat hnames
      have hbefore := isCanonical_ofNames fun name hn => hnames name (List.mem_append_left _ hn)
      rw [lineage_of_parent? hparent, List.getLast?_cons, ih _ hparent hbefore, Option.getD_some]

end ScriptModules.Path
