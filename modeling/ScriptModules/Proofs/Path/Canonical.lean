import ScriptModules.Path.Basic

/-!
# Canonical absolute paths

What an absolute path denotes is a list of names, and its canonical spelling is that of the names
(`Path.isCanonical_iff`).  Whatever is seen from an absolute path is absolute, and canonical once it is normalized.
-/

namespace ScriptModules

/-! ## Pieces -/

namespace Component

variable {piece : List Char} {step : Component}

theorem ofPiece?_eq_none_iff : ofPiece? piece = none ↔ piece = [] ∨ piece = ['.'] := by
  constructor
  · intro h
    unfold ofPiece? at h
    split at h
    · exact .inl rfl
    · exact .inr rfl
    · cases h
    · cases h
  · rintro (rfl | rfl) <;> rfl

/-- A piece stands for a step up or a name, and is the text of that. -/
theorem text_of_ofPiece? (h : ofPiece? piece = some step) :
    (step = .up ∨ ∃ name, step = .name name) ∧ step.text.toList = piece := by
  unfold ofPiece? at h
  split at h
  · cases h
  · cases h
  · obtain rfl := Option.some.inj h
    exact ⟨.inl rfl, rfl⟩
  · obtain rfl := Option.some.inj h
    exact ⟨.inr ⟨_, rfl⟩, String.toList_ofList⟩

theorem ne_root_of_ofPiece? (h : ofPiece? piece = some step) : step ≠ .root := by
  rintro rfl
  rcases (text_of_ofPiece? h).1 with hup | ⟨name, hname⟩
  · cases hup
  · cases hname

end Component

namespace Path

/-- Does the text name a step between two separators? -/
def IsName (text : String) : Prop :=
  Component.ofPiece? text.toList = some (.name text) ∧ separator ∉ text.toList

/-- The path of some names from the root. -/
def ofNames (names : List String) : Path := ofComponents (.root :: names.map .name)

/-- Is the path absolute, and written in its canonical spelling? -/
structure IsCanonical (p : Path) : Prop where
  absolute : p.isAbsolute = true
  normal : p.normalize = p

variable {p q : Path} {names : List String}

/-! ## Names -/

/-- A name is not empty, is neither of the two steps of dots, and holds no separator. -/
theorem isName_iff {text : String} : IsName text ↔
    text.toList ≠ [] ∧ text.toList ≠ ['.'] ∧ text.toList ≠ ['.', '.'] ∧ separator ∉ text.toList := by
  constructor
  · rintro ⟨h, hsep⟩
    refine ⟨?_, ?_, ?_, hsep⟩ <;>
    · intro he
      rw [he] at h
      cases h
  · rintro ⟨hempty, hdot, hup, hsep⟩
    refine ⟨?_, hsep⟩
    unfold Component.ofPiece?
    split
    · contradiction
    · contradiction
    · contradiction
    · rw [String.ofList_toList]

/-- A name stays one with something behind it. -/
theorem IsName.append {name suffix : String} (h : IsName name) (hs : separator ∉ suffix.toList) :
    IsName (name ++ suffix) := by
  obtain ⟨hempty, hdot, hup, hsep⟩ := isName_iff.1 h
  obtain ⟨c, cs, hname⟩ := List.exists_cons_of_ne_nil hempty
  rw [hname] at hdot hup
  rw [isName_iff, String.toList_append, hname, List.cons_append]
  refine ⟨nofun, fun he => ?_, fun he => ?_, fun hm => ?_⟩
  · -- Only the name itself could be the dot.
    obtain ⟨rfl, hrest⟩ := List.cons.inj he
    rw [(List.append_eq_nil_iff.1 hrest).1] at hdot
    contradiction
  · obtain ⟨rfl, hrest⟩ := List.cons.inj he
    cases cs with
    | nil => contradiction
    | cons d cs =>
      obtain ⟨rfl, hnil⟩ := List.cons.inj hrest
      rw [(List.append_eq_nil_iff.1 hnil).1] at hup
      contradiction
  · rw [← List.cons_append, ← hname] at hm
    exact (List.mem_append.1 hm).elim hsep hs

/-- A piece between separators that stands for a name is one. -/
theorem isName_of_piece {piece : List Char} {name : String} (hsep : separator ∉ piece)
    (h : Component.ofPiece? piece = some (.name name)) : IsName name := by
  have htext : name.toList = piece := (Component.text_of_ofPiece? h).2
  exact ⟨by rw [htext, h], by rwa [htext]⟩

private theorem step_of_piece {piece : List Char} {step : Component} (hsep : separator ∉ piece)
    (h : Component.ofPiece? piece = some step) : step = .up ∨ ∃ name, IsName name ∧ step = .name name := by
  rcases (Component.text_of_ofPiece? h).1 with rfl | ⟨name, rfl⟩
  · exact .inl rfl
  · exact .inr ⟨name, isName_of_piece hsep h, rfl⟩

/-! ## The steps of an absolute path -/

theorem isAbsolute_iff : p.isAbsolute = true ↔ ∃ rest, p.text.toList = separator :: rest := by
  rw [isAbsolute, beq_iff_eq, List.head?_eq_some_iff]

theorem pieces_of_absolute {rest : List Char} (h : p.text.toList = separator :: rest) :
    p.pieces = [] :: Text.split separator rest := by
  rw [pieces, h, Text.split, if_pos rfl]

/-- The steps of an absolute path are the root and what its pieces stand for. -/
theorem components_of_absolute {rest : List Char} (h : p.text.toList = separator :: rest) :
    p.components = .root :: (Text.split separator rest).filterMap Component.ofPiece? := by
  unfold components
  rw [pieces_of_absolute h]
  obtain ⟨piece, pieces, hs⟩ := List.exists_cons_of_ne_nil (Text.split_ne_nil separator rest)
  rw [hs]

/-- After the root there are only names and steps up. -/
theorem steps_of_absolute (h : p.isAbsolute = true) :
    ∃ steps, p.components = .root :: steps ∧
      ∀ step ∈ steps, step = .up ∨ ∃ name, IsName name ∧ step = .name name := by
  obtain ⟨rest, hrest⟩ := isAbsolute_iff.1 h
  refine ⟨_, components_of_absolute hrest, fun step hs => ?_⟩
  obtain ⟨piece, hpiece, hstep⟩ := List.mem_filterMap.1 hs
  exact step_of_piece (Text.sep_notMem_of_mem_split hpiece) hstep

/-- Folding keeps a list of names on top of the root. -/
private theorem foldl_foldStep {steps : List Component}
    (h : ∀ step ∈ steps, step = .up ∨ ∃ name, IsName name ∧ step = .name name) (done : List String)
    (hd : ∀ name ∈ done, IsName name) :
    ∃ names : List String, (∀ name ∈ names, IsName name) ∧
      steps.foldl foldStep (done.map .name ++ [.root]) = names.map .name ++ [.root] := by
  induction steps generalizing done with
  | nil => exact ⟨done, hd, rfl⟩
  | cons step steps ih =>
    have hsteps (step : Component) (hs : step ∈ steps) := h step (List.mem_cons_of_mem _ hs)
    rw [List.foldl_cons]
    rcases h step List.mem_cons_self with rfl | ⟨name, hname, rfl⟩
    · cases done with
      | nil => exact ih hsteps [] nofun
      | cons last done => exact ih hsteps done fun name hn => hd name (List.mem_cons_of_mem _ hn)
    · have hfold : foldStep (done.map .name ++ [.root]) (.name name) =
          (name :: done).map .name ++ [.root] := by
        cases done <;> rfl
      rw [hfold]
      refine ih hsteps (name :: done) fun other ho => ?_
      rcases List.mem_cons.1 ho with rfl | ho
      · exact hname
      · exact hd other ho

/-- What is left of an absolute path when it is folded are names. -/
theorem foldedComponents_of_absolute (h : p.isAbsolute = true) :
    ∃ names : List String, (∀ name ∈ names, IsName name) ∧ p.foldedComponents = .root :: names.map .name := by
  obtain ⟨steps, hp, hsteps⟩ := steps_of_absolute h
  obtain ⟨names, hnames, hfold⟩ := foldl_foldStep hsteps [] nofun
  refine ⟨names.reverse, fun name hn => hnames name (List.mem_reverse.1 hn), ?_⟩
  rw [foldedComponents, hp, List.foldl_cons, show foldStep [] .root = [.root] from rfl,
    show [Component.root] = ([] : List String).map .name ++ [.root] from rfl, hfold]
  simp

/-- The canonical spelling of an absolute path is that of some names. -/
theorem normalize_of_absolute (h : p.isAbsolute = true) :
    ∃ names : List String, (∀ name ∈ names, IsName name) ∧ p.normalize = ofNames names := by
  obtain ⟨names, hnames, hfolded⟩ := foldedComponents_of_absolute h
  refine ⟨names, hnames, ?_⟩
  rw [normalize, hfolded]
  rfl

/-! ## The paths of names -/

/-- The path of some names is written with a separator before each of them. -/
theorem text_ofNames (names : List String) : (ofNames names).text = "/" ++ "/".intercalate names := by
  have hmap : (names.map Component.name).map Component.text = names := by
    rw [List.map_map]
    exact List.map_id names
  change "/" ++ "/".intercalate ((names.map Component.name).map Component.text) = _
  rw [hmap]

theorem toList_ofNames (names : List String) :
    (ofNames names).text.toList = separator :: [separator].intercalate (names.map String.toList) := by
  rw [text_ofNames, String.toList_append, String.toList_intercalate]
  rfl

theorem isAbsolute_ofNames (names : List String) : (ofNames names).isAbsolute = true :=
  isAbsolute_iff.2 ⟨_, toList_ofNames names⟩

theorem pieces_ofNames (h : ∀ name ∈ names, IsName name) :
    (ofNames names).pieces = [] :: if names = [] then [[]] else names.map String.toList := by
  rw [pieces_of_absolute (toList_ofNames names)]
  split
  · next he =>
    subst he
    rfl
  · next hne =>
    rw [Text.split_intercalate (by simpa using hne)]
    intro piece hp
    obtain ⟨name, hn, rfl⟩ := List.mem_map.1 hp
    exact (h name hn).2

/-- The steps of a path of names are the root and the names. -/
theorem components_ofNames (h : ∀ name ∈ names, IsName name) :
    (ofNames names).components = .root :: names.map .name := by
  rw [components_of_absolute (toList_ofNames names),
    (List.cons.inj ((pieces_of_absolute (toList_ofNames names)).symm.trans (pieces_ofNames h))).2]
  split
  · next he =>
    subst he
    rfl
  · have hsome (names : List String) (h : ∀ name ∈ names, IsName name) :
        (names.map String.toList).filterMap Component.ofPiece? = names.map .name := by
      induction names with
      | nil => rfl
      | cons name names ih =>
        rw [List.map_cons, List.filterMap_cons, (h name List.mem_cons_self).1, List.map_cons,
          ih fun other ho => h other (List.mem_cons_of_mem _ ho)]
    rw [hsome names h]

/-- A name is never folded away by itself. -/
theorem foldStep_name (done : List Component) (name : String) : foldStep done (.name name) = .name name :: done := by
  cases done with
  | nil => rfl
  | cons step done => cases step <;> rfl

private theorem normalize_ofNames (h : ∀ name ∈ names, IsName name) : (ofNames names).normalize = ofNames names := by
  have hfold (names : List String) (done : List Component) :
      (names.map Component.name).foldl foldStep done = (names.map Component.name).reverse ++ done := by
    induction names generalizing done with
    | nil => rfl
    | cons name names ih =>
      rw [List.map_cons, List.foldl_cons, foldStep_name, ih, List.reverse_cons, List.append_assoc, List.singleton_append]
  have hfolded : (ofNames names).foldedComponents = .root :: names.map .name := by
    rw [foldedComponents, components_ofNames h, List.foldl_cons, hfold]
    simp [foldStep]
  rw [normalize, hfolded]
  rfl

/-- The canonical absolute paths are those of names. -/
theorem isCanonical_iff : p.IsCanonical ↔ ∃ names : List String, (∀ name ∈ names, IsName name) ∧ p = ofNames names := by
  constructor
  · intro h
    obtain ⟨names, hnames, hp⟩ := normalize_of_absolute h.absolute
    exact ⟨names, hnames, h.normal.symm.trans hp⟩
  · rintro ⟨names, hnames, rfl⟩
    exact ⟨isAbsolute_ofNames names, normalize_ofNames hnames⟩

theorem isCanonical_ofNames (h : ∀ name ∈ names, IsName name) : (ofNames names).IsCanonical :=
  isCanonical_iff.2 ⟨names, h, rfl⟩

/-- An absolute path is made canonical. -/
theorem isCanonical_normalize (h : p.isAbsolute = true) : p.normalize.IsCanonical :=
  isCanonical_iff.2 (normalize_of_absolute h)

/-! ## What is seen from an absolute path -/

private theorem isAbsolute_append (h : p.isAbsolute = true) (text : String) :
    (Path.mk (p.text ++ text)).isAbsolute = true := by
  obtain ⟨rest, hrest⟩ := isAbsolute_iff.1 h
  exact isAbsolute_iff.2 ⟨rest ++ text.toList, by rw [String.toList_append, hrest, List.cons_append]⟩

/-- What an absolute path is joined with does not make it relative. -/
theorem isAbsolute_join (h : p.isAbsolute = true) (q : Path) : (p.join q).isAbsolute = true := by
  obtain ⟨rest, hrest⟩ := isAbsolute_iff.1 h
  unfold join
  split
  · assumption
  · split
    · next hlast =>
      rw [hrest, List.getLast?_eq_none_iff] at hlast
      contradiction
    · split
      · exact isAbsolute_append h _
      · rw [String.append_assoc]
        exact isAbsolute_append h _

/-- What is resolved from an absolute path is canonical. -/
theorem isCanonical_resolveFrom (h : p.isAbsolute = true) (q : Path) : (resolveFrom p q).IsCanonical :=
  isCanonical_normalize (isAbsolute_join h q)

/-- An absolute path is the same from everywhere. -/
theorem resolveFrom_of_absolute (base : Path) (h : q.isAbsolute = true) : resolveFrom base q = q.normalize := by
  rw [resolveFrom, join, if_pos h]

/-- From an absolute working directory every path is made canonical. -/
theorem isCanonical_absolutize (p : Path) {cwd : Path} (h : cwd.isAbsolute = true) :
    (p.absolutize cwd).IsCanonical := by
  unfold absolutize
  split
  · next hp => exact isCanonical_normalize hp
  · exact isCanonical_resolveFrom h p

theorem isAbsolute_parent? (h : p.isAbsolute = true) {parent : Path} (hp : p.parent? = some parent) :
    parent.isAbsolute = true := by
  obtain ⟨rest, hrest⟩ := isAbsolute_iff.1 h
  obtain ⟨piece, pieces, hs⟩ := List.exists_cons_of_ne_nil (Text.split_ne_nil separator rest)
  rw [parent?, pieces_of_absolute hrest, hs] at hp
  obtain ⟨kept, _, rfl⟩ := Option.map_eq_some_iff.1 hp
  exact isAbsolute_iff.2 ⟨_, String.toList_ofList⟩

theorem isPathSpecifier_of_absolute (h : p.isAbsolute = true) : isPathSpecifier p.text = true := by
  obtain ⟨rest, hrest⟩ := isAbsolute_iff.1 h
  obtain ⟨piece, pieces, hs⟩ := List.exists_cons_of_ne_nil (Text.split_ne_nil separator rest)
  rw [isPathSpecifier, show Text.split separator p.text.toList = [] :: piece :: pieces from
    (pieces_of_absolute hrest).trans (congrArg _ hs)]

/-! ## What is appended to a canonical path -/

/-- What stands before the last name of a path. -/
private def lead (names : List String) : String := if names = [] then "/" else (ofNames names).text ++ "/"

private theorem text_ofNames_concat (names : List String) (name : String) :
    (ofNames (names ++ [name])).text = lead names ++ name := by
  unfold lead
  split
  · next he =>
    subst he
    rw [text_ofNames]
    simp
  · next hne =>
    rw [← String.toList_inj, toList_ofNames, List.map_append, List.map_singleton,
      Text.intercalate_concat (by simpa using hne), String.toList_append, String.toList_append, toList_ofNames]
    simp [separator]

/-- The root, or a path that ends with a name. -/
theorem IsCanonical.cases (hp : p.IsCanonical) : p = ofNames [] ∨ ∃ before last,
    (∀ name ∈ before, IsName name) ∧ IsName last ∧ p = ofNames (before ++ [last]) := by
  obtain ⟨names, hnames, rfl⟩ := isCanonical_iff.1 hp
  rcases List.eq_nil_or_concat names with rfl | ⟨before, last, rfl⟩
  · exact .inl rfl
  · refine .inr ⟨before, last, fun name hn => hnames name ?_, hnames last ?_, by rw [List.concat_eq_append]⟩
    · simp [hn]
    · simp

private theorem isCanonical_concat {name : String} (h : ∀ name ∈ names, IsName name) (hn : IsName name) :
    (ofNames (names ++ [name])).IsCanonical := by
  refine isCanonical_ofNames fun other ho => ?_
  rcases List.mem_append.1 ho with ho | ho
  · exact h other ho
  · exact List.mem_singleton.1 ho ▸ hn

/-- A name that is appended to a canonical path makes one. -/
theorem IsCanonical.join (hp : p.IsCanonical) {name : String} (hn : IsName name) :
    (p.join ⟨name⟩).IsCanonical := by
  have hrelative : ¬(Path.mk name).isAbsolute = true := by
    intro h
    obtain ⟨rest, hrest⟩ := isAbsolute_iff.1 h
    exact hn.2 (hrest ▸ List.mem_cons_self)
  rcases hp.cases with rfl | ⟨before, last, hbefore, hlast, rfl⟩
  · have hjoin : (ofNames []).join ⟨name⟩ = ofNames ([] ++ [name]) := by
      rw [Path.join, if_neg hrelative]
      exact congrArg Path.mk (text_ofNames_concat [] name).symm
    rw [hjoin]
    exact isCanonical_concat nofun hn
  · have hnames : ∀ other ∈ before ++ [last], IsName other := by
      intro other ho
      rcases List.mem_append.1 ho with ho | ho
      · exact hbefore other ho
      · exact List.mem_singleton.1 ho ▸ hlast
    -- The last character belongs to a name, so a separator is put in between.
    obtain ⟨c, hc, hsep⟩ : ∃ c, (ofNames (before ++ [last])).text.toList.getLast? = some c ∧ c ≠ separator := by
      have hne : last.toList ≠ [] := (isName_iff.1 hlast).1
      refine ⟨last.toList.getLast hne, ?_, fun he => hlast.2 (he ▸ List.getLast_mem hne)⟩
      rw [text_ofNames_concat, String.toList_append, List.getLast?_append, List.getLast?_eq_some_getLast hne]
      rfl
    have hjoin : (ofNames (before ++ [last])).join ⟨name⟩ = ofNames (before ++ [last] ++ [name]) := by
      rw [Path.join, if_neg hrelative, hc]
      simp only [if_neg hsep]
      refine congrArg Path.mk ((text_ofNames_concat (before ++ [last]) name).trans ?_).symm
      rw [lead, if_neg (by simp)]
    rw [hjoin]
    exact isCanonical_concat hnames hn

/-- A suffix that is appended to a canonical path makes one, or a spelling of the root. -/
theorem IsCanonical.append (hp : p.IsCanonical) {suffix : String} (hs : separator ∉ suffix.toList) :
    (Path.mk (p.text ++ suffix)).IsCanonical ∨ (Path.mk (p.text ++ suffix)).normalize = ofNames [] := by
  rcases hp.cases with rfl | ⟨before, last, hbefore, hlast, rfl⟩
  · have htext : (ofNames []).text ++ suffix = (ofNames ([] ++ [suffix])).text := (text_ofNames_concat [] suffix).symm
    by_cases hn : IsName suffix
    · rw [htext]
      exact .inl (isCanonical_concat nofun hn)
    · have hidle : suffix.toList = [] ∨ suffix.toList = ['.'] ∨ suffix.toList = ['.', '.'] := by
        simp only [isName_iff, hs, not_false_eq_true, and_true, ne_eq, not_and, Decidable.not_not] at hn
        by_cases he : suffix.toList = []
        · exact .inl he
        · by_cases hd : suffix.toList = ['.']
          · exact .inr (.inl hd)
          · exact .inr (.inr (hn he hd))
      refine .inr ?_
      rw [← String.ofList_toList (s := suffix)]
      rcases hidle with he | he | he <;> rw [he] <;> decide
  · have htext : (ofNames (before ++ [last])).text ++ suffix = (ofNames (before ++ [last ++ suffix])).text := by
      rw [text_ofNames_concat, text_ofNames_concat, String.append_assoc]
    rw [htext]
    exact .inl (isCanonical_concat hbefore (hlast.append hs))

end Path
end ScriptModules
