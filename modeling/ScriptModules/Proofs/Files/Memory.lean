import ScriptModules.Proofs.Resolution.Identity

/-!
# Sites in memory

A walk in a tree ends at a place with directories only on the way to it, so the path of that place leads there
without any link.  Hence resolution can rely on every site in memory (`Site.faithful_view`), and the identities
that it finds there are paths of the tree (`Scene.mem_tree_of_resolve`).
-/

namespace ScriptModules

open ScriptModules.Path Files

namespace Files.Tree

variable {tree : Tree} {place last : Place} {steps rest : List Step} {node : Node} {linked flag : Bool}

/-- A walk that takes names of any length, to read. -/
def reader : Manner := ⟨none, false⟩

/-- Is every place on the way there a directory? -/
def Leads (tree : Tree) (place : Place) : Prop :=
  ∀ before, before <+: place → before ≠ place → tree.find? before = some .directory

/-- A place that has been reached: a directory with directories on the way to it, all of them with names. -/
structure Reached (tree : Tree) (place : Place) : Prop where
  directory : tree.find? place = some .directory
  leads : tree.Leads place
  names : ∀ name ∈ place, IsName name

/-- Does every step into something go by a name? -/
def Named (steps : List Step) : Prop := ∀ name, .into name ∈ steps → IsName name

/-- Where a walk to read may end: at a node that is there and is no link, with directories on the way to it.  Only
with a step into something as its last it may be a file. -/
structure Arrives (tree : Tree) (steps : List Step) (place : Place) (node : Node) : Prop where
  found : tree.find? place = some node
  settled : ∀ target, node ≠ .link target
  leads : tree.Leads place
  names : ∀ name ∈ place, IsName name
  directory : (∀ name, steps.getLast? ≠ some (.into name)) → node = .directory

private theorem reached_root (tree : Tree) : tree.Reached [] :=
  ⟨rfl, fun _ hb hne => absurd (List.prefix_nil.1 hb) hne, nofun⟩

private theorem Reached.leads_concat (h : tree.Reached place) (name : String) : tree.Leads (place ++ [name]) := by
  intro before hb hne
  rcases List.prefix_concat_iff.1 hb with rfl | hb
  · contradiction
  · by_cases he : before = place
    · rw [he]
      exact h.directory
    · exact h.leads before hb he

private theorem Reached.names_concat (h : tree.Reached place) {name : String} (hn : IsName name) :
    ∀ other ∈ place ++ [name], IsName other := by
  intro other ho
  rcases List.mem_append.1 ho with ho | ho
  · exact h.names other ho
  · exact List.mem_singleton.1 ho ▸ hn

private theorem Reached.dropLast (h : tree.Reached place) : tree.Reached place.dropLast := by
  have hinit := List.dropLast_prefix place
  refine ⟨?_, fun before hb hne => ?_, fun name hn => h.names name (hinit.mem hn)⟩
  · by_cases he : place.dropLast = place
    · rw [he]
      exact h.directory
    · exact h.leads _ hinit he
  · refine h.leads before (hb.trans hinit) fun he => hne ?_
    subst he
    exact hb.eq_of_length_le hinit.length_le

/-! ## Where a walk ends -/

private theorem named_stepsOf (text : String) : Named (stepsOf text) := by
  intro name hm
  rcases List.mem_append.1 hm with hm | hm
  · obtain ⟨piece, hp, he⟩ := List.mem_map.1 hm
    have hsep := Text.sep_notMem_of_mem_split (List.mem_filter.1 hp).1
    split at he
    · cases he
    · next other ho =>
      obtain rfl := Step.into.inj he
      exact isName_of_piece hsep ho
    · cases he
  · split at hm
    · cases List.mem_singleton.1 hm
    · cases hm

private theorem getLast?_of_cons {step : Step} (h : ∀ name, (step :: rest).getLast? ≠ some (.into name))
    (name : String) : rest.getLast? ≠ some (.into name) := by
  intro hl
  refine h name ?_
  rw [List.getLast?_cons, hl]
  rfl

private theorem Arrives.cons {step : Step} (h : tree.Arrives rest place node) :
    tree.Arrives (step :: rest) place node :=
  ⟨h.found, h.settled, h.leads, h.names, fun hl => h.directory (getLast?_of_cons hl)⟩

/-- What holds of a walk that has got as far as it can without a link. -/
private def Progress.Sound (tree : Tree) (steps : List Step) : Progress → Prop
  | .arrived (.present place node) => tree.Arrives steps place node
  | .redirected place rest _ => tree.Reached place ∧ Named rest ∧
      ((∀ name, steps.getLast? ≠ some (.into name)) → ∀ name, rest.getLast? ≠ some (.into name))
  | _ => True

private theorem Progress.Sound.cons {step : Step} {progress : Progress} (h : progress.Sound tree rest) :
    progress.Sound tree (step :: rest) := by
  match progress, h with
  | .arrived (.present place node), h => exact Arrives.cons h
  | .redirected place steps _, h => exact ⟨h.1, h.2.1, fun hl => h.2.2 (getLast?_of_cons hl)⟩
  | .arrived (.absent ..), _ => trivial
  | .refused _, _ => trivial

/-- A walk up to the next link ends at a node, or goes on from a place that has been reached. -/
private theorem advance_sound (hp : tree.Reached place) (hn : Named steps) :
    (tree.advance reader place steps).Sound tree steps := by
  induction steps generalizing place with
  | nil => exact ⟨hp.directory, nofun, hp.leads, hp.names, fun _ => rfl⟩
  | cons step rest ih =>
    have hrest : Named rest := fun name hm => hn name (List.mem_cons_of_mem _ hm)
    cases step with
    | stay => exact (ih hp hrest).cons
    | slash => exact (ih hp hrest).cons
    | up => exact (ih hp.dropLast hrest).cons
    | into name =>
      have hname := hn name List.mem_cons_self
      unfold advance
      simp only [reader, Bool.false_and, Manner.isTooLong, Option.any_none, Bool.false_eq_true, if_false]
      cases hf : tree.find? (place ++ [name]) with
      | none =>
        dsimp only
        split <;> trivial
      | some node =>
        cases node with
        | directory => exact (ih ⟨hf, hp.leads_concat name, hp.names_concat hname⟩ hrest).cons
        | file text =>
          dsimp only
          split
          · next he =>
            refine ⟨hf, nofun, hp.leads_concat name, hp.names_concat hname, fun hl => ?_⟩
            rw [List.isEmpty_iff.1 he] at hl
            exact absurd rfl (hl name)
          · trivial
        | link target =>
          refine ⟨?_, ?_, fun hl other => ?_⟩
          · split
            · exact reached_root tree
            · exact hp
          · intro other ho
            exact (List.mem_append.1 ho).elim (named_stepsOf target other) (hrest other)
          · -- The link is not the last step, so the walk still ends with the steps behind it.
            intro he
            rw [List.getLast?_append] at he
            cases hr : rest.getLast? with
            | none =>
              rw [List.getLast?_eq_none_iff.1 hr] at hl
              exact hl name rfl
            | some step =>
              rw [hr] at he
              exact getLast?_of_cons hl other (hr.trans he)

/-- A walk to read ends at a node that is there. -/
theorem arrives_of_walk {links : Nat} (hp : tree.Reached place) (hn : Named steps)
    (h : tree.walk reader links linked place steps = .ok (.present last node)) :
    tree.Arrives steps last node := by
  induction links generalizing linked place steps with
  | zero =>
    have hs := advance_sound hp hn
    unfold walk at h
    split at h
    · cases h
    · next spot _ heq =>
      obtain rfl := Except.ok.inj h
      rwa [heq] at hs
    · cases h
    · cases h
  | succ links ih =>
    have hs := advance_sound hp hn
    unfold walk at h
    split at h
    · cases h
    · next spot _ heq =>
      obtain rfl := Except.ok.inj h
      rwa [heq] at hs
    · cases h
    · next next' rest flag heq =>
      rw [heq] at hs
      have hrest := ih hs.1 hs.2.1 h
      exact ⟨hrest.found, hrest.settled, hrest.leads, hrest.names, fun hl => hrest.directory (hs.2.2 hl)⟩

/-! ## The walk along a place -/

/-- A place with directories on the way to it is found by its names. -/
private theorem advance_names {names : List String} (hd : tree.find? place = some .directory)
    (hw : tree.Leads (place ++ names)) (hf : tree.find? (place ++ names) = some node)
    (hl : ∀ target, node ≠ .link target) :
    tree.advance reader place (names.map .into) = .arrived (.present (place ++ names) node) := by
  induction names generalizing place with
  | nil =>
    rw [List.append_nil] at hf ⊢
    obtain rfl := Option.some.inj (hd.symm.trans hf)
    rfl
  | cons name names ih =>
    have happend : place ++ name :: names = place ++ [name] ++ names := by simp
    rw [happend] at hw hf ⊢
    rw [List.map_cons, advance]
    simp only [reader, Bool.false_and, Manner.isTooLong, Option.any_none, Bool.false_eq_true, if_false]
    cases names with
    | nil =>
      rw [List.append_nil] at hf ⊢
      rw [hf]
      cases node with
      | directory => rfl
      | file text => rfl
      | link target => exact absurd rfl (hl target)
    | cons other names =>
      have hdirectory : tree.find? (place ++ [name]) = some .directory :=
        hw _ (List.prefix_append _ _) (by simp)
      rw [hdirectory]
      exact ih hdirectory hw hf

private theorem walk_names {links : Nat} (hw : tree.Leads place) (hf : tree.find? place = some node)
    (hl : ∀ target, node ≠ .link target) :
    tree.walk reader links linked [] (place.map .into) = .ok (.present place node) := by
  have hadvance : tree.advance reader [] (place.map .into) = .arrived (.present place node) :=
    advance_names (reached_root tree).directory hw hf hl
  cases links <;>
  · unfold walk
    rw [hadvance]

end Files.Tree

namespace Site

variable {site : Site} {path : Path} {place : Place} {node : Node}

/-! ## Steps and components -/

/-- The step that a component of a path asks for. -/
private def stepOf : Component → Step
  | .up => .up
  | .name name => .into name
  | _ => .stay

/-- The steps that count in memory. -/
private def counts (step : Step) : Bool := step ≠ .stay ∧ step ≠ .slash

private theorem ofPiece?_cases (piece : List Char) : Component.ofPiece? piece = none ∨
    Component.ofPiece? piece = some .up ∨ ∃ name, Component.ofPiece? piece = some (.name name) := by
  unfold Component.ofPiece?
  split
  · exact .inl rfl
  · exact .inl rfl
  · exact .inr (.inl rfl)
  · exact .inr (.inr ⟨_, rfl⟩)

private theorem filter_counts (pieces : List (List Char)) :
    ((pieces.filter (· ≠ [])).map fun piece => match Component.ofPiece? piece with
      | some .up => Step.up
      | some (.name name) => .into name
      | _ => .stay).filter counts = (pieces.filterMap Component.ofPiece?).map stepOf := by
  induction pieces with
  | nil => rfl
  | cons piece pieces ih =>
    by_cases he : piece = []
    · subst he
      exact ih
    · rw [List.filter_cons_of_pos (by simpa using he), List.map_cons, List.filterMap_cons]
      rcases ofPiece?_cases piece with h | h | ⟨name, h⟩ <;> rw [h]
      · exact ih
      · exact congrArg (Step.up :: ·) ih
      · exact congrArg (Step.into name :: ·) ih

/-- In memory the steps of a path are those of its components. -/
private theorem route?_of_memory (hk : site.keeping = .memory) {rest : List Char}
    (h : path.text.toList = separator :: rest) :
    site.route? path = some (((Text.split separator rest).filterMap Component.ofPiece?).map stepOf) := by
  have hslash : (if path.text.toList.getLast? = some separator then [Step.slash] else []).filter counts = [] := by
    split <;> rfl
  have hpieces : Text.split separator path.text.toList = [] :: Text.split separator rest :=
    pieces_of_absolute h
  unfold route?
  rw [hk]
  dsimp only
  rw [if_pos (isAbsolute_iff.2 ⟨rest, h⟩), stepsOf, hpieces]
  change some (List.filter counts _) = _
  rw [List.filter_append, hslash, List.append_nil]
  exact congrArg some (filter_counts _)

private theorem isAbsolute_of_route? (hk : site.keeping = .memory) {steps : List Step}
    (h : site.route? path = some steps) : path.isAbsolute = true := by
  unfold route? at h
  rw [hk] at h
  dsimp only at h
  split at h
  · assumption
  · cases h

/-! ## What a path leads to -/

variable {names : List String}

private theorem route?_ofNames (hk : site.keeping = .memory) (hn : ∀ name ∈ names, IsName name) :
    site.route? (ofNames names) = some (names.map .into) := by
  obtain ⟨rest, hrest⟩ := isAbsolute_iff.1 (isAbsolute_ofNames names)
  have hcomponents := (components_of_absolute hrest).symm.trans (components_ofNames hn)
  rw [route?_of_memory hk hrest, (List.cons.inj hcomponents).2, List.map_map]
  rfl

/-- A path leads to a node where its steps arrive. -/
private theorem arrives_of_destination (hk : site.keeping = .memory)
    (h : site.destination path false = .ok (.present place node)) :
    ∃ steps, site.route? path = some steps ∧ site.tree.Arrives steps place node := by
  unfold destination at h
  cases hr : site.route? path with
  | none =>
    rw [hr] at h
    cases h
  | some steps =>
    have hnamed : Tree.Named steps := by
      unfold route? at hr
      rw [hk] at hr
      dsimp only at hr
      split at hr
      · obtain rfl := Option.some.inj hr
        exact fun name hm => Tree.named_stepsOf path.text name (List.mem_filter.1 hm).1
      · cases hr
    rw [hr, hk] at h
    change Except.mapError _ (site.tree.walk Tree.reader linkLimit false [] steps) = _ at h
    cases hw : site.tree.walk Tree.reader linkLimit false [] steps with
    | ok spot =>
      rw [hw] at h
      obtain rfl := Except.ok.inj h
      exact ⟨steps, rfl, Tree.arrives_of_walk (Tree.reached_root _) hnamed hw⟩
    | error fault =>
      rw [hw] at h
      cases h

/-- Where steps arrive, the path of the place leads. -/
private theorem destination_of_arrives (hk : site.keeping = .memory) {steps : List Step}
    (h : site.tree.Arrives steps place node) :
    site.destination (ofNames place) false = .ok (.present place node) := by
  have hwalk : site.tree.walk Tree.reader linkLimit false [] (place.map .into) = .ok (.present place node) :=
    Tree.walk_names h.leads h.found h.settled
  unfold destination
  rw [route?_ofNames hk h.names, hk]
  change Except.mapError _ (site.tree.walk Tree.reader linkLimit false [] (place.map .into)) = _
  rw [hwalk]
  rfl

private theorem isFile_iff_of_memory (hk : site.keeping = .memory) : site.isFile path = true ↔
    ∃ place text, site.destination path false = .ok (.present place (.file text)) := by
  have hspot : site.spot path false = site.destination path false := by
    rw [spot, textFault?, if_pos hk]
  unfold isFile find
  rw [hspot]
  constructor
  · intro h
    split at h
    · next place text heq =>
      split at heq
      · next spot node hd =>
        obtain ⟨rfl, rfl⟩ := Prod.mk.inj (Except.ok.inj heq)
        exact ⟨_, _, hd⟩
      · cases heq
      · cases heq
    · cases h
  · rintro ⟨place, text, hd⟩
    rw [hd]

private theorem realPath?_eq_some {real : Path} (h : site.realPath? path = some real) :
    ∃ place node, site.destination path false = .ok (.present place node) ∧ real = ofNames place := by
  unfold realPath? at h
  split at h
  · next place node hd =>
    exact ⟨place, node, hd, (Option.some.inj h).symm.trans (congrArg Path.mk (text_ofNames place).symm)⟩
  · cases h

private theorem realPath?_ofNames (h : site.destination (ofNames place) false = .ok (.present place node)) :
    site.realPath? (ofNames place) = some (ofNames place) := by
  unfold realPath?
  rw [h]
  exact congrArg (some <| Path.mk ·) (text_ofNames place).symm

/-- A spelling of the root does not end with a name. -/
private theorem getLast?_ne_name {rest : List Char} (h : path.text.toList = separator :: rest)
    (hroot : path.normalize = ⟨"/"⟩) (name : String) :
    ((Text.split separator rest).filterMap Component.ofPiece?).getLast? ≠ some (.name name) := by
  intro hl
  obtain ⟨before, hb⟩ := List.getLast?_eq_some_iff.1 hl
  obtain ⟨names, hn, hfolded⟩ := foldedComponents_of_absolute (isAbsolute_iff.2 ⟨rest, h⟩)
  have hnames : names = [] := by
    have hsame : ofNames names = ofNames [] := by
      refine Eq.trans ?_ hroot
      rw [Path.normalize, hfolded]
      rfl
    have hcomponents := congrArg components hsame
    rw [components_ofNames hn, components_ofNames (List.forall_mem_nil _)] at hcomponents
    exact List.map_eq_nil_iff.1 (List.cons.inj hcomponents).2
  have hstep (done : List Component) : foldStep done (.name name) = .name name :: done := by
    cases done with
    | nil => rfl
    | cons step done => cases step <;> rfl
  rw [hnames, foldedComponents, components_of_absolute h, hb, List.foldl_cons, List.foldl_append, List.foldl_cons,
    List.foldl_nil, hstep] at hfolded
  have hreversed := congrArg List.reverse hfolded
  rw [List.reverse_reverse] at hreversed
  cases (List.cons.inj hreversed).1

/-- Resolution can rely on a site in memory that is seen from an absolute directory. -/
theorem faithful_view (hk : site.keeping = .memory) (hcwd : site.workingDirectory.isAbsolute = true) :
    site.view.Faithful where
  workingDirectory := hcwd
  root path hroot := by
    refine Bool.eq_false_iff.2 fun hf => ?_
    obtain ⟨place, text, hd⟩ := (isFile_iff_of_memory hk).1 hf
    obtain ⟨steps, hr, harrives⟩ := arrives_of_destination hk hd
    obtain ⟨rest, hrest⟩ := isAbsolute_iff.1 (isAbsolute_of_route? hk hr)
    obtain rfl := Option.some.inj (hr.symm.trans (route?_of_memory hk hrest))
    refine nomatch harrives.directory fun name hl => ?_
    rw [List.getLast?_map] at hl
    obtain ⟨step, hs, he⟩ := Option.map_eq_some_iff.1 hl
    cases step with
    | name other => exact getLast?_ne_name hrest hroot other hs
    | _ => cases he
  realPath path real hf hr := by
    obtain ⟨place, text, hd⟩ := (isFile_iff_of_memory hk).1 hf
    obtain ⟨_, _, hd', rfl⟩ := realPath?_eq_some hr
    obtain ⟨rfl, rfl⟩ := Tree.Spot.present.inj (Except.ok.inj (hd'.symm.trans hd))
    obtain ⟨steps, _, harrives⟩ := arrives_of_destination hk hd
    have hplace := destination_of_arrives hk harrives
    exact ⟨isCanonical_ofNames harrives.names, (isFile_iff_of_memory hk).2 ⟨_, _, hplace⟩, realPath?_ofNames hplace⟩

/-- A file that is its own path without links stands in the tree. -/
private theorem mem_tree_of_realPath? (hk : site.keeping = .memory) (hf : site.isFile path = true)
    (hr : (site.realPath? path).getD path = path) : path ∈ site.tree.nodes.map fun entry => ofNames entry.1 := by
  obtain ⟨place, text, hd⟩ := (isFile_iff_of_memory hk).1 hf
  obtain ⟨steps, _, harrives⟩ := arrives_of_destination hk hd
  have hpath : ofNames place = path := by
    rw [realPath?, hd] at hr
    exact (congrArg Path.mk (text_ofNames place)).trans hr
  have hfound := harrives.found
  unfold Tree.find? at hfound
  split at hfound
  · cases Option.some.inj hfound
  · obtain ⟨before, after, hnodes, _⟩ := List.lookup_eq_some_iff.1 hfound
    refine List.mem_map.2 ⟨(place, .file text), ?_, hpath⟩
    rw [hnodes]
    exact List.mem_append_right _ List.mem_cons_self

end Site

/-- Where links are not kept, resolution finds only what stands in the tree. -/
theorem Scene.mem_tree_of_resolve {scene : Scene} {site : Site} {specifier : String} {dir id : Path}
    {noted : List Failure} (hk : site.keeping = .memory) (hcwd : site.workingDirectory.isAbsolute = true)
    (hsite : scene.site = site.view) (hlinks : scene.config.preserveSymlinks = false)
    (hext : ∀ suffix ∈ scene.config.extensions, separator ∉ suffix.toList)
    (h : ((scene.resolve specifier dir).run noted).1 = .ok (.file id)) :
    id ∈ site.tree.nodes.map fun entry => ofNames entry.1 := by
  obtain ⟨hid, hf, hself⟩ := identity_of_resolve (hsite ▸ site.faithful_view hk hcwd) hext h
  rw [identity_eq, hlinks, if_neg Bool.false_ne_true, hid.normal, hsite] at hself
  exact Site.mem_tree_of_realPath? hk (by rwa [hsite] at hf) hself

end ScriptModules
