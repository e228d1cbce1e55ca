import ScriptModules.Path.Names
import ScriptModules.Proofs.Path.Canonical

/-!
# The last name of a path

What stands behind the last separator of a path is its last step, if it is a name (`Path.EndsIn.fileName?`), and
normalization keeps it (`Path.EndsIn.normalize`).  So a suffix that is appended to a path is the extension of what
comes out exactly if no other dot and no separator is in it (`Path.extension?_normalize_append`).
-/

namespace ScriptModules.Path

variable {p : Path} {name suffix : String}

/-! ## Steps -/

theorem isName_of_mem_components (h : .name name ∈ p.components) : IsName name := by
  have hpiece : ∃ piece ∈ p.pieces, Component.ofPiece? piece = some (.name name) := by
    unfold components at h
    split at h
    · cases h
    · next rest hp =>
      obtain ⟨piece, hm, hs⟩ := List.mem_filterMap.1 ((List.mem_cons.1 h).resolve_left Component.noConfusion)
      exact ⟨piece, hp ▸ List.mem_cons_of_mem _ hm, hs⟩
    · next rest hp =>
      obtain ⟨piece, hm, hs⟩ := List.mem_filterMap.1 ((List.mem_cons.1 h).resolve_left Component.noConfusion)
      exact ⟨piece, hp ▸ List.mem_cons_of_mem _ hm, hs⟩
    · exact List.mem_filterMap.1 h
  obtain ⟨piece, hm, hs⟩ := hpiece
  exact isName_of_piece (Text.sep_notMem_of_mem_split hm) hs

/-- Folding makes no new steps. -/
theorem mem_components_of_folded {step : Component} (h : step ∈ p.foldedComponents) : step ∈ p.components := by
  have hfold (steps done : List Component) (hs : step ∈ steps.foldl foldStep done) : step ∈ done ∨ step ∈ steps := by
    induction steps generalizing done with
    | nil => exact .inl hs
    | cons first steps ih =>
      rcases ih (foldStep done first) hs with hd | hd
      · rw [List.mem_cons]
        unfold foldStep at hd
        split at hd
        · exact .inl hd
        · exact .inl (List.mem_cons_of_mem _ hd)
        · exact .inl hd
        · exact (List.mem_cons.1 hd).symm.imp_right .inl
      · exact .inr (List.mem_cons_of_mem _ hd)
  exact (hfold p.components [] (List.mem_reverse.1 h)).resolve_left List.not_mem_nil

/-- The canonical spelling of a path is not empty. -/
theorem text_normalize_ne_empty (p : Path) : p.normalize.text ≠ "" := by
  unfold normalize
  split
  · decide
  · next steps hne =>
    unfold ofComponents
    split
    · next rest =>
      intro he
      have hnil := congrArg String.toList he
      rw [String.toList_append] at hnil
      cases hnil
    · next hroot =>
      cases hs : p.foldedComponents with
      | nil => exact absurd hs hne
      | cons first rest =>
        have hfirst : first.text.toList ≠ [] := by
          cases first with
          | root => exact absurd hs (hroot rest)
          | current => decide
          | up => decide
          | name text =>
            have hmem : .name text ∈ p.foldedComponents := hs ▸ List.mem_cons_self
            exact (isName_iff.1 (isName_of_mem_components (mem_components_of_folded hmem))).1
        intro he
        have hnil := congrArg String.toList he
        rw [String.toList_intercalate, List.map_cons, List.map_cons] at hnil
        cases rest with
        | nil => exact hfirst (by simpa using hnil)
        | cons second rest => simp at hnil

/-! ## The last name -/

/-- The text stands behind the last separator of the path, or is all of it. -/
def EndsIn (p : Path) (name : String) : Prop :=
  separator ∉ name.toList ∧
    ∃ before, p.text.toList = before ++ name.toList ∧ (before = [] ∨ ∃ lead, before = lead ++ [separator])

/-- A path that is not empty and does not end in a separator ends in something. -/
theorem exists_endsIn (hne : p.text ≠ "") (hs : p.text.toList.getLast? ≠ some separator) :
    ∃ name, p.EndsIn name ∧ name ≠ "" := by
  obtain ⟨pieces, last, hp⟩ : ∃ pieces last, p.pieces = pieces ++ [last] := by
    obtain ⟨pieces, last, hp⟩ := (List.eq_nil_or_concat p.pieces).resolve_left (Text.split_ne_nil _ _)
    exact ⟨pieces, last, hp.trans List.concat_eq_append⟩
  have htext : [separator].intercalate (pieces ++ [last]) = p.text.toList :=
    hp ▸ Text.intercalate_split separator p.text.toList
  have hsep : separator ∉ last := Text.sep_notMem_of_mem_split (hp ▸ List.mem_append_right _ List.mem_cons_self)
  have hends : ∃ before, p.text.toList = before ++ last ∧ (before = [] ∨ ∃ lead, before = lead ++ [separator]) := by
    cases pieces with
    | nil => exact ⟨[], by rw [← htext]; simp, .inl rfl⟩
    | cons first pieces =>
      rw [Text.intercalate_concat (List.cons_ne_nil _ _)] at htext
      exact ⟨_, by rw [← htext, List.append_cons], .inr ⟨_, rfl⟩⟩
  refine ⟨String.ofList last, ⟨by rwa [String.toList_ofList], by rwa [String.toList_ofList]⟩, fun he => ?_⟩
  obtain rfl : last = [] := by rw [← String.toList_ofList (l := last), he]; rfl
  obtain ⟨before, hbefore, rfl | ⟨lead, rfl⟩⟩ := hends
  · exact hne (String.toList_inj.1 hbefore)
  · exact hs (by rw [hbefore]; simp)

namespace EndsIn

private theorem append (h : p.EndsIn name) (hs : separator ∉ suffix.toList) :
    (Path.mk (p.text ++ suffix)).EndsIn (name ++ suffix) := by
  obtain ⟨hname, before, hp, hb⟩ := h
  refine ⟨?_, before, ?_, hb⟩
  · rw [String.toList_append, List.mem_append]
    exact not_or.2 ⟨hname, hs⟩
  · rw [String.toList_append, String.toList_append, hp, List.append_assoc]

private theorem pieces (h : p.EndsIn name) : ∃ pieces, p.pieces = pieces ++ [name.toList] := by
  obtain ⟨hname, before, hp, hb⟩ := h
  rw [Path.pieces, hp]
  rcases hb with rfl | ⟨lead, rfl⟩
  · exact ⟨[], Text.split_of_sep_notMem hname⟩
  · refine ⟨Text.split separator lead, ?_⟩
    rw [List.append_assoc, List.singleton_append, Text.split_append, Text.split_of_sep_notMem hname]

private theorem components (h : p.EndsIn name) (hn : IsName name) : ∃ steps, p.components = steps ++ [.name name] := by
  obtain ⟨pieces, hp⟩ := h.pieces
  have hlast : [name.toList].filterMap Component.ofPiece? = [.name name] := by
    rw [List.filterMap_cons, hn.1]
    rfl
  obtain ⟨hempty, hdot, _, _⟩ := isName_iff.1 hn
  unfold Path.components
  rw [hp]
  cases pieces with
  | nil =>
    rw [List.nil_append]
    split
    · next he => exact absurd (List.cons.inj he).1 hempty
    · next he => exact absurd (List.cons.inj he).1 hempty
    · next he => exact absurd (List.cons.inj he).1 hdot
    · exact ⟨[], hlast⟩
  | cons first pieces =>
    rw [List.cons_append]
    split
    · next he => simp at he
    · next he =>
      obtain ⟨_, rfl⟩ := List.cons.inj he
      exact ⟨_, by rw [List.filterMap_append, hlast, List.cons_append]⟩
    · next he =>
      obtain ⟨_, rfl⟩ := List.cons.inj he
      exact ⟨_, by rw [List.filterMap_append, hlast, List.cons_append]⟩
    · exact ⟨_, by rw [← List.cons_append, List.filterMap_append, hlast]⟩

private theorem fileName? (h : p.EndsIn name) (hn : IsName name) : p.fileName? = some name := by
  obtain ⟨steps, hs⟩ := h.components hn
  rw [Path.fileName?, hs, List.getLast?_concat]

private theorem toList_intercalate_concat (name : String) (texts : List String) :
    ∃ before, ("/".intercalate (texts ++ [name])).toList = before ++ name.toList ∧
      (before = [] ∨ ∃ lead, before = lead ++ [separator]) := by
  rw [String.toList_intercalate, List.map_append, List.map_singleton]
  cases texts with
  | nil => exact ⟨[], List.intercalate_singleton, .inl rfl⟩
  | cons first texts =>
    refine ⟨_, ?_, .inr ⟨[separator].intercalate ((first :: texts).map String.toList), rfl⟩⟩
    rw [List.append_assoc, List.singleton_append]
    exact Text.intercalate_concat (List.cons_ne_nil _ _) _

/-- The canonical spelling of a path that ends in a name ends in it too. -/
theorem normalize (h : p.EndsIn name) (hn : IsName name) : p.normalize.EndsIn name := by
  obtain ⟨steps, hs⟩ := h.components hn
  obtain ⟨folded, hf⟩ : ∃ folded, p.foldedComponents = folded ++ [.name name] := by
    refine ⟨(steps.foldl foldStep []).reverse, ?_⟩
    rw [foldedComponents, hs, List.foldl_append, List.foldl_cons, List.foldl_nil, foldStep_name, List.reverse_cons]
  have hcanonical : p.normalize = ofComponents (folded ++ [.name name]) := by
    unfold Path.normalize
    rw [hf]
    split
    · next he => simp at he
    · rfl
  rw [hcanonical]
  refine ⟨h.1, ?_⟩
  unfold ofComponents
  split
  · next rest he =>
    obtain ⟨steps, rfl⟩ : ∃ steps, rest = steps ++ [.name name] := by
      cases folded with
      | nil => cases he
      | cons first folded => exact ⟨folded, (List.cons.inj he).2.symm⟩
    obtain ⟨before, hb, hlead⟩ := toList_intercalate_concat name (steps.map Component.text)
    rw [List.map_append, List.map_singleton]
    refine ⟨separator :: before, (String.toList_append).trans (congrArg (separator :: ·) hb), .inr ?_⟩
    rcases hlead with rfl | ⟨lead, rfl⟩
    · exact ⟨[], rfl⟩
    · exact ⟨separator :: lead, rfl⟩
  · rw [List.map_append, List.map_singleton]
    exact toList_intercalate_concat name (folded.map Component.text)

end EndsIn

/-! ## Extensions -/

/-- Is the text a dot with no other dot and no separator behind it? -/
def isPlainSuffix (suffix : String) : Bool :=
  match suffix.toList with
  | '.' :: rest => '.' ∉ rest && separator ∉ rest
  | _ => false

private theorem isPlainSuffix_iff : isPlainSuffix suffix = true ↔
    ∃ rest, suffix.toList = '.' :: rest ∧ '.' ∉ rest ∧ separator ∉ rest := by
  unfold isPlainSuffix
  split
  · next rest h => simp [h]
  · next hne =>
    refine iff_of_false Bool.false_ne_true ?_
    rintro ⟨rest, h, _⟩
    exact hne rest h

/-- The extension of a path is plain. -/
theorem isPlainSuffix_of_extension? (h : p.extension? = some suffix) : isPlainSuffix suffix = true := by
  have hext : extName p.text = suffix ∧ suffix ≠ "" := by
    unfold extension? at h
    split at h
    · cases h
    · next hne => exact ⟨Option.some.inj h, fun he => hne (Option.some.inj h ▸ he)⟩
  obtain ⟨rfl, hne⟩ := hext
  have hsep : separator ∉ (baseName p.text).toList := by
    unfold baseName
    cases hf : (Path.mk p.text).fileName? with
    | none => decide
    | some name =>
      unfold fileName? at hf
      split at hf
      · next last hl =>
        obtain rfl := Option.some.inj hf
        exact (isName_of_mem_components (List.mem_of_getLast? hl)).2
      · cases hf
  unfold extName extensionOfName at hne ⊢
  split at hne
  · next hdot =>
    rw [if_pos hdot, isPlainSuffix_iff]
    refine ⟨_, String.toList_ofList, fun hm => ?_, fun hm => ?_⟩
    · have hmem := List.all_eq_true.1 List.all_takeWhile _ (List.mem_reverse.1 hm)
      simp at hmem
    · exact hsep (List.mem_reverse.1 ((List.takeWhile_sublist _).subset (List.mem_reverse.1 hm)))
  · exact absurd rfl hne

/-- A plain suffix behind something is the extension of a name. -/
theorem extensionOfName_append {stem rest : List Char} (hs : stem ≠ []) (hr : '.' ∉ rest) :
    extensionOfName (stem ++ '.' :: rest) = '.' :: rest := by
  obtain ⟨c, cs, rfl⟩ := List.exists_cons_of_ne_nil hs
  have hnot : ∀ c ∈ rest.reverse, decide (c ≠ '.') = true := by
    intro c hc
    rw [decide_eq_true_iff]
    rintro rfl
    exact hr (List.mem_reverse.1 hc)
  have htake : ((c :: cs ++ '.' :: rest).reverse.takeWhile fun c => c ≠ '.') = rest.reverse := by
    rw [List.reverse_append, List.reverse_cons, List.append_assoc, List.takeWhile_append_of_pos hnot]
    simp
  rw [extensionOfName, if_pos (by simp), htake, List.reverse_reverse]

/-- A suffix of more than one character that is appended to a path that does not end in a separator is the extension of
what comes out exactly if it is plain. -/
theorem extension?_normalize_append (hne : p.text ≠ "") (hs : p.text.toList.getLast? ≠ some separator)
    (hlong : 1 < suffix.toList.length) :
    (Path.mk (p.text ++ suffix)).normalize.extension? = some suffix ↔ isPlainSuffix suffix = true := by
  refine ⟨isPlainSuffix_of_extension?, fun hplain => ?_⟩
  obtain ⟨rest, hrest, hdot, hsep⟩ := isPlainSuffix_iff.1 hplain
  obtain ⟨stem, hstem, hempty⟩ := exists_endsIn hne hs
  have hstem' : stem.toList ≠ [] := fun he => hempty (String.toList_inj.1 he)
  have hsuffix : separator ∉ suffix.toList := by
    rw [hrest, List.mem_cons]
    exact not_or.2 ⟨by decide, hsep⟩
  -- Something, the dot and something again: too long to be a step up.
  have hlength : 2 < (stem ++ suffix).toList.length := by
    have hpos := List.length_pos_iff.2 hstem'
    rw [String.toList_append, List.length_append]
    omega
  have hends := hstem.append hsuffix
  have hname : IsName (stem ++ suffix) := by
    refine isName_iff.2 ⟨?_, ?_, ?_, hends.1⟩ <;>
    · intro he
      rw [he] at hlength
      contradiction
  have hbase : baseName (Path.mk (p.text ++ suffix)).normalize.text = stem ++ suffix := by
    unfold baseName
    rw [(hends.normalize hname).fileName? hname]
    rfl
  have hext : extName (Path.mk (p.text ++ suffix)).normalize.text = suffix := by
    rw [extName, hbase, String.toList_append, hrest, extensionOfName_append hstem' hdot, ← hrest,
      String.ofList_toList]
  unfold extension?
  rw [hext]
  split
  · next he => simp at hlong
  · rfl

end ScriptModules.Path
