import ScriptModules.Proofs.Path.Composition
import ScriptModules.Proofs.Path.Names
import ScriptModules.Proofs.Path.Parent

/-!
# Paths from their parts

From the directory of a path the last step leads back to where the path leads (`Path.location_eq_walk_dirName`), and
the base name is that step where it is a name.  A step up is in no base name, so a path that ends with one is lost:
the parts make up the path again exactly if it does not end so, or if nothing comes of it at the root
(`Path.rebuilds_iff`).
-/

namespace ScriptModules.Path

variable {text : String} {parent : Path}

/-! ## The directory -/

private theorem location_dirName_of_parent? (h : (Path.mk text).parent? = some parent) :
    (Path.mk (dirName text)).location = parent.location := by
  unfold dirName
  rw [h]
  split
  · next he =>
    obtain rfl := Option.some.inj he
    rfl
  · next he => rw [Option.some.inj he]
  · next he => cases he

/-- Where there is no path above, the directory leads where the path leads. -/
theorem location_dirName_of_parent?_eq_none (h : (Path.mk text).parent? = none) :
    (Path.mk (dirName text)).location = (Path.mk text).location := by
  unfold dirName
  rw [h]
  by_cases habsolute : (Path.mk text).isAbsolute
  · simp only [if_pos habsolute]
  · simp only [if_neg habsolute]
    rcases components_of_parent?_eq_none h with hp | hp
    · rw [location_eq_foldl (Path.mk text), hp]
      rfl
    · have hrooted := rooted_location (Path.mk text)
      rw [location_eq_foldl, hp] at hrooted
      exact absurd hrooted.symm habsolute

/-- The text of the last step of a path. -/
def lastText (text : String) : String := ((Path.mk text).components.getLast?.map Component.text).getD ""

/-- From the directory of a path its last step leads where the path leads. -/
theorem location_eq_walk_dirName (text : String) :
    (Path.mk text).location = (Path.mk (dirName text)).location.walk (lastText text).toList := by
  cases h : (Path.mk text).parent? with
  | none =>
    have hidle : lastText text = "" := by
      unfold lastText
      rcases components_of_parent?_eq_none h with hp | hp <;> rw [hp] <;> rfl
    rw [hidle, location_dirName_of_parent?_eq_none h]
    rfl
  | some parent =>
    obtain ⟨step, hroot, hs⟩ := components_of_parent? h
    have hlast : lastText text = step.text := by
      rw [lastText, hs, List.getLast?_concat]
      rfl
    rw [hlast, location_dirName_of_parent? h, location_of_parent? hs hroot]

/-! ## The base name -/

/-- The base name is the last step if that is a name, and else nothing. -/
theorem baseName_cases (text : String) :
    (∃ name, IsName name ∧ (Path.mk text).components.getLast? = some (.name name) ∧ baseName text = name) ∨
      (∀ name, (Path.mk text).components.getLast? ≠ some (.name name)) ∧ baseName text = "" := by
  unfold baseName fileName?
  split
  · next name hlast =>
    exact .inl ⟨name, isName_of_mem_components (List.mem_of_getLast? hlast), hlast, rfl⟩
  · next hlast => exact .inr ⟨fun name h => hlast name h, rfl⟩

private theorem sep_notMem_baseName (text : String) : separator ∉ (baseName text).toList := by
  rcases baseName_cases text with ⟨name, hname, _, hbase⟩ | ⟨_, hbase⟩
  · rw [hbase]
    exact hname.2
  · rw [hbase]
    decide

/-- The last step leads as the base name does, but for a step up. -/
private theorem walk_lastText (h : (Path.mk text).components.getLast? ≠ some .up) (location : Location) :
    location.walk (lastText text).toList = location.walk (baseName text).toList := by
  unfold lastText
  rcases baseName_cases text with ⟨name, _, hlast, hbase⟩ | ⟨hlast, hbase⟩
  · rw [hlast, hbase]
    rfl
  · rw [hbase]
    cases hstep : (Path.mk text).components.getLast? with
    | none => rfl
    | some step =>
      rw [hstep] at h hlast
      cases step with
      | root => rfl
      | current => rfl
      | up => exact absurd rfl h
      | name name => exact absurd rfl (hlast name)

/-! ## Two parts -/

/-- A single piece of text leads from a location as a piece does. -/
private theorem follow_of_sep_notMem {base : String} (h : separator ∉ base.toList) (location : Location) :
    (Path.mk base).isAbsolute = false ∧
      location.follow (Path.mk base).location = location.walk base.toList := by
  have hrelative : (Path.mk base).isAbsolute = false := by
    rw [Bool.eq_false_iff]
    intro habsolute
    obtain ⟨rest, hrest⟩ := isAbsolute_iff.1 habsolute
    exact h (hrest ▸ List.mem_cons_self)
  have hpieces : (Path.mk base).pieces = [base.toList] := Text.split_of_sep_notMem h
  refine ⟨hrelative, ?_⟩
  rw [Path.location, hrelative, ← Location.foldl_walk_eq_follow, hpieces, List.foldl_cons, List.foldl_nil]

/-- When two parts make up a path. -/
private theorem joinAll_pair_eq_iff (dir : String) {base : String} (h : separator ∉ base.toList) (p : Path) :
    joinAll [dir, base] = p.normalize.text ↔ (Path.mk dir).location.walk base.toList = p.location := by
  obtain ⟨hrelative, hfollow⟩ := follow_of_sep_notMem h (Path.mk dir).location
  have hjoin : joinAll [dir, base] = ((Path.mk dir).join ⟨base⟩).normalize.text :=
    joinAll_cons dir (by simpa using hrelative)
  have htext (q : Path) : q.normalize.text = p.normalize.text ↔ q.normalize = p.normalize :=
    ⟨fun h => congrArg Path.mk h, fun h => congrArg Path.text h⟩
  rw [hjoin, htext, normalize_eq_normalize_iff, location_join, hfollow]

/-! ## Steps up -/

/-- A step up leads nowhere only at the root. -/
private theorem walk_up_eq_self_iff {location : Location} (h : location.IsProper) :
    location.walk ['.', '.'] = location ↔ location = ⟨true, 0, []⟩ := by
  constructor
  · intro hwalk
    obtain ⟨rooted, up, names⟩ := location
    cases names with
    | cons name names =>
      -- The last name would be gone.
      have hnames : names = name :: names := congrArg Location.names hwalk
      exact absurd (congrArg List.length hnames) (by simp)
    | nil =>
      cases rooted with
      | true =>
        obtain rfl : up = 0 := h.rooted rfl
        rfl
      | false =>
        have hup : up + 1 = up := congrArg Location.up hwalk
        omega
  · rintro rfl
    rfl

private theorem normalize_eq_root_iff {p : Path} : p.normalize = ⟨"/"⟩ ↔ p.location = ⟨true, 0, []⟩ := by
  have hroot : (Path.mk "/").normalize = ⟨"/"⟩ := by decide
  rw [← hroot, normalize_eq_normalize_iff]
  rfl

private theorem normalize_eq_dot_iff {p : Path} : p.normalize = ⟨"."⟩ ↔ p.location = ⟨false, 0, []⟩ := by
  have hdot : (Path.mk ".").normalize = ⟨"."⟩ := by decide
  rw [← hdot, normalize_eq_normalize_iff]
  rfl

private theorem normalize_eq_root_or_dot_iff {p : Path} :
    p.normalize = ⟨"/"⟩ ∨ p.normalize = ⟨"."⟩ ↔ p.location = ⟨p.isAbsolute, 0, []⟩ := by
  rw [normalize_eq_root_iff, normalize_eq_dot_iff, ← rooted_location]
  constructor
  · rintro (h | h) <;>
    · rw [h]
  · intro h
    cases hrooted : p.location.rooted with
    | true => exact .inl (h.trans (by rw [hrooted]))
    | false => exact .inr (h.trans (by rw [hrooted]))

/-- The directory and the base name make up a path, but for one that ends with a step up below the root. -/
theorem joinAll_dirName_baseName_iff (text : String) :
    joinAll [dirName text, baseName text] = (Path.mk text).normalize.text ↔
      ((Path.mk text).components.getLast? = some .up → (Path.mk (dirName text)).normalize = ⟨"/"⟩) := by
  rw [joinAll_pair_eq_iff _ (sep_notMem_baseName text), location_eq_walk_dirName text, normalize_eq_root_iff]
  by_cases hup : (Path.mk text).components.getLast? = some .up
  · have hlast : lastText text = ".." := by
      rw [lastText, hup]
      rfl
    have hbase : baseName text = "" := by
      rcases baseName_cases text with ⟨name, _, hname, _⟩ | ⟨_, hbase⟩
      · rw [hup] at hname
        cases hname
      · exact hbase
    rw [hlast, hbase, ← walk_up_eq_self_iff (isProper_location _), eq_comm]
    exact ⟨fun h _ => h, fun h => h hup⟩
  · rw [walk_lastText hup]
    exact ⟨fun _ h => absurd h hup, fun _ => rfl⟩

/-- Without a base name, a path that does not end with a step up leads nowhere. -/
theorem location_of_baseName_eq_empty (hbase : baseName text = "")
    (hup : (Path.mk text).components.getLast? ≠ some .up) :
    (Path.mk text).location = ⟨(Path.mk text).isAbsolute, 0, []⟩ := by
  obtain ⟨lead, steps, hp, hlead, hsteps⟩ := (Path.mk text).components_cases
  rcases List.eq_nil_or_concat steps with rfl | ⟨before, last, rfl⟩
  · rw [← rooted_location, location_eq_foldl, hp]
    rcases hlead with rfl | rfl | rfl <;> rfl
  · have hlast : (Path.mk text).components.getLast? = some last := by
      rw [hp, List.concat_eq_append, ← List.append_assoc, List.getLast?_concat]
    -- The last step is neither a step up nor a name.
    rcases hsteps last (by simp) with rfl | ⟨name, rfl⟩
    · exact absurd hlast hup
    · rcases baseName_cases text with ⟨_, hname, _, rfl⟩ | ⟨hno, _⟩
      · exact absurd (congrArg String.toList hbase) (isName_iff.1 hname).1
      · exact absurd hlast (hno name)

/-- The parts make up a path, but for one that ends with a step up and leads somewhere. -/
theorem joinAll_dir_base_iff (text : String) :
    joinAll [(parts text).dir, (parts text).base] = (Path.mk text).normalize.text ↔
      ((Path.mk text).components.getLast? = some .up →
        (Path.mk text).normalize = ⟨"/"⟩ ∨ (Path.mk text).normalize = ⟨"."⟩) := by
  by_cases hbase : baseName text = ""
  · have hdir : (parts text).dir = if (Path.mk text).isAbsolute then "/" else "" := if_pos hbase
    have hlocation : (Path.mk (parts text).dir).location = ⟨(Path.mk text).isAbsolute, 0, []⟩ := by
      rw [hdir]
      split
      · next h =>
        rw [h]
        rfl
      · next h =>
        rw [Bool.eq_false_iff.2 h]
        rfl
    have hempty : (parts text).base = "" := hbase
    have hidle : (Path.mk (parts text).dir).location.walk "".toList = (Path.mk (parts text).dir).location := rfl
    rw [hempty, joinAll_pair_eq_iff _ (by decide), hidle, hlocation, normalize_eq_root_or_dot_iff]
    by_cases hup : (Path.mk text).components.getLast? = some .up
    · exact ⟨fun h _ => h.symm, fun h => (h hup).symm⟩
    · exact ⟨fun _ h => absurd h hup, fun _ => (location_of_baseName_eq_empty hbase hup).symm⟩
  · obtain ⟨name, _, hlast, _⟩ := (baseName_cases text).resolve_right fun h => hbase h.2
    have hup : (Path.mk text).components.getLast? ≠ some .up := by
      rw [hlast]
      exact fun he => Component.noConfusion (Option.some.inj he)
    have hdir : (parts text).dir = dirName text := if_neg hbase
    rw [hdir]
    exact ⟨fun _ h => absurd h hup, fun _ => (joinAll_dirName_baseName_iff text).2 fun h => absurd h hup⟩

/-! ## The extension -/

/-- The extension of a name is nothing where there is no dot behind its first character, and else starts at its last
dot. -/
theorem extensionOfName_cases (base : List Char) : extensionOfName base = [] ∧ '.' ∉ base.tail ∨
    ∃ stem rest, base = stem ++ '.' :: rest ∧ stem ≠ [] ∧ '.' ∉ rest ∧ extensionOfName base = '.' :: rest := by
  by_cases hdot : '.' ∈ base.tail
  · refine .inr ?_
    obtain ⟨rest, hlast⟩ : ∃ rest, rest = (base.reverse.takeWhile (· ≠ '.')).reverse := ⟨_, rfl⟩
    have hext : extensionOfName base = '.' :: rest := (if_pos hdot).trans (by rw [hlast])
    have hrest : '.' ∉ rest := by
      rw [hlast]
      intro h
      have hc := List.all_eq_true.1 List.all_takeWhile _ (List.mem_reverse.1 h)
      simp at hc
    have hbase : base = (base.reverse.dropWhile (· ≠ '.')).reverse ++ rest := by
      rw [hlast, ← List.reverse_append, List.takeWhile_append_dropWhile, List.reverse_reverse]
    cases hd : base.reverse.dropWhile (· ≠ '.') with
    | nil =>
      have hmem := List.mem_of_mem_tail hdot
      rw [hbase, hd] at hmem
      exact absurd hmem hrest
    | cons c before =>
      obtain rfl : c = '.' := by
        have hhead := List.head?_dropWhile_not (· ≠ '.') base.reverse
        rw [hd] at hhead
        simpa using hhead
      rw [hd, List.reverse_cons, List.append_assoc, List.singleton_append] at hbase
      refine ⟨before.reverse, rest, hbase, fun hempty => ?_, hrest, hext⟩
      -- Else the last dot would be the first character.
      rw [hbase, hempty] at hdot
      exact hrest hdot
  · exact .inl ⟨if_neg hdot, hdot⟩

private theorem name_append_ext (text : String) : (parts text).name ++ (parts text).ext = (parts text).base := by
  obtain ⟨stem, hstem⟩ : ∃ stem, (baseName text).toList = stem ++ (extName text).toList := by
    rw [extName, String.toList_ofList]
    rcases extensionOfName_cases (baseName text).toList with ⟨hext, _⟩ | ⟨stem, rest, hbase, _, _, hext⟩
    · exact ⟨(baseName text).toList, by rw [hext, List.append_nil]⟩
    · exact ⟨stem, by rw [hext, ← hbase]⟩
  change String.ofList ((baseName text).toList.take ((baseName text).length - (extName text).length)) ++ extName text =
    baseName text
  rw [← String.toList_inj, String.toList_append, String.toList_ofList, ← String.length_toList, ← String.length_toList,
    hstem]
  simp

/-! ## All parts -/

/-- The parts of a path make it up again, but for the step up at its end, which is in no base name.  The directory and
the base name do so exactly if the path does not end with a step up or its directory is the root, and the parts that
are taken together exactly if it does not end so or leads nowhere.  The base name is the name and the extension, which
starts at the last dot behind the first character if there is one. -/
theorem rebuilds_iff (text : String) :
    (joinAll [dirName text, baseName text] = (Path.mk text).normalize.text ↔
        ((Path.mk text).components.getLast? = some .up → (Path.mk (dirName text)).normalize = ⟨"/"⟩)) ∧
      (joinAll [(parts text).dir, (parts text).base] = (Path.mk text).normalize.text ↔
        ((Path.mk text).components.getLast? = some .up →
          (Path.mk text).normalize = ⟨"/"⟩ ∨ (Path.mk text).normalize = ⟨"."⟩)) ∧
      (parts text).name ++ (parts text).ext = (parts text).base ∧ (parts text).base = baseName text ∧
      ((parts text).ext = "" ∧ '.' ∉ (parts text).base.toList.tail ∨
        ∃ stem rest, (parts text).base.toList = stem ++ '.' :: rest ∧ stem ≠ [] ∧ '.' ∉ rest ∧
          (parts text).ext.toList = '.' :: rest) := by
  refine ⟨joinAll_dirName_baseName_iff text, joinAll_dir_base_iff text, name_append_ext text, rfl, ?_⟩
  have hext : (parts text).ext = String.ofList (extensionOfName (parts text).base.toList) := rfl
  rcases extensionOfName_cases (parts text).base.toList with ⟨hempty, hdot⟩ | ⟨stem, rest, hbase, hstem, hrest, he⟩
  · exact .inl ⟨by rw [hext, hempty], hdot⟩
  · exact .inr ⟨stem, rest, hbase, hstem, hrest, by rw [hext, String.toList_ofList, he]⟩

/-- The step up at the end of a path is lost, and of the parts that are taken together the directory too. -/
theorem not_always_rebuilt :
    (¬∀ text, joinAll [dirName text, baseName text] = (Path.mk text).normalize.text) ∧
      ¬∀ text, joinAll [(parts text).dir, (parts text).base] = (Path.mk text).normalize.text := by
  constructor
  · intro h
    have hjoin : joinAll [dirName "a/b/..", baseName "a/b/.."] ≠ (Path.mk "a/b/..").normalize.text := by
      decide +kernel
    exact hjoin (h "a/b/..")
  · intro h
    have hjoin : joinAll [(parts "a/b/..").dir, (parts "a/b/..").base] ≠ (Path.mk "a/b/..").normalize.text := by
      decide +kernel
    exact hjoin (h "a/b/..")

end ScriptModules.Path
