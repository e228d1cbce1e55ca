import ScriptModules.Path.Names
import ScriptModules.Proofs.Path.Location

/-!
# Paths seen from paths

Where a path leads that is appended to another one depends on nothing but where the two lead
(`Path.location_join`), and it makes no difference which ones of several are put together first
(`Path.Location.follow_assoc`).  So paths can be resolved step by step, and normalized at any time
(`Path.resolveFrom_resolveFrom`), and appending texts one by one is joining them with separators, up to the last
rooted one (`Path.resolveAll_eq_joinAll`).
-/

namespace ScriptModules.Path

namespace Location

variable {location : Location}

/-! ## Locations seen from locations -/

/-- The location some levels up. -/
def climb (location : Location) : Nat → Location
  | 0 => location
  | levels + 1 => (climb location levels).walk ['.', '.']

/-- What a location is when it is seen from another one. -/
def follow (location next : Location) : Location :=
  if next.rooted then next
  else { location.climb next.up with names := next.names ++ (location.climb next.up).names }

private theorem follow_of_rooted {next : Location} (h : next.rooted = true) : location.follow next = next := by
  rw [follow, if_pos h]

/-- From a location, nothing leads to itself. -/
@[simp] theorem follow_start (location : Location) : location.follow ⟨false, 0, []⟩ = location := rfl

/-- One more piece leads on from a location that is seen from another one. -/
theorem follow_walk {next : Location} (h : next.rooted = false) (piece : List Char) :
    location.follow (next.walk piece) = (location.follow next).walk piece := by
  obtain ⟨rooted, up, names⟩ := next
  obtain rfl : rooted = false := h
  by_cases hidle : piece = [] ∨ piece = ['.']
  · simp only [walk, if_pos hidle]
  · by_cases hup : piece = ['.', '.']
    · subst hup
      cases names with
      | cons name names => rfl
      | nil =>
        change location.climb (up + 1) = (location.climb up).walk ['.', '.']
        rfl
    · simp only [walk, if_neg hidle, if_neg hup]
      rfl

private theorem foldl_walk_follow (location : Location) {next : Location} (h : next.rooted = false)
    (pieces : List (List Char)) : pieces.foldl walk (location.follow next) = location.follow (pieces.foldl walk next) := by
  induction pieces generalizing next with
  | nil => rfl
  | cons piece pieces ih =>
    rw [List.foldl_cons, List.foldl_cons, ← follow_walk h, ih (by rw [rooted_walk, h])]

/-- Some pieces lead from a location to what they lead to from the start, seen from there. -/
theorem foldl_walk_eq_follow (location : Location) (pieces : List (List Char)) :
    pieces.foldl walk location = location.follow (pieces.foldl walk ⟨false, 0, []⟩) := by
  rw [← foldl_walk_follow location rfl, follow_start]

private theorem rooted_climb (location : Location) (levels : Nat) :
    (location.climb levels).rooted = location.rooted := by
  induction levels with
  | zero => rfl
  | succ levels ih => rw [climb, rooted_walk, ih]

private theorem climb_follow (location : Location) {next : Location} (h : next.rooted = false) (levels : Nat) :
    (location.follow next).climb levels = location.follow (next.climb levels) := by
  induction levels with
  | zero => rfl
  | succ levels ih => rw [climb, climb, ih, follow_walk ((rooted_climb next levels).trans h)]

/-- It makes no difference which ones of several locations are seen from each other first. -/
theorem follow_assoc (a b c : Location) : (a.follow b).follow c = a.follow (b.follow c) := by
  cases hc : c.rooted with
  | true => rw [follow_of_rooted hc, follow_of_rooted hc, follow_of_rooted hc]
  | false =>
    have hfollow (d : Location) : d.follow c = { d.climb c.up with names := c.names ++ (d.climb c.up).names } := by
      rw [follow, hc, if_neg Bool.false_ne_true]
    cases hb : b.rooted with
    | true =>
      have hrooted : (b.follow c).rooted = true := by
        rw [hfollow]
        exact (rooted_climb b c.up).trans hb
      rw [follow_of_rooted hb, follow_of_rooted hrooted]
    | false =>
      have hrooted : ¬(b.climb c.up).rooted = true := by
        rw [rooted_climb, hb]
        exact Bool.false_ne_true
      rw [hfollow, hfollow, climb_follow a hb, follow, follow, if_neg hrooted, if_neg hrooted, List.append_assoc]

end Location

/-! ## Appended paths -/

variable {p q : Path}

private theorem isAbsolute_append_of_ne_nil (h : p.text.toList ≠ []) (text : String) :
    (Path.mk (p.text ++ text)).isAbsolute = p.isAbsolute := by
  obtain ⟨c, cs, ht⟩ := List.exists_cons_of_ne_nil h
  rw [isAbsolute, isAbsolute, String.toList_append, ht]
  rfl

/-- What is appended to the empty path stands alone. -/
private theorem join_of_nil (h : p.text.toList = []) (q : Path) : p.join q = q := by
  rw [join, h]
  split <;> rfl

/-- A relative path is appended behind a separator, and what stands before that leads where the other path leads. -/
private theorem exists_join (h : p.text.toList ≠ []) (hq : q.isAbsolute = false) :
    (p.join q).isAbsolute = p.isAbsolute ∧ ∃ before, (p.join q).text.toList = before ++ separator :: q.text.toList ∧
      p.location = (Text.split separator before).foldl Location.walk ⟨p.isAbsolute, 0, []⟩ := by
  obtain ⟨front, c, hp⟩ : ∃ front c, p.text.toList = front ++ [c] :=
    ⟨_, _, (List.dropLast_concat_getLast h).symm⟩
  have hlast : p.text.toList.getLast? = some c := by rw [hp, List.getLast?_concat]
  rw [join, if_neg (Bool.eq_false_iff.1 hq), hlast]
  by_cases hc : c = separator
  · -- The path ends with a separator, and the empty piece behind it leads nowhere.
    simp only [if_pos hc]
    refine ⟨isAbsolute_append_of_ne_nil h _, front, ?_, ?_⟩
    · rw [String.toList_append, hp, hc, List.append_assoc, List.singleton_append]
    · rw [location, pieces, hp, hc, Text.split_append, List.foldl_append]
      rfl
  · simp only [if_neg hc]
    refine ⟨?_, p.text.toList, ?_, rfl⟩
    · rw [String.append_assoc]
      exact isAbsolute_append_of_ne_nil h _
    · rw [String.toList_append, String.toList_append, List.append_assoc]
      rfl

/-- An appended path leads to what it leads to, seen from where the other one leads. -/
theorem location_join (p q : Path) : (p.join q).location = p.location.follow q.location := by
  cases hq : q.isAbsolute with
  | true => rw [join, if_pos hq, Location.follow_of_rooted (q.rooted_location.trans hq)]
  | false =>
    have hwalk : q.pieces.foldl Location.walk p.location = p.location.follow q.location := by
      rw [Location.foldl_walk_eq_follow, location, location, hq]
    rw [← hwalk]
    by_cases hp : p.text.toList = []
    · have hlocation : p.location = ⟨false, 0, []⟩ := by
        rw [location, pieces, isAbsolute, hp]
        rfl
      rw [join_of_nil hp, hlocation, location, hq]
    · obtain ⟨habsolute, before, hjoin, hlocation⟩ := exists_join hp hq
      rw [location, habsolute, pieces, hjoin, Text.split_append, List.foldl_append, hlocation]
      rfl

/-- What is seen from a path depends on nothing but where the two paths lead. -/
theorem resolveFrom_eq (base p : Path) : resolveFrom base p = (base.location.follow p.location).path := by
  rw [resolveFrom, normalize_eq, location_join]

/-- Paths are resolved one after the other or all at once, and they may be normalized before. -/
theorem resolveFrom_resolveFrom (base p q : Path) :
    resolveFrom (resolveFrom base p) q = resolveFrom base (p.join q) ∧
      resolveFrom base p = resolveFrom base.normalize p.normalize := by
  constructor
  · have hlocation : (resolveFrom base p).location = base.location.follow p.location := by
      rw [resolveFrom, location_normalize, location_join]
    rw [resolveFrom_eq (resolveFrom base p), hlocation, resolveFrom_eq, location_join, Location.follow_assoc]
  · rw [resolveFrom_eq, resolveFrom_eq, location_normalize, location_normalize]

/-! ## Appended texts -/

/-- Where a path leads that texts are appended to one by one. -/
private theorem location_foldl_join (p : Path) (texts : List String) :
    (texts.foldl (fun p text => p.join ⟨text⟩) p).location =
      texts.foldl (fun location text => location.follow (Path.mk text).location) p.location := by
  induction texts generalizing p with
  | nil => rfl
  | cons text texts ih => rw [List.foldl_cons, List.foldl_cons, ih, location_join]

/-- The pieces of relative texts lead where the texts lead one after the other. -/
private theorem foldl_walk_flatMap {texts : List String} (h : ∀ text ∈ texts, (Path.mk text).isAbsolute = false)
    (location : Location) : (texts.flatMap fun text => (Path.mk text).pieces).foldl Location.walk location =
      texts.foldl (fun location text => location.follow (Path.mk text).location) location := by
  induction texts generalizing location with
  | nil => rfl
  | cons text texts ih =>
    obtain ⟨htext, htexts⟩ := List.forall_mem_cons.1 h
    rw [List.flatMap_cons, List.foldl_append, ih htexts, Location.foldl_walk_eq_follow, List.foldl_cons,
      Path.location, htext]

/-- Texts that are joined lead where they lead one after the other, if they are relative but for the first one. -/
private theorem location_intercalate {first : String} {rest : List String} (hfirst : first ≠ "")
    (h : ∀ text ∈ rest, (Path.mk text).isAbsolute = false) : (Path.mk ("/".intercalate (first :: rest))).location =
      rest.foldl (fun location text => location.follow (Path.mk text).location) (Path.mk first).location := by
  have hpieces : (Path.mk ("/".intercalate (first :: rest))).pieces =
      (Path.mk first).pieces ++ rest.flatMap fun text => (Path.mk text).pieces := by
    have hsplit : Text.split separator ("/".intercalate (first :: rest)).toList =
        ((first :: rest).map String.toList).flatMap (Text.split separator) := by
      rw [String.toList_intercalate]
      exact Text.split_intercalate_eq_flatMap (List.cons_ne_nil _ _)
    rw [pieces, hsplit, List.map_cons, List.flatMap_cons, List.flatMap_map]
    rfl
  have habsolute : (Path.mk ("/".intercalate (first :: rest))).isAbsolute = (Path.mk first).isAbsolute := by
    obtain ⟨more, hmore⟩ : ∃ more, "/".intercalate (first :: rest) = first ++ more := by
      cases rest with
      | nil => exact ⟨"", by simp⟩
      | cons second rest => exact ⟨"/" ++ "/".intercalate (second :: rest), by simp [String.append_assoc]⟩
    rw [hmore]
    exact isAbsolute_append_of_ne_nil (fun he => hfirst (String.toList_inj.1 he)) more
  rw [location, hpieces, habsolute, List.foldl_append, foldl_walk_flatMap h, location]

private theorem filter_cons_of_ne_empty {first : String} (h : first ≠ "") (rest : List String) :
    (first :: rest).filter (· ≠ "") = first :: rest.filter (· ≠ "") :=
  List.filter_cons_of_pos (decide_eq_true h)

/-- Empty texts lead nowhere. -/
private theorem foldl_follow_filter (texts : List String) (location : Location) :
    (texts.filter (· ≠ "")).foldl (fun location text => location.follow (Path.mk text).location) location =
      texts.foldl (fun location text => location.follow (Path.mk text).location) location := by
  induction texts generalizing location with
  | nil => rfl
  | cons text texts ih =>
    by_cases h : text = ""
    · subst h
      exact ih location
    · rw [filter_cons_of_ne_empty h, List.foldl_cons, List.foldl_cons, ih]

private theorem joinAll_cons_of_ne_empty {first : String} (hfirst : first ≠ "") {rest : List String}
    (h : ∀ text ∈ rest, (Path.mk text).isAbsolute = false) : joinAll (first :: rest) = resolveAll ⟨first⟩ rest := by
  have hrest : ∀ text ∈ rest.filter (· ≠ ""), (Path.mk text).isAbsolute = false := fun text ht =>
    h text (List.mem_filter.1 ht).1
  rw [joinAll, resolveAll, filter_cons_of_ne_empty hfirst, normalize_eq, normalize_eq,
    location_intercalate hfirst hrest, location_foldl_join, foldl_follow_filter]

/-- Joined texts are appended one by one to the first of them, if the others are relative. -/
theorem joinAll_cons (first : String) {rest : List String} (h : ∀ text ∈ rest, (Path.mk text).isAbsolute = false) :
    joinAll (first :: rest) = resolveAll ⟨first⟩ rest := by
  induction rest generalizing first with
  | nil =>
    by_cases hfirst : first = ""
    · subst hfirst
      rfl
    · exact joinAll_cons_of_ne_empty hfirst h
  | cons second rest ih =>
    by_cases hfirst : first = ""
    · -- The second text is then the first one that counts.
      subst hfirst
      have hjoin : joinAll ("" :: second :: rest) = joinAll (second :: rest) := rfl
      rw [hjoin, ih second (List.forall_mem_cons.1 h).2, resolveAll, resolveAll, List.foldl_cons, join_of_nil rfl]
    · exact joinAll_cons_of_ne_empty hfirst h

/-- A rooted text starts anew. -/
private theorem resolveAll_append_rooted (cwd : Path) (before after : List String) {rooted : String}
    (h : (Path.mk rooted).isAbsolute = true) : resolveAll cwd (before ++ rooted :: after) = resolveAll ⟨rooted⟩ after := by
  rw [resolveAll, resolveAll, List.foldl_append, List.foldl_cons, join, if_pos h]

private theorem isAbsolute_foldl_join {cwd : Path} (h : cwd.isAbsolute = true) (texts : List String) :
    (texts.foldl (fun p text => p.join ⟨text⟩) cwd).isAbsolute = true := by
  induction texts generalizing cwd with
  | nil => exact h
  | cons text texts ih => exact ih (isAbsolute_join h ⟨text⟩)

/-- Parts are resolved against an absolute directory as they are joined, behind the directory if all of them are
relative, and else from the last rooted one on.  What comes out is absolute and canonical, and empty parts do not
count. -/
theorem resolveAll_eq_joinAll {cwd : Path} (h : cwd.isAbsolute = true) (parts : List String) :
    ((∀ part ∈ parts, (Path.mk part).isAbsolute = false) → resolveAll cwd parts = joinAll (cwd.text :: parts)) ∧
      (∀ before rooted after, parts = before ++ rooted :: after → (Path.mk rooted).isAbsolute = true →
        (∀ part ∈ after, (Path.mk part).isAbsolute = false) → resolveAll cwd parts = joinAll (rooted :: after)) ∧
      (Path.mk (resolveAll cwd parts)).IsCanonical ∧
      resolveAll cwd (parts.filter (· ≠ "")) = resolveAll cwd parts := by
  refine ⟨fun hrelative => ?_, fun before rooted after he hrooted hafter => ?_, ?_, ?_⟩
  · exact (joinAll_cons cwd.text hrelative).symm
  · rw [he, resolveAll_append_rooted cwd before after hrooted, joinAll_cons rooted hafter]
  · exact isCanonical_normalize (isAbsolute_foldl_join h parts)
  · rw [resolveAll, resolveAll, normalize_eq, normalize_eq, location_foldl_join, location_foldl_join,
      foldl_follow_filter]

/-- From the last rooted part on, with an empty part behind it. -/
theorem resolveAll_rooted : (Path.mk "/work/app").isAbsolute = true ∧
    resolveAll ⟨"/work/app"⟩ ["lib", "/abs", "", "/abs//y/", "../x.js", ""] = joinAll ["/abs//y/", "../x.js", ""] ∧
    joinAll ["/abs//y/", "../x.js", ""] = "/abs/x.js" := by
  have hcwd : (Path.mk "/work/app").isAbsolute = true := by decide
  refine ⟨hcwd, ?_, by decide +kernel⟩
  exact (resolveAll_eq_joinAll hcwd _).2.1 ["lib", "/abs", ""] "/abs//y/" ["../x.js", ""] rfl (by decide) (by decide)

end ScriptModules.Path
