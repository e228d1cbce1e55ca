import Mathlib.Data.List.Pairwise
import ScriptModules.Config.Document
import ScriptModules.Proofs.Decimal.Words
import ScriptModules.Proofs.Toml.Entries

/-!
# Reading and merging documents

A document is read as a configuration, where every setting has its own kind of value, or it is merged into one, where
a value stands for its text.  The two agree on every value that a setting can have (`Config.setValue_of_read`).  So a
document that sets known settings only lays what it is read as over a configuration, and of several documents the last
one that sets a setting counts (`Config.merges_of_sources`).
-/

namespace ScriptModules

/-- A table whose values are in the order of their keys stays as it is. -/
theorem Toml.orderedEntries?_eq {table : List (String × Toml)}
    (h : ∀ entry ∈ table, entry.2.ordered? = some entry.2) : orderedEntries? table = some table := by
  induction table with
  | nil => rw [orderedEntries?]
  | cons entry rest ih =>
    obtain ⟨key, value⟩ := entry
    rw [List.forall_mem_cons] at h
    rw [orderedEntries?, h.1, ih h.2]
    rfl

/-! ## Settings -/

/-- What can be set. -/
inductive Setting where
  | packageRoot
  | descriptor
  | pathVariable
  | maxSearchDepth
  | extensions
  | extraPaths
  | preserveSymlinks
  | builtins
  deriving DecidableEq

namespace Setting

def key : Setting → String
  | packageRoot => "package-root"
  | descriptor => "descriptor"
  | pathVariable => "path-env"
  | maxSearchDepth => "max-search-depth"
  | extensions => "extensions"
  | extraPaths => "extra-paths"
  | preserveSymlinks => "preserve-symlinks"
  | builtins => "builtins"

/-- The kind of value that a setting has. -/
def Value : Setting → Type
  | packageRoot | descriptor | pathVariable => String
  | maxSearchDepth => Nat
  | extensions => List String
  | extraPaths => List Path
  | preserveSymlinks | builtins => Bool

/-- How the value of a setting is read. -/
def read : (setting : Setting) → Toml → Option setting.Value
  | packageRoot | descriptor | pathVariable => Config.textOf?
  | maxSearchDepth => Config.wordOf?
  | extensions => Config.textsOf?
  | extraPaths => fun value => (Config.textsOf? value).map (·.map Path.mk)
  | preserveSymlinks | builtins => Config.booleanOf?

private theorem key_inj {s t : Setting} (h : s.key = t.key) : s = t := by
  cases s <;> cases t <;> first | rfl | exact absurd h (by decide)

end Setting

namespace Config

def get (config : Config) : (setting : Setting) → setting.Value
  | .packageRoot => config.packageRoot
  | .descriptor => config.descriptor
  | .pathVariable => config.pathVariable
  | .maxSearchDepth => config.maxSearchDepth
  | .extensions => config.extensions
  | .extraPaths => config.extraPaths
  | .preserveSymlinks => config.preserveSymlinks
  | .builtins => config.builtins

def put (config : Config) : (setting : Setting) → setting.Value → Config
  | .packageRoot, value => { config with packageRoot := value }
  | .descriptor, value => { config with descriptor := value }
  | .pathVariable, value => { config with pathVariable := value }
  | .maxSearchDepth, value => { config with maxSearchDepth := value }
  | .extensions, value => { config with extensions := value }
  | .extraPaths, value => { config with extraPaths := value }
  | .preserveSymlinks, value => { config with preserveSymlinks := value }
  | .builtins, value => { config with builtins := value }

/-- A configuration with some of its settings taken from another one. -/
def overlaid (config given : Config) (sets : Setting → Bool) : Config where
  packageRoot := if sets .packageRoot then given.packageRoot else config.packageRoot
  descriptor := if sets .descriptor then given.descriptor else config.descriptor
  pathVariable := if sets .pathVariable then given.pathVariable else config.pathVariable
  maxSearchDepth := if sets .maxSearchDepth then given.maxSearchDepth else config.maxSearchDepth
  extensions := if sets .extensions then given.extensions else config.extensions
  extraPaths := if sets .extraPaths then given.extraPaths else config.extraPaths
  preserveSymlinks := if sets .preserveSymlinks then given.preserveSymlinks else config.preserveSymlinks
  builtins := if sets .builtins then given.builtins else config.builtins

variable {config given : Config} {s t : Setting}

/-- A configuration is known by its settings. -/
theorem ext_get {other : Config} (h : ∀ s, config.get s = other.get s) : config = other := by
  obtain ⟨packageRoot, descriptor, pathVariable, maxSearchDepth, extensions, extraPaths, preserveSymlinks, builtins⟩ :=
    config
  obtain rfl : packageRoot = other.packageRoot := h .packageRoot
  obtain rfl : descriptor = other.descriptor := h .descriptor
  obtain rfl : pathVariable = other.pathVariable := h .pathVariable
  obtain rfl : maxSearchDepth = other.maxSearchDepth := h .maxSearchDepth
  obtain rfl : extensions = other.extensions := h .extensions
  obtain rfl : extraPaths = other.extraPaths := h .extraPaths
  obtain rfl : preserveSymlinks = other.preserveSymlinks := h .preserveSymlinks
  obtain rfl : builtins = other.builtins := h .builtins
  rfl

@[simp] theorem get_put (config : Config) (s : Setting) (value : s.Value) : (config.put s value).get s = value := by
  cases s <;> rfl

private theorem get_put_of_ne (config : Config) (value : s.Value) (h : s ≠ t) :
    (config.put s value).get t = config.get t := by
  cases s <;> cases t <;> first | rfl | exact absurd rfl h

/-- An overlaid configuration has each setting from the one configuration or from the other. -/
@[simp] theorem get_overlaid (config given : Config) (sets : Setting → Bool) (s : Setting) :
    (config.overlaid given sets).get s = if sets s then given.get s else config.get s := by
  cases s <;> rfl

/-! ## Values -/

private theorem textOf?_eq_some {value : Toml} {text : String} (h : textOf? value = some text) :
    value = .string text := by
  cases value <;> simp_all [textOf?]

private theorem textsOf?_eq_some {value : Toml} {texts : List String} (h : textsOf? value = some texts) :
    value = .array (texts.map .string) := by
  cases value with
  | array items =>
    congr 1
    induction items generalizing texts with
    | nil =>
      obtain rfl := Option.some.inj h
      rfl
    | cons item items ih =>
      rw [textsOf?, List.mapM_cons] at h
      obtain ⟨text, htext, h⟩ := Option.bind_eq_some_iff.1 h
      obtain ⟨rest, hrest, h⟩ := Option.bind_eq_some_iff.1 h
      obtain rfl := Option.some.inj h
      rw [textOf?_eq_some htext, ih hrest]
      rfl
  | _ => cases h

private theorem wordOf?_eq_some {value : Toml} {n : Nat} (h : wordOf? value = some n) : value = .integer n := by
  cases value with
  | integer k =>
    rw [wordOf?] at h
    split at h
    · next hk =>
      obtain rfl := Option.some.inj h
      rw [Int.toNat_of_nonneg hk]
    · cases h
  | _ => cases h

private theorem booleanOf?_eq_some {value : Toml} {b : Bool} (h : booleanOf? value = some b) : value = .boolean b := by
  cases value <;> simp_all [booleanOf?]

private theorem entryTexts (key : String) (texts : List String) :
    (texts.map Toml.string).mapM (entryText key) = .ok texts := by
  induction texts with
  | nil => rfl
  | cons text texts ih =>
    rw [List.map_cons, List.mapM_cons, ih]
    rfl

private theorem setValue_texts (config : Config) (key : String) (texts : List String) :
    config.setValue key (.array (texts.map .string)) = config.setList key texts := by
  rw [setValue, entryTexts]
  rfl

/-- A number that fits is what its text says. -/
private theorem setValue_depth (config : Config) {n : Nat} (h : n ≤ 9223372036854775807) :
    config.setValue "max-search-depth" (.integer n) = .ok { config with maxSearchDepth := n } := by
  have hword : Decimal.word? (toString n) = some n := Decimal.word?_toString (Nat.lt_of_le_of_lt h (by decide))
  have hset : config.setValue "max-search-depth" (.integer n) = config.set "max-search-depth" (toString n) := by
    rw [setValue, Toml.writeAlone, Toml.write]
    · rfl
    all_goals exact nofun
  rw [hset, set, hword]

/-- A value that is read as that of a setting sets it to just that, though it may be by way of its text. -/
theorem setValue_of_read (config : Config) {value : Toml} {given : s.Value} (hf : value.Fits)
    (h : s.read value = some given) : config.setValue s.key value = .ok (config.put s given) := by
  cases s with
  | packageRoot | descriptor | pathVariable =>
    obtain rfl := textOf?_eq_some h
    rfl
  | maxSearchDepth =>
    obtain rfl := wordOf?_eq_some h
    exact setValue_depth config (Int.ofNat_le.1 (hf _ rfl).2)
  | extensions =>
    obtain rfl := textsOf?_eq_some h
    exact setValue_texts config _ given
  | extraPaths =>
    obtain ⟨texts, ht, rfl⟩ := Option.map_eq_some_iff.1 h
    obtain rfl := textsOf?_eq_some ht
    exact setValue_texts config _ texts
  | preserveSymlinks | builtins =>
    obtain rfl := booleanOf?_eq_some h
    cases given <;> rfl

/-! ## Tables -/

/-- What a table is read as has in each setting what stands under its key. -/
theorem setting_of_ofTable? {table : List (String × Toml)} (h : ofTable? table = some given) (s : Setting) :
    setting table s.key s.read (standard.get s) = some (given.get s) := by
  unfold ofTable? at h
  simp only [Option.bind_eq_bind, Option.bind_eq_some_iff, Option.pure_def, Option.some.injEq] at h
  obtain ⟨_, hroot, _, hdescriptor, _, hvariable, _, hdepth, _, hextensions, _, hpaths, _, hlinks, _, hbuiltins,
    rfl⟩ := h
  cases s <;> assumption

/-- A value of a setting holds no tables, and so is the same in the order of its keys. -/
theorem ordered?_of_read {value : Toml} {given : s.Value} (h : s.read value = some given) :
    value.ordered? = some value := by
  have htexts {value : Toml} {texts : List String} (h : textsOf? value = some texts) :
      value.ordered? = some value := by
    obtain rfl := textsOf?_eq_some h
    have hitems : Toml.orderedItems? (texts.map Toml.string) = some (texts.map Toml.string) := by
      clear h
      induction texts with
      | nil => rfl
      | cons text texts ih =>
        rw [List.map_cons, Toml.orderedItems?, ih]
        rfl
    rw [Toml.ordered?, hitems]
    rfl
  cases s with
  | packageRoot | descriptor | pathVariable =>
    obtain rfl := textOf?_eq_some h
    rfl
  | maxSearchDepth =>
    obtain rfl := wordOf?_eq_some h
    rfl
  | extensions => exact htexts h
  | extraPaths =>
    obtain ⟨texts, ht, _⟩ := Option.map_eq_some_iff.1 h
    exact htexts ht
  | preserveSymlinks | builtins =>
    obtain rfl := booleanOf?_eq_some h
    rfl

/-- Entries that set what the given configuration has are laid over a configuration one by one. -/
private theorem mergeTable_eq {entries : List (String × Toml)} (config : Config)
    (h : ∀ entry ∈ entries, ∃ s : Setting, s.key = entry.1 ∧
      ∀ config : Config, config.setValue s.key entry.2 = .ok (config.put s (given.get s))) :
    config.mergeTable entries = (config.overlaid given fun s => (entries.map Prod.fst).contains s.key, none) := by
  unfold mergeTable
  induction entries generalizing config with
  | nil =>
    rw [applyAll]
    refine congrArg (·, none) (ext_get fun s => ?_)
    rw [get_overlaid]
    rfl
  | cons entry rest ih =>
    rw [List.forall_mem_cons] at h
    obtain ⟨key, value⟩ := entry
    obtain ⟨⟨s, rfl, hset⟩, hrest⟩ := h
    rw [applyAll]
    simp only [hset config, ih _ hrest]
    refine congrArg (·, none) (ext_get fun t => ?_)
    by_cases hst : s = t
    · subst hst
      simp
    · have hkey : t.key ≠ s.key := fun he => hst (Setting.key_inj he).symm
      rw [get_overlaid, get_overlaid, get_put_of_ne config _ hst, List.map_cons, List.contains_cons,
        beq_false_of_ne hkey, Bool.false_or]

/-! ## Documents -/

/-- A document that can be read as a configuration, and sets known settings only. -/
structure Source where
  text : String
  keys : List String
  given : Config
  parsed : (Toml.parse? text).map (·.map Prod.fst) = some keys
  read : ofDocument text = .ok given
  known : ∀ key ∈ keys, ∃ s : Setting, s.key = key

/-- Does the document set this setting? -/
def Source.sets (source : Source) (s : Setting) : Bool := source.keys.contains s.key

/-- No setting is set by both. -/
def Source.Disjoint (first second : Source) : Prop := ∀ s, ¬ (first.sets s = true ∧ second.sets s = true)

/-- What a document is read as comes from its table. -/
private theorem ofTable?_of_ofDocument {text : String} {table : List (String × Toml)}
    (hp : Toml.parse? text = some table) (h : ofDocument text = .ok given) : ofTable? table = some given := by
  rw [ofDocument, hp, Option.bind_some] at h
  cases ht : ofTable? table with
  | none =>
    rw [ht] at h
    cases h
  | some config =>
    rw [ht] at h
    dsimp only at h
    cases hv : config.validate with
    | error cause =>
      rw [hv] at h
      cases h
    | ok _ =>
      rw [hv] at h
      exact congrArg some (Except.ok.inj h)

/-- What stands under the key of a setting is read as its value. -/
private theorem read_of_mem {table : List (String × Toml)} (ht : Toml.Tidy Toml.Fits table)
    (h : ofTable? table = some given) {value : Toml} (hm : (s.key, value) ∈ table) :
    s.read value = some (given.get s) := by
  have hsetting := setting_of_ofTable? h s
  rw [setting, ht.lookup hm] at hsetting
  exact hsetting

/-- In the table of such a document each entry is that of a setting, with the value that is read. -/
private theorem Source.exists_table (source : Source) : ∃ table, Toml.parse? source.text = some table ∧
    table.map Prod.fst = source.keys ∧ ∀ entry ∈ table, entry.2.Fits ∧
      ∃ s : Setting, s.key = entry.1 ∧ s.read entry.2 = some (source.given.get s) := by
  obtain ⟨table, hp, hkeys⟩ := Option.map_eq_some_iff.1 source.parsed
  have htidy := Toml.tidy_of_parse? hp
  refine ⟨table, hp, hkeys, fun entry he => ⟨htidy.holds entry he, ?_⟩⟩
  obtain ⟨s, hs⟩ := source.known entry.1 (hkeys ▸ List.mem_map_of_mem he)
  exact ⟨s, hs, read_of_mem htidy (ofTable?_of_ofDocument hp source.read) (hs ▸ he)⟩

/-- Merging meets the same entries in the order of their keys, and sets what is read. -/
private theorem mergeTable_of_source (config : Config) (source : Source) : ∃ table,
    Toml.parseOrdered? source.text = some table ∧
      config.mergeTable table = (config.overlaid source.given source.sets, none) := by
  obtain ⟨table, hp, hkeys, hentries⟩ := source.exists_table
  have hsame : Toml.orderedEntries? table = some table := Toml.orderedEntries?_eq fun entry he => by
    obtain ⟨_, s, _, hread⟩ := hentries entry he
    exact ordered?_of_read hread
  have hset : ∀ entry ∈ Keyed.ofList table, ∃ s : Setting, s.key = entry.1 ∧
      ∀ config : Config, config.setValue s.key entry.2 = .ok (config.put s (source.given.get s)) := by
    intro entry he
    obtain ⟨hfits, s, hs, hread⟩ := hentries entry (Keyed.mem_of_mem_ofList he)
    exact ⟨s, hs, fun config => setValue_of_read config hfits hread⟩
  refine ⟨Keyed.ofList table, ?_, ?_⟩
  · rw [Toml.parseOrdered?, hp]
    simp [hsame]
  · rw [mergeTable_eq config hset]
    congr 2
    funext s
    rw [Source.sets, ← hkeys, Bool.eq_iff_iff, List.contains_iff_mem, List.contains_iff_mem]
    exact Keyed.mem_keys_ofList

/-- To merge a document is to lay what it is read as over a configuration. -/
theorem mergeFile_of_source (config : Config) (source : Source) {site : Site} {path : Path}
    (hr : site.readText path = .ok source.text) :
    config.mergeFile site path = (config.overlaid source.given source.sets, none) := by
  obtain ⟨table, hordered, hmerge⟩ := mergeTable_of_source config source
  rw [mergeFile, hr]
  simp only [hordered, hmerge]
  rfl

/-! ## Several documents -/

/-- Merges files one after the other, up to the first that cannot be merged. -/
def mergeFiles (config : Config) (site : Site) : List Path → Config × Option Failure
  | [] => (config, none)
  | path :: paths =>
    match config.mergeFile site path with
    | (config, none) => config.mergeFiles site paths
    | (config, some failure) => (config, some failure)

section

variable {site : Site} {files : List (Path × Source)}

private theorem mergeFiles_eq (hf : ∀ file ∈ files, site.readText file.1 = .ok file.2.text) (config : Config) :
    config.mergeFiles site (files.map Prod.fst) =
      (files.foldl (fun config file => config.overlaid file.2.given file.2.sets) config, none) := by
  induction files generalizing config with
  | nil => rfl
  | cons file files ih =>
    rw [List.forall_mem_cons] at hf
    rw [List.map_cons, mergeFiles, mergeFile_of_source config file.2 hf.1]
    exact ih hf.2 _

/-- The last document that sets a setting counts. -/
private theorem get_foldl_overlaid (files : List (Path × Source)) (config : Config) (s : Setting) :
    (files.foldl (fun config file => config.overlaid file.2.given file.2.sets) config).get s =
      match files.reverse.find? fun file => file.2.sets s with
      | some file => file.2.given.get s
      | none => config.get s := by
  induction files generalizing config with
  | nil => rfl
  | cons file files ih =>
    rw [List.foldl_cons, ih, List.reverse_cons, List.find?_append]
    cases files.reverse.find? fun file => file.2.sets s with
    | some last => rfl
    | none =>
      rw [Option.none_or, get_overlaid, List.find?_singleton]
      cases file.2.sets s <;> rfl

private theorem overlaid_comm (config : Config) {first second : Source} (h : first.Disjoint second) :
    (config.overlaid first.given first.sets).overlaid second.given second.sets =
      (config.overlaid second.given second.sets).overlaid first.given first.sets := by
  refine ext_get fun s => ?_
  simp only [get_overlaid]
  split
  · next hs =>
    rw [if_neg fun hf => h s ⟨hf, hs⟩]
  · rfl

/-- A document that is read as a configuration, and sets known settings only, can be merged into any configuration,
and sets there just what it sets.  Of several such documents the last one that sets a setting counts, so that the order
does not matter where no two of them set the same. -/
theorem merges_of_sources (hf : ∀ file ∈ files, site.readText file.1 = .ok file.2.text) (config : Config) :
    (∀ file ∈ files, ∃ merged, config.mergeFile site file.1 = (merged, none) ∧
      ∀ s, merged.get s = if file.2.sets s then file.2.given.get s else config.get s) ∧
    (∃ merged, config.mergeFiles site (files.map Prod.fst) = (merged, none) ∧
      ∀ s, merged.get s = match files.reverse.find? fun file => file.2.sets s with
        | some file => file.2.given.get s
        | none => config.get s) ∧
    (files.Pairwise (fun first second => first.2.Disjoint second.2) →
      ∀ others : List (Path × Source), others.Perm files →
        config.mergeFiles site (others.map Prod.fst) = config.mergeFiles site (files.map Prod.fst)) := by
  refine ⟨fun file hm => ?_, ?_, fun hd others hp => ?_⟩
  · exact ⟨_, mergeFile_of_source config file.2 (hf file hm), get_overlaid config file.2.given file.2.sets⟩
  · exact ⟨_, mergeFiles_eq hf config, get_foldl_overlaid files config⟩
  · have hsymm : Std.Symm fun first second : Path × Source => first.2.Disjoint second.2 :=
      ⟨fun _ _ h s hs => h s hs.symm⟩
    rw [mergeFiles_eq hf, mergeFiles_eq fun file hm => hf file (hp.mem_iff.1 hm)]
    refine congrArg (·, none) (hp.symm.foldl_eq' (fun first h₁ second h₂ config => ?_) config).symm
    by_cases he : first = second
    · rw [he]
    · exact overlaid_comm config (hd.forall h₁ h₂ he)

end

private theorem eq_ok_of_toOption {ε α : Type} {result : Except ε α} {a : α} (h : result.toOption = some a) :
    result = .ok a := by
  cases result with
  | error _ => cases h
  | ok b => exact congrArg Except.ok (Option.some.inj h)

/-- A document with an empty list, paths that the text of a list would not hold, and a number in another notation. -/
def Source.lists : Source where
  text := "extensions = []\nextra-paths = ['a:b', ' c ']\nmax-search-depth = 0x1_0"
  keys := [Setting.extensions, .extraPaths, .maxSearchDepth].map Setting.key
  given := { standard with extensions := [], extraPaths := [⟨"a:b"⟩, ⟨" c "⟩], maxSearchDepth := 16 }
  parsed := by decide +kernel
  read := eq_ok_of_toOption (by decide +kernel)
  known := List.forall_mem_map.2 fun s _ => ⟨s, rfl⟩

/-- A document that sets other settings. -/
def Source.names : Source where
  text := "package-root = 'x:y'\nbuiltins = false"
  keys := [Setting.packageRoot, .builtins].map Setting.key
  given := { standard with packageRoot := "x:y", builtins := false }
  parsed := by decide +kernel
  read := eq_ok_of_toOption (by decide +kernel)
  known := List.forall_mem_map.2 fun s _ => ⟨s, rfl⟩

/-- A project with both. -/
def Source.project : Site := .ofFiles [("/a", Source.lists.text), ("/b", Source.names.text)]

/-- The two documents can be merged, in either order. -/
theorem merges_of_project : ∃ merged : Config,
    standard.mergeFiles Source.project [⟨"/a"⟩, ⟨"/b"⟩] = (merged, none) ∧
      standard.mergeFiles Source.project [⟨"/b"⟩, ⟨"/a"⟩] = (merged, none) ∧
      merged.extensions = [] ∧ merged.extraPaths = [⟨"a:b"⟩, ⟨" c "⟩] ∧ merged.maxSearchDepth = 16 ∧
      merged.packageRoot = "x:y" ∧ merged.builtins = false := by
  have hread : ∀ file ∈ [((⟨"/a"⟩ : Path), Source.lists), (⟨"/b"⟩, .names)],
      Source.project.readText file.1 = .ok file.2.text :=
    List.forall_mem_cons.2 ⟨eq_ok_of_toOption (by decide +kernel),
      List.forall_mem_cons.2 ⟨eq_ok_of_toOption (by decide +kernel), nofun⟩⟩
  obtain ⟨_, ⟨merged, hmerged, hget⟩, hperm⟩ := merges_of_sources hread standard
  have hdisjoint : Source.lists.Disjoint .names := by
    intro s
    cases s <;> decide
  have hswapped := hperm (List.pairwise_pair.2 hdisjoint) _ (List.Perm.swap _ _ _)
  exact ⟨merged, hmerged, hswapped.trans hmerged, hget .extensions, hget .extraPaths, hget .maxSearchDepth,
    hget .packageRoot, hget .builtins⟩

end Config
end ScriptModules
