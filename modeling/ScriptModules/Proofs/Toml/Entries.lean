import ScriptModules.Toml.Read

/-!
# What a document holds

In the table that a document is no key comes twice, and its integers fit into 64 bits (`Toml.tidy_of_parse?`).  The
latter holds of all that is read (`Reader.Gives`), and both are kept by each line that is taken in (`Tidy.add`).
-/

namespace ScriptModules.Toml

/-- If the value is an integer, it fits into 64 bits with a sign. -/
def Fits (value : Toml) : Prop :=
  ∀ n, value = .integer n → -9223372036854775808 ≤ n ∧ n ≤ 9223372036854775807

/-- If the line is an entry, its value fits. -/
def Line.Fits : Line → Prop
  | .entry _ value => value.Fits
  | _ => True

/-- If the node is a value, that fits. -/
def Node.Fits : Node → Prop
  | .value given => given.Fits
  | _ => True

/-! ## What is read -/

namespace Reader

variable {α β : Type} {holds : α → Prop}

/-- All that is read has this property. -/
def Gives (holds : α → Prop) (reader : Reader α) : Prop := ∀ cs a rest, reader cs = some (a, rest) → holds a

namespace Gives

private theorem pure {a : α} (h : holds a) : Gives holds (Pure.pure a : Reader α) := by
  intro cs b rest hr
  obtain ⟨rfl, _⟩ := Prod.mk.inj (Option.some.inj hr)
  exact h

private theorem refuse : Gives holds (Reader.refuse : Reader α) := nofun

private theorem bind {reader : Reader β} {next : β → Reader α} {first : β → Prop} (h : Gives first reader)
    (hn : ∀ b, first b → Gives holds (next b)) : Gives holds (reader >>= next) := by
  intro cs a rest hr
  obtain ⟨⟨b, middle⟩, hfirst, hnext⟩ := Option.bind_eq_some_iff.1 hr
  exact hn b (h cs b middle hfirst) middle a rest hnext

/-- Only what is read last counts. -/
theorem last {reader : Reader β} {next : β → Reader α} (hn : ∀ b, Gives holds (next b)) :
    Gives holds (reader >>= next) := by
  have hany : Gives (fun _ => True) reader := fun _ _ _ _ => trivial
  exact .bind hany fun b _ => hn b

private theorem orElse {first second : Reader α} (h : Gives holds first) (h' : Gives holds second) :
    Gives holds (first <|> second) := by
  intro cs a rest hr
  change (first cs).orElse (fun _ => second cs) = _ at hr
  cases hf : first cs with
  | none =>
    rw [hf] at hr
    exact h' cs a rest hr
  | some result =>
    rw [hf] at hr
    exact h cs a rest (hf.trans hr)

private theorem ite {condition : Prop} [Decidable condition] {first second : Reader α} (h : Gives holds first)
    (h' : Gives holds second) : Gives holds (if condition then first else second) := by
  split
  · exact h
  · exact h'

end Gives

/-! ## Values -/

private theorem gives_fits_integer : Gives Fits integer := by
  unfold integer
  refine .last fun n => ?_
  split
  · next hn =>
    refine .pure fun m hm => ?_
    obtain rfl := Toml.integer.inj hm
    simpa using hn
  · exact .refuse

private theorem gives_fits_float : Gives Fits float := by
  unfold float
  refine .last fun negative => .orElse (.orElse (.last fun _ => .pure nofun) (.last fun _ => .pure nofun)) ?_
  refine .last fun cs => .last fun fraction? => .last fun exponent? => ?_
  dsimp only
  exact .ite (.last fun _ => .ite .refuse (.pure nofun)) (.ite .refuse (.pure nofun))

private theorem gives_fits_moment : Gives Fits moment := by
  unfold moment
  refine .orElse (.last fun date => .last fun time? => ?_) (.last fun time => .pure nofun)
  split
  · exact .pure nofun
  · exact .pure nofun

private theorem gives_fits_scalar : Gives Fits scalar := by
  unfold scalar
  refine .last fun c? => ?_
  split
  · exact .last fun _ => .pure nofun
  · exact .last fun _ => .pure nofun
  · exact .last fun _ => .pure nofun
  · exact .last fun _ => .pure nofun
  · exact .orElse gives_fits_moment (.orElse gives_fits_float gives_fits_integer)

/-- What is between brackets is no integer. -/
theorem gives_fits_value (depth : Nat) : Gives Fits (value depth) := by
  cases depth with
  | zero => exact gives_fits_scalar
  | succ depth =>
    unfold value valueOver
    refine .last fun c? => ?_
    split
    · exact .last fun _ => .last fun _ => .last fun _ => .pure nofun
    · refine .last fun _ => ?_
      unfold inlineTable
      refine .last fun _ => .last fun closed => .ite (.pure nofun) (.last fun _ => .last fun entries => ?_)
      split
      · exact .pure nofun
      · exact .refuse
    · exact gives_fits_scalar

/-! ## Lines -/

private theorem gives_fits_line : Gives (fun line? => ∀ line ∈ line?, line.Fits) line := by
  have hheader : Gives Line.Fits header := by
    unfold header
    refine .last fun twice => ?_
    exact .ite (.last fun path => .last fun _ => .pure trivial) (.last fun path => .last fun _ => .pure trivial)
  have hentry : Gives (fun entry => entry.2.Fits) (keyAndValue (value nestingLimit)) := by
    unfold keyAndValue
    exact .last fun path => .last fun _ => .last fun _ => .bind (gives_fits_value _) fun value h => .pure h
  have hsome {found : Line} (h : found.Fits) : ∀ line ∈ some found, line.Fits := by
    rintro line ⟨⟩
    exact h
  unfold line
  refine .last fun _ => .last fun c? => ?_
  split
  · exact .last fun _ => .pure nofun
  · exact .last fun _ => .pure nofun
  · exact .last fun _ => .pure nofun
  · exact .last fun _ => .pure nofun
  · exact .last fun _ => .bind hheader fun line h => .last fun _ => .pure (hsome h)
  · exact .bind hentry fun entry h => .last fun _ => .pure (hsome h)

private theorem gives_fits_allLines (fuel : Nat) : Gives (fun lines => ∀ line ∈ lines, line.Fits) (allLines fuel) := by
  induction fuel with
  | zero => exact .pure nofun
  | succ fuel ih =>
    unfold allLines
    refine .last fun rest => .ite (.pure nofun) (.bind gives_fits_line fun line? h => ?_)
    cases line? with
    | some line => exact .bind ih fun lines hl => .pure (List.forall_mem_cons.2 ⟨h line rfl, hl⟩)
    | none => exact ih

end Reader

/-! ## Tables -/

/-- No key comes twice, and this is true of all that is under the keys. -/
structure Tidy {α : Type} (holds : α → Prop) (entries : List (String × α)) : Prop where
  distinct : (entries.map Prod.fst).Nodup
  holds : ∀ entry ∈ entries, holds entry.2

/-- In a table without double keys an entry is found under its key. -/
theorem Tidy.lookup {α : Type} {holds : α → Prop} {entries : List (String × α)} (h : Tidy holds entries) {key : String}
    {value : α} (hm : (key, value) ∈ entries) : entries.lookup key = some value := by
  have hd := h.distinct
  clear h
  induction entries with
  | nil => cases hm
  | cons entry rest ih =>
    obtain ⟨k, v⟩ := entry
    rw [List.map_cons, List.nodup_cons] at hd
    rcases List.mem_cons.1 hm with he | hr
    · obtain ⟨rfl, rfl⟩ := Prod.mk.inj he
      exact List.lookup_cons_self
    · have hk : key ∈ rest.map Prod.fst := List.mem_map.2 ⟨_, hr, rfl⟩
      have hne : key ≠ k := fun he => hd.1 (he ▸ hk)
      rw [List.lookup_cons, beq_false_of_ne hne]
      exact ih hr hd.2

section

variable {key : String} {node : Node} {entries made : Entries} {path : List String}

private theorem mem_put {entry : String × Node} (h : entry ∈ put key node entries) :
    entry = (key, node) ∨ entry ∈ entries := by
  induction entries with
  | nil => exact .inl (List.mem_singleton.1 h)
  | cons first rest ih =>
    obtain ⟨k, old⟩ := first
    unfold put at h
    split at h
    · exact (List.mem_cons.1 h).imp_right (List.mem_cons_of_mem _)
    · rcases List.mem_cons.1 h with rfl | h
      · exact .inr List.mem_cons_self
      · exact (ih h).imp_right (List.mem_cons_of_mem _)

private theorem nodup_put (h : (entries.map Prod.fst).Nodup) : ((put key node entries).map Prod.fst).Nodup := by
  induction entries with
  | nil => exact List.pairwise_singleton _ key
  | cons first rest ih =>
    obtain ⟨k, old⟩ := first
    rw [List.map_cons, List.nodup_cons] at h
    unfold put
    split
    · next hk =>
      subst hk
      exact List.nodup_cons.2 h
    · next hne =>
      refine List.nodup_cons.2 ⟨fun hm => ?_, ih h.2⟩
      obtain ⟨entry, he, hkey⟩ := List.mem_map.1 hm
      rcases mem_put he with rfl | he
      · exact hne hkey.symm
      · exact h.1 (hkey ▸ List.mem_map_of_mem he)

private theorem Tidy.put (h : Tidy Node.Fits entries) (hn : node.Fits) : Tidy Node.Fits (put key node entries) where
  distinct := nodup_put h.distinct
  holds entry he := by
    rcases mem_put he with rfl | he
    · exact hn
    · exact h.holds entry he

/-- A change at the end of a path keeps a table tidy if it does where it is made: what is made on the way are tables. -/
theorem Tidy.update {origin own : Origin} {change : Origin → Entries → Option Entries} (h : Tidy Node.Fits entries)
    (hc : ∀ own entries made, change own entries = some made → Tidy Node.Fits entries → Tidy Node.Fits made)
    (hu : update origin change path own entries = some made) : Tidy Node.Fits made := by
  cases path with
  | nil => exact hc own entries made hu h
  | cons key path =>
    have hput {node : Node} (hmade : some (Toml.put key node entries) = some made) (hn : node.Fits) :
        Tidy Node.Fits made := by
      obtain rfl := Option.some.inj hmade
      exact h.put hn
    unfold Toml.update at hu
    dsimp only at hu
    split at hu
    · obtain ⟨_, hnode, hmade⟩ := Option.bind_eq_some_iff.1 hu
      obtain ⟨_, _, rfl⟩ := Option.map_eq_some_iff.1 hnode
      exact hput hmade trivial
    · cases hu
    · split at hu
      · cases hu
      · obtain ⟨_, hnode, hmade⟩ := Option.bind_eq_some_iff.1 hu
        obtain ⟨_, _, rfl⟩ := Option.map_eq_some_iff.1 hnode
        exact hput hmade trivial
    · cases hu
    · obtain ⟨_, _, hu⟩ := Option.bind_eq_some_iff.1 hu
      exact hput hu trivial

private theorem Tidy.addEntry {value : Toml} {own : Origin} (h : Tidy Node.Fits entries) (hv : value.Fits)
    (ha : addEntry path value own entries = some made) : Tidy Node.Fits made := by
  unfold Toml.addEntry at ha
  split at ha
  · cases ha
  · refine h.update (fun owner entries made hc h => ?_) ha
    split at hc
    · cases hc
    · split at hc
      · cases hc
      · obtain rfl := Option.some.inj hc
        exact h.put hv

private theorem Tidy.openTable (h : Tidy Node.Fits entries) (ho : openTable path entries = some made) :
    Tidy Node.Fits made := by
  unfold Toml.openTable at ho
  split at ho
  · cases ho
  · next key _ =>
    refine h.update (fun _ entries made hc h => ?_) ho
    split at hc
    · obtain rfl := Option.some.inj hc
      exact h.put trivial
    · -- The table is taken out and put in again behind all others.
      obtain rfl := Option.some.inj hc
      refine ⟨?_, fun entry he => ?_⟩
      · rw [List.map_append, List.nodup_append]
        refine ⟨h.distinct.sublist (List.filter_sublist.map _), List.pairwise_singleton _ _, ?_⟩
        rintro a ha b hb rfl
        obtain ⟨entry, he, rfl⟩ := List.mem_map.1 ha
        simp at he hb
        exact he.2 hb
      · rcases List.mem_append.1 he with he | he
        · exact h.holds entry (List.mem_filter.1 he).1
        · obtain rfl := List.mem_singleton.1 he
          trivial
    · cases hc

private theorem Tidy.openItem (h : Tidy Node.Fits entries) (ho : openItem path entries = some made) :
    Tidy Node.Fits made := by
  unfold Toml.openItem at ho
  split at ho
  · cases ho
  · refine h.update (fun _ entries made hc h => ?_) ho
    split at hc
    · obtain rfl := Option.some.inj hc
      exact h.put trivial
    · obtain rfl := Option.some.inj hc
      exact h.put trivial
    · cases hc

/-- Each line that is taken in keeps the table tidy. -/
theorem Tidy.add {progress later : Progress} {line : Line} (h : Tidy Node.Fits progress.entries) (hl : line.Fits)
    (ha : progress.add line = some later) : Tidy Node.Fits later.entries := by
  cases line with
  | header path =>
    obtain ⟨made, hmade, rfl⟩ := Option.map_eq_some_iff.1 ha
    exact h.openTable hmade
  | listHeader path =>
    obtain ⟨made, hmade, rfl⟩ := Option.map_eq_some_iff.1 ha
    exact h.openItem hmade
  | entry path value =>
    obtain ⟨made, hmade, rfl⟩ := Option.map_eq_some_iff.1 ha
    exact h.update (fun own entries made hc h => h.addEntry hl hc) hmade

end

/-! ## Documents -/

private theorem tidy_of_foldlM {lines : List Line} (hl : ∀ line ∈ lines, line.Fits) {progress later : Progress}
    (h : Tidy Node.Fits progress.entries) (hf : lines.foldlM Progress.add progress = some later) :
    Tidy Node.Fits later.entries := by
  induction lines generalizing progress with
  | nil =>
    obtain rfl := Option.some.inj hf
    exact h
  | cons line lines ih =>
    rw [List.forall_mem_cons] at hl
    rw [List.foldlM_cons] at hf
    obtain ⟨middle, hadd, hf⟩ := Option.bind_eq_some_iff.1 hf
    exact ih hl.2 (h.add hl.1 hadd) hf

private theorem finishEntries_eq (entries : Entries) :
    finishEntries entries = entries.map fun entry => (entry.1, entry.2.finish) := by
  induction entries with
  | nil => rw [finishEntries, List.map_nil]
  | cons entry entries ih => rw [finishEntries, ih, List.map_cons]

private theorem Node.Fits.finish {node : Node} (h : node.Fits) : node.finish.Fits := by
  cases node with
  | value given =>
    rw [Node.finish]
    exact h
  | table origin entries =>
    rw [Node.finish]
    exact nofun
  | tables items =>
    rw [Node.finish]
    exact nofun

/-- In a document no key comes twice, and integers fit. -/
theorem tidy_of_parse? {text : String} {table : List (String × Toml)} (h : parse? text = some table) :
    Tidy Fits table := by
  obtain ⟨⟨lines, rest⟩, hlines, htable⟩ := Option.bind_eq_some_iff.1 h
  obtain ⟨progress, hprogress, rfl⟩ := Option.map_eq_some_iff.1 htable
  have hfits : ∀ line ∈ lines, line.Fits := Reader.gives_fits_allLines _ _ lines rest hlines
  have hempty : Tidy Node.Fits (⟨[], []⟩ : Progress).entries := ⟨List.nodup_nil, nofun⟩
  have htidy : Tidy Node.Fits progress.entries := tidy_of_foldlM hfits hempty hprogress
  rw [finishEntries_eq]
  refine ⟨?_, fun entry he => ?_⟩
  · rw [List.map_map]
    exact htidy.distinct
  · obtain ⟨given, hgiven, rfl⟩ := List.mem_map.1 he
    exact (htidy.holds given hgiven).finish

end ScriptModules.Toml
