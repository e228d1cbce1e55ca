import ScriptModules.Proofs.Parsing.ReadsBack

/-!
# Parsing undoes printing

The text that is rendered for a program, with any spelling of its tokens, parses to the program again
(`parse_render`).  The only other outcome is that the parentheses which the printer adds nest too deep.
-/

namespace ScriptModules.Script

open ScriptModules.Script.Parser

/-! ## The tokens of a program have spellings -/

/-- Some text is a token of this kind, which a program may hold. -/
def Kind.Spellable (kind : Kind) : Prop := kind.isProper = true ∧ ∃ text, Spells text kind

section

variable {kinds : List Kind}

private theorem spellable_mark (m : Mark) : (Kind.mark m).Spellable := ⟨rfl, _, spells_mark m⟩

private theorem spellable_keyword (w : Keyword) : (Kind.keyword w).Spellable := ⟨rfl, _, spells_keyword w⟩

private theorem spellable_string (s : String) : (Kind.string s).Spellable := ⟨rfl, exists_spells_string s⟩

private theorem spellable_ofWord {word : String} (h : SeenWord (fun k => ∃ text, Spells text k) word) :
    (Kind.ofWord word).Spellable := by
  refine ⟨Kind.isProper_ofWord word, word.toList, ?_⟩
  obtain ⟨text, h⟩ | ⟨kind, ⟨text, h⟩, hw⟩ := h
  · exact h.isName.isWord
  · exact h.isWord hw

private theorem spellable_operator (op : UnaryOperator) : op.kind.Spellable := by
  cases op
  case typeof => exact spellable_keyword _
  all_goals exact spellable_mark _

private theorem spellable_delimited {first last : Mark} (h : ∀ k ∈ kinds, k.Spellable) :
    ∀ k ∈ Kind.mark first :: (kinds ++ [.mark last]), k.Spellable :=
  List.forall_mem_cons.2 ⟨spellable_mark _, List.forall_mem_append.2 ⟨h, by simpa using spellable_mark _⟩⟩

private theorem spellable_guarded {needed : Bool} {bare : List Kind} (h : ∀ k ∈ kinds, k.Spellable)
    (hbare : ∀ k ∈ bare, k.Spellable) : ∀ k ∈ guarded needed kinds bare, k.Spellable := by
  cases needed
  · exact hbare
  · exact spellable_delimited h

private theorem spellable_separated {lists : List (List Kind)} (h : ∀ kinds ∈ lists, ∀ k ∈ kinds, k.Spellable) :
    ∀ k ∈ separated lists, k.Spellable := by
  induction lists with
  | nil => simp [separated]
  | cons kinds lists ih =>
    obtain ⟨hkinds, hlists⟩ := List.forall_mem_cons.1 h
    cases lists with
    | nil => exact hkinds
    | cons next lists =>
      rw [separated_cons_cons]
      exact List.forall_mem_append.2 ⟨hkinds, List.forall_mem_cons.2 ⟨spellable_mark _, ih hlists⟩⟩

end

section

variable {body : List Statement} {bound : List (String × Option Expression)} {kind : DeclarationKind}

private theorem spellable_items {items : List Expression}
    (h : ∀ item ∈ items, ∀ first, ∀ k ∈ item.kinds first, k.Spellable) :
    ∀ k ∈ separated (kindsOfItems items), k.Spellable := by
  rw [kindsOfItems_eq]
  exact spellable_separated (List.forall_mem_map.2 fun item hm => h item hm false)

private theorem spellable_entries {entries : List (String × Expression)}
    (h : ∀ entry ∈ entries, ∀ first, ∀ k ∈ entry.2.kinds first, k.Spellable) :
    ∀ k ∈ separated (kindsOfEntries entries), k.Spellable := by
  rw [kindsOfEntries_eq]
  refine spellable_separated (List.forall_mem_map.2 fun entry hm => ?_)
  exact List.forall_mem_cons.2 ⟨spellable_string _, List.forall_mem_cons.2 ⟨spellable_mark _, h entry hm false⟩⟩

private theorem spellable_statements (h : ∀ s ∈ body, ∀ k ∈ s.kinds, k.Spellable) :
    ∀ k ∈ kindsOfStatements body, k.Spellable := by
  induction body with
  | nil => simp [kindsOfStatements]
  | cons s body ih =>
    obtain ⟨hs, hbody⟩ := List.forall_mem_cons.1 h
    exact List.forall_mem_append.2 ⟨hs, ih hbody⟩

private theorem spellable_block (h : ∀ s ∈ body, ∀ k ∈ s.kinds, k.Spellable) :
    ∀ k ∈ braced (kindsOfStatements body), k.Spellable :=
  spellable_delimited (spellable_statements h)

private theorem spellable_function {f : Function}
    (h : f.Holds (fun k => ∃ text, Spells text k) fun s => ∀ k ∈ s.kinds, k.Spellable) :
    ∀ k ∈ f.kinds, k.Spellable := by
  obtain ⟨name, parameters, body⟩ := f
  have hparts : ∀ k ∈ enclosed (separated (parameters.map fun name => [.identifier name])) ++
      braced (kindsOfStatements body), k.Spellable := by
    refine List.forall_mem_append.2 ⟨spellable_delimited (spellable_separated ?_), spellable_block h.body⟩
    exact List.forall_mem_map.2 fun x hx => by simpa using ⟨rfl, h.parameters x hx⟩
  cases name with
  | none => exact List.forall_mem_cons.2 ⟨spellable_keyword _, hparts⟩
  | some name =>
    refine List.forall_mem_cons.2 ⟨spellable_keyword _, List.forall_mem_cons.2 ⟨⟨rfl, h.name name rfl⟩, hparts⟩⟩

private theorem spellable_bindings
    (h : ∀ b ∈ bound, Binds (fun k => ∃ text, Spells text k) (fun e => ∀ first, ∀ k ∈ e.kinds first, k.Spellable)
      kind b) :
    ∀ kinds ∈ kindsOfBindings bound, ∀ k ∈ kinds, k.Spellable := by
  induction bound with
  | nil => simp [kindsOfBindings]
  | cons b bound ih =>
    obtain ⟨hb, hbound⟩ := List.forall_mem_cons.1 h
    obtain ⟨name, _ | value⟩ := b
    · exact List.forall_mem_cons.2 ⟨by simpa using ⟨rfl, hb.name⟩, ih hbound⟩
    · have hvalue := List.forall_mem_cons.2 ⟨spellable_mark .equal, hb.value value rfl false⟩
      exact List.forall_mem_cons.2 ⟨List.forall_mem_cons.2 ⟨⟨rfl, hb.name⟩, hvalue⟩, ih hbound⟩

private theorem spellable_handler {handler : Option Handler}
    (h : ∀ parameter caught, some (Handler.mk parameter caught) = handler →
      (∀ x ∈ parameter, ∃ text, Spells text (.identifier x)) ∧ ∀ s ∈ caught, ∀ k ∈ s.kinds, k.Spellable) :
    ∀ k ∈ kindsOfHandler handler, k.Spellable := by
  obtain _ | ⟨⟨_ | parameter, caught⟩⟩ := handler
  · simp [kindsOfHandler]
  · exact List.forall_mem_cons.2 ⟨spellable_keyword _, spellable_block (h none caught rfl).2⟩
  · obtain ⟨hparameter, hcaught⟩ := h (some parameter) caught rfl
    refine List.forall_mem_cons.2 ⟨spellable_keyword _, List.forall_mem_append.2 ⟨?_, spellable_block hcaught⟩⟩
    exact spellable_delimited (by simpa using ⟨rfl, hparameter parameter rfl⟩)

end

private theorem grammar_spellable : Grammar (fun k => ∃ text, Spells text k)
    (fun _ _ e => ∀ first, ∀ k ∈ e.kinds first, k.Spellable) (fun _ s => ∀ k ∈ s.kinds, k.Spellable) where
  number h _ := by simpa [Expression.kinds] using ⟨rfl, h⟩
  string h _ := by simpa [Expression.kinds] using spellable_string _
  boolean b _ := by cases b <;> simpa [Expression.kinds] using spellable_keyword _
  null _ := by simpa [Expression.kinds] using spellable_keyword _
  identifier h _ := by simpa [Expression.kinds] using ⟨rfl, h⟩
  array h _ := by
    rw [Expression.kinds]
    exact spellable_delimited (spellable_items h)
  object h _ := by
    rw [Expression.kinds]
    exact spellable_guarded (spellable_delimited (spellable_entries h)) (spellable_delimited (spellable_entries h))
  function h _ := by
    rw [Expression.kinds]
    exact spellable_guarded (spellable_function h) (spellable_function h)
  parenthesized h := h
  member h hw first := by
    rw [Expression.kinds, List.forall_mem_append]
    exact ⟨spellable_guarded (h _) (h _), by simpa using ⟨spellable_mark _, spellable_ofWord hw⟩⟩
  index h hk first := by
    rw [Expression.kinds, List.forall_mem_append]
    exact ⟨spellable_guarded (h _) (h _), spellable_delimited (hk _)⟩
  call h ha first := by
    rw [Expression.kinds, List.forall_mem_append]
    exact ⟨spellable_guarded (h _) (h _), spellable_delimited (spellable_items ha)⟩
  construct h ha first := by
    rw [Expression.kinds, List.forall_mem_cons, List.forall_mem_append]
    exact ⟨spellable_keyword _, spellable_guarded (h _) (h _), spellable_delimited (spellable_items ha)⟩
  unary op h first := by
    rw [Expression.kinds, List.forall_mem_cons]
    exact ⟨spellable_operator op, spellable_guarded (h _) (h _)⟩
  binary op hl hr first := by
    rw [Expression.kinds, List.forall_mem_append, List.forall_mem_cons]
    exact ⟨spellable_guarded (hl _) (hl _), spellable_mark _, spellable_guarded (hr _) (hr _)⟩
  logical op hl hr first := by
    rw [Expression.kinds, List.forall_mem_append, List.forall_mem_cons]
    exact ⟨spellable_guarded (hl _) (hl _), spellable_mark _, spellable_guarded (hr _) (hr _)⟩
  assign _ ht hv first := by
    rw [Expression.kinds, List.forall_mem_append, List.forall_mem_cons]
    exact ⟨spellable_guarded (ht _) (ht _), spellable_mark _, hv _⟩
  looser h := h
  declare _ h := by
    rw [Statement.kinds, List.forall_mem_cons, List.forall_mem_append]
    exact ⟨spellable_keyword _, spellable_separated (spellable_bindings h), by simpa using spellable_mark _⟩
  expression h := by
    rw [Statement.kinds, List.forall_mem_append]
    exact ⟨h true, by simpa using spellable_mark _⟩
  block h := by
    rw [Statement.kinds]
    exact spellable_block h
  conditional ht hyes := by
    rw [Statement.kinds, List.forall_mem_cons, List.forall_mem_append]
    exact ⟨spellable_keyword _, spellable_delimited (ht _), hyes⟩
  alternative ht hyes _ hno := by
    rw [Statement.kinds, List.forall_mem_cons, List.forall_mem_append, List.forall_mem_append, List.forall_mem_cons]
    exact ⟨spellable_keyword _, spellable_delimited (ht _), hyes, spellable_keyword _, hno⟩
  throw_ h := by
    rw [Statement.kinds, List.forall_mem_cons, List.forall_mem_append]
    exact ⟨spellable_keyword _, h _, by simpa using spellable_mark _⟩
  declaredFunction _ h := by
    rw [Statement.kinds]
    exact spellable_function h
  return_ := by
    intro _ value? h
    cases value? with
    | none => simpa [Statement.kinds] using ⟨spellable_keyword _, spellable_mark _⟩
    | some value =>
      rw [Statement.kinds, List.forall_mem_cons, List.forall_mem_append]
      exact ⟨spellable_keyword _, h value rfl _, by simpa using spellable_mark _⟩
  try_ := by
    intro _ body handler finalizer hb hh hf _
    cases finalizer with
    | none =>
      rw [Statement.kinds, List.forall_mem_cons, List.forall_mem_append]
      exact ⟨spellable_keyword _, spellable_block hb, spellable_handler hh⟩
    | some last =>
      rw [Statement.kinds, List.forall_mem_cons, List.forall_mem_append, List.forall_mem_append, List.forall_mem_cons]
      exact ⟨spellable_keyword _, spellable_block hb, spellable_handler hh, spellable_keyword _,
        spellable_block (hf last rfl)⟩
  empty := by simpa [Statement.kinds] using spellable_mark _

/-! ## Round trips -/

/-- The tokens of the program are spelled so that the scanner reads them back. -/
def Writes (write : Kind → String) (program : List Statement) : Prop :=
  ∀ kind ∈ kindsOfStatements program, Spells (write kind).toList kind

private theorem spellable_of_parse {source : String} {program : List Statement} (h : parse source = .ok program) :
    ∀ kind ∈ kindsOfStatements program, kind.Spellable :=
  spellable_statements (grammar_spellable.parse (fun _ hm hk => exists_spells_of_mem_scan hm hk) h).1

private theorem exists_writes (program : List Statement) (h : ∀ kind ∈ kindsOfStatements program, kind.Spellable) :
    ∃ write, Writes write program := by
  classical
  refine ⟨fun kind => if h : ∃ text, Spells text kind then String.ofList h.choose else "", fun kind hm => ?_⟩
  have hkind := (h kind hm).2
  simp only [dif_pos hkind, String.toList_ofList]
  exact hkind.choose_spec

/-- Tokens from which the statements of a program are read are those of a text that parses to it. -/
theorem parse_of_stands {deep : Prop} {source : String} {program : List Statement}
    (hstands : ∀ rounds, ∀ s ∈ program, s.Stands deep (nested rounds nestingLimit))
    (hkinds : (scan source).map Token.kind = kindsOfStatements program ++ [.eof]) :
    parse source = .ok program ∨ deep ∧ ∃ offset, parse source = .error ⟨.tooDeep, offset⟩ := by
  obtain ⟨own, rest, hscan, hown, hrest⟩ := List.map_eq_append_iff.1 hkinds
  have hlast : (current rest).kind = .eof := by
    obtain ⟨last, rfl, hlast⟩ := List.map_eq_singleton_iff.1 hrest
    exact hlast
  have hrounds := nested_rounds (own ++ rest).length nestingLimit
  rw [parse_of_scan hscan]
  obtain h | ⟨hdeep, offset, h⟩ := Statement.ReadsBack.statements (Nat.le_of_eq hrounds.symm) (hstands _) own rest hown
    (Nat.le_refl _) hlast
  · exact .inl (by rw [h]; rfl)
  · exact .inr ⟨hdeep, offset, by rw [h]; rfl⟩

/-- A program that was parsed has a text, and however its tokens are spelled there, the text parses to the program
again, unless it nests too deep. -/
theorem parse_render {source : String} {program : List Statement} (h : parse source = .ok program) :
    (∃ write, Writes write program) ∧
    ∀ write, Writes write program → (∀ offset, parse (render write program) ≠ .error ⟨.tooDeep, offset⟩) →
      parse (render write program) = .ok program := by
  have hspell := spellable_of_parse h
  refine ⟨exists_writes program hspell, fun write hwrite hdeep => ?_⟩
  have hscan := map_kind_scan_intercalate fun kind hm => ⟨(hspell kind hm).1, hwrite kind hm⟩
  have hback := (grammar_readsBack.parse (fun _ _ _ => trivial) h).1
  obtain hparse | ⟨-, offset, htoo⟩ := parse_of_stands (fun _ s hs => (hback s hs).stands) hscan
  · exact hparse
  · exact absurd htoo (hdeep offset)

/-- The text of a token that is neither a number nor a string. -/
def Kind.plainText : Kind → String
  | .mark m => m.text
  | .identifier name => name
  | kind => kind.word?.getD ""

/-- Parentheses that nothing needs are gone, and the others are written again. -/
theorem parse_render_grouped :
    ∃ program, parse "((a) + b) * c" = .ok program ∧ render Kind.plainText program = "( a + b ) * c ;" ∧
      parse (render Kind.plainText program) = .ok program := by
  have hscan : scan "((a) + b) * c" = [⟨.mark .leftParen, 0⟩, ⟨.mark .leftParen, 1⟩, ⟨.identifier "a", 2⟩,
      ⟨.mark .rightParen, 3⟩, ⟨.mark .plus, 5⟩, ⟨.identifier "b", 7⟩, ⟨.mark .rightParen, 8⟩, ⟨.mark .star, 10⟩,
      ⟨.identifier "c", 12⟩, ⟨.eof, 13⟩] := by decide +kernel
  have hparse : parse "((a) + b) * c" = .ok [.expression (.binary .multiply
      (.binary .add (.identifier "a") (.identifier "b")) (.identifier "c"))] := parse_of_scan hscan
  have hrender : render Kind.plainText [.expression (.binary .multiply
      (.binary .add (.identifier "a") (.identifier "b")) (.identifier "c"))] = "( a + b ) * c ;" := by decide +kernel
  have hagain : (parse "( a + b ) * c ;").toBool = true := by decide +kernel
  have hspells : ∀ kind ∈ [Kind.mark .leftParen, .identifier "a", .mark .plus, .identifier "b", .mark .rightParen,
      .mark .star, .identifier "c", .mark .semicolon], Spells kind.plainText.toList kind := by
    simp only [List.forall_mem_cons]
    exact ⟨spells_mark _, ⟨_, _, rfl, rfl⟩, spells_mark _, ⟨_, _, rfl, rfl⟩, spells_mark _, spells_mark _,
      ⟨_, _, rfl, rfl⟩, spells_mark _, by simp⟩
  refine ⟨_, hparse, hrender, (parse_render hparse).2 _ hspells fun offset hdeep => ?_⟩
  rw [hrender] at hdeep
  rw [hdeep] at hagain
  contradiction

end ScriptModules.Script
