import ScriptModules.Proofs.Parsing.Grammar
import ScriptModules.Proofs.Parsing.Phrases

/-!
# Well-formed programs

What the tree of a program may not hold although its type allows it (`Phrase.IsSound`), and that the parser never
builds it, at any depth (`wellFormed_of_parse`).
-/

namespace ScriptModules.Script

/-- The text is made of the characters of a name, and it is no word of the language. -/
structure IsIdentifier (name : String) : Prop where
  characters : ∃ c cs, name.toList = c :: cs ∧ isNameStart c = true ∧ ∀ c ∈ cs, isNamePart c = true
  not_keyword : ∀ keyword : Keyword, keyword.text ≠ name
  not_reserved : name ∉ reservedWords

/-- So is what is read as a name. -/
theorem IsName.isIdentifier {name : String} (h : IsName name) : IsIdentifier name := by
  have hword := h.ofWord
  obtain ⟨c, cs, hname, hl⟩ := h
  refine ⟨⟨c, cs, hname, ?_⟩, fun keyword hk => ?_, fun hr => ?_⟩
  · obtain ⟨_, hm⟩ | ⟨_, hm⟩ | ⟨_, _, _, hm⟩ | ⟨hc, hw⟩ := lexeme_cases hl rfl
    · contradiction
    · contradiction
    · contradiction
    · have htail : cs.takeWhile isNamePart = cs :=
        (List.takeWhile_prefix isNamePart).eq_of_length (Prod.mk.inj hw).2
      have hall : (cs.takeWhile isNamePart).all isNamePart = true := List.all_takeWhile
      rw [htail] at hall
      exact ⟨hc, List.all_eq_true.1 hall⟩
  · rw [← hk, Kind.ofWord, Keyword.ofText?_text] at hword
    contradiction
  · unfold Kind.ofWord at hword
    split at hword
    · contradiction
    · rw [if_pos (List.contains_iff_mem.2 hr)] at hword
      contradiction

namespace Phrase

/-- The phrase itself is as the language has it, whatever its parts are. -/
def IsSound : Phrase → Prop
  | expression (.identifier name) => IsIdentifier name
  | expression (.assign target _) => target.isTarget = true
  | statement (.declare kind bindings) =>
    ∀ binding ∈ bindings, IsIdentifier binding.1 ∧ (kind = .const_ → binding.2.isSome = true)
  | statement (.function f) => f.name.isSome = true
  | statement (.try_ _ handler finalizer) =>
    (handler.isSome = true ∨ finalizer.isSome = true) ∧ ∀ h ∈ handler, ∀ name ∈ h.parameter, IsIdentifier name
  | function f => (∀ name ∈ f.name, IsIdentifier name) ∧ ∀ name ∈ f.parameters, IsIdentifier name
  | _ => True

/-- All phrases that occur in the phrase are sound. -/
def WellFormed (phrase : Phrase) : Prop := ∀ part : Phrase, part.OccursIn phrase → part.IsSound

private theorem wellFormed_iff {phrase : Phrase} :
    phrase.WellFormed ↔ phrase.IsSound ∧ ∀ part ∈ phrase.parts, part.WellFormed := by
  constructor
  · exact fun h => ⟨h phrase (.refl _), fun part hm inner hi => h inner (.part hm hi)⟩
  · rintro ⟨hsound, hparts⟩ inner hi
    obtain rfl | ⟨part, hm, hi⟩ := occursIn_iff.1 hi
    · exact hsound
    · exact hparts part hm inner hi

namespace WellFormed

variable {e e' : Expression} {s s' : Statement} {f : Function} {body : List Statement}

private theorem part {part whole : Phrase} (h : whole.WellFormed) (hm : part ∈ whole.parts) : part.WellFormed :=
  (wellFormed_iff.1 h).2 part hm

private theorem operand (h : (expression e).WellFormed) (hm : e' ∈ e.operands) : (expression e').WellFormed :=
  h.part (List.mem_append_left _ (List.mem_map_of_mem hm))

theorem evaluated (h : (expression e).WellFormed) (hm : e' ∈ e.evaluated) : (expression e').WellFormed := by
  cases e with
  | assign target value =>
    obtain hm | hm := List.mem_append.1 hm
    · have htarget : (expression target).WellFormed := h.operand List.mem_cons_self
      exact htarget.operand hm
    · exact h.operand (List.mem_cons_of_mem _ hm)
  | _ => exact h.operand hm

theorem made (h : (expression e).WellFormed) (hm : f ∈ e.function?) : (function f).WellFormed :=
  h.part (List.mem_append_right _ (List.mem_map_of_mem (Option.mem_toList.2 hm)))

theorem expression_of_mem (h : (statement s).WellFormed) (hm : e ∈ s.expressions) : (expression e).WellFormed := by
  have hpart : expression e ∈ s.expressions.map expression := List.mem_map_of_mem hm
  exact h.part (List.mem_append_left _ (List.mem_append_left _ (List.mem_append_left _ hpart)))

theorem branch (h : (statement s).WellFormed) (hm : s' ∈ s.branches) : (statement s').WellFormed := by
  have hpart : statement s' ∈ s.branches.map statement := List.mem_map_of_mem hm
  exact h.part (List.mem_append_left _ (List.mem_append_left _ (List.mem_append_right _ hpart)))

theorem statement_of_mem (h : (statement s).WellFormed) (hb : body ∈ s.bodies) (hm : s' ∈ body) :
    (statement s').WellFormed := by
  have hflat : s' ∈ s.bodies.flatten := List.mem_flatten.2 ⟨body, hb, hm⟩
  exact h.part (List.mem_append_left _ (List.mem_append_right _ (List.mem_map_of_mem hflat)))

theorem declared (h : (statement s).WellFormed) (hm : f ∈ s.function?) : (function f).WellFormed :=
  h.part (List.mem_append_right _ (List.mem_map_of_mem (Option.mem_toList.2 hm)))

theorem statement_of_body (h : (function f).WellFormed) (hm : s ∈ f.body) : (statement s).WellFormed :=
  h.part (List.mem_map_of_mem hm)

end WellFormed
end Phrase

open Phrase

/-! ## What the rules build -/

/-- If the token is an identifier, its text is one. -/
def Kind.NamesWell (kind : Kind) : Prop := ∀ name, kind = .identifier name → IsIdentifier name

private theorem wellFormed_of_parts {phrase : Phrase} (hs : phrase.IsSound)
    (h : ∀ part ∈ phrase.parts, part.WellFormed) : phrase.WellFormed :=
  wellFormed_iff.2 ⟨hs, h⟩

private theorem wellFormed_function {f : Function}
    (h : f.Holds Kind.NamesWell fun s => (statement s).WellFormed) : (function f).WellFormed := by
  refine wellFormed_of_parts ?_ (List.forall_mem_map.2 h.body)
  exact ⟨fun name hm => h.name name hm name rfl, fun name hm => h.parameters name hm name rfl⟩

private theorem wellFormed_object {entries : List (String × Expression)}
    (h : ∀ entry ∈ entries, (expression entry.2).WellFormed) : (expression (.object entries)).WellFormed := by
  refine wellFormed_of_parts trivial fun part hm => ?_
  obtain ⟨key, e, hentry, rfl⟩ : ∃ key e, (key, e) ∈ entries ∧ expression e = part := by simpa [parts] using hm
  exact h _ hentry

private theorem wellFormed_declare {kind : DeclarationKind} {bindings : List (String × Option Expression)}
    (h : ∀ b ∈ bindings, Binds Kind.NamesWell (fun e => (expression e).WellFormed) kind b) :
    (statement (.declare kind bindings)).WellFormed := by
  refine wellFormed_of_parts (fun b hb => ⟨(h b hb).name b.1 rfl, (h b hb).initialized⟩) fun part hm => ?_
  obtain ⟨e, he, rfl⟩ : ∃ e ∈ bindings.filterMap (·.2), expression e = part := by simpa [parts] using hm
  obtain ⟨b, hb, hvalue⟩ := List.mem_filterMap.1 he
  exact (h b hb).value e hvalue

private theorem wellFormed_try {body : List Statement} {handler : Option Handler} {finalizer : Option (List Statement)}
    (hb : ∀ s ∈ body, (statement s).WellFormed)
    (hh : ∀ parameter caught, some (Handler.mk parameter caught) = handler →
      (∀ x ∈ parameter, Kind.NamesWell (.identifier x)) ∧ ∀ s ∈ caught, (statement s).WellFormed)
    (hf : ∀ last ∈ finalizer, ∀ s ∈ last, (statement s).WellFormed)
    (hsome : handler.isSome = true ∨ finalizer.isSome = true) :
    (statement (.try_ body handler finalizer)).WellFormed := by
  have hparameter : ∀ h ∈ handler, ∀ name ∈ h.parameter, IsIdentifier name := by
    rintro ⟨parameter, caught⟩ hm name hn
    exact (hh parameter caught hm.symm).1 name hn name rfl
  have hcaught : ∀ h ∈ handler, ∀ s ∈ h.body, (statement s).WellFormed := by
    rintro ⟨parameter, caught⟩ hm
    exact (hh parameter caught hm.symm).2
  refine wellFormed_of_parts ⟨hsome, hparameter⟩ fun part hm => ?_
  obtain ⟨inner, hbodies, rfl⟩ : ∃ s ∈ (Statement.try_ body handler finalizer).bodies.flatten, statement s = part := by
    simpa [parts, -Statement.bodies, -List.map_flatten] using hm
  obtain ⟨own, hown, hinner⟩ := List.mem_flatten.1 hbodies
  obtain rfl | hown := List.mem_cons.1 hown
  · exact hb inner hinner
  obtain hown | hown := List.mem_append.1 hown
  · obtain ⟨h, hm, rfl⟩ := List.mem_map.1 hown
    exact hcaught h (by simpa using hm) inner hinner
  · exact hf own (by simpa using hown) inner hinner

private theorem grammar_wellFormed : Grammar Kind.NamesWell (fun _ _ e => (expression e).WellFormed)
    (fun _ s => (statement s).WellFormed) where
  number _ := wellFormed_of_parts trivial (by simp [parts])
  string _ := wellFormed_of_parts trivial (by simp [parts])
  boolean _ := wellFormed_of_parts trivial (by simp [parts])
  null := wellFormed_of_parts trivial (by simp [parts])
  identifier {_ _ name} h := wellFormed_of_parts (h name rfl) (by simp [parts])
  array h := wellFormed_of_parts trivial (by simpa [parts] using h)
  object h := wellFormed_object h
  function h := wellFormed_of_parts trivial (by simpa [parts] using wellFormed_function h)
  parenthesized h := h
  member h _ := wellFormed_of_parts trivial (by simpa [parts] using h)
  index h hk := wellFormed_of_parts trivial (by simpa [parts] using ⟨h, hk⟩)
  call h ha := wellFormed_of_parts trivial (by simpa [parts] using ⟨h, ha⟩)
  construct h ha := wellFormed_of_parts trivial (by simpa [parts] using ⟨h, ha⟩)
  unary _ h := wellFormed_of_parts trivial (by simpa [parts] using h)
  binary _ hl hr := wellFormed_of_parts trivial (by simpa [parts] using ⟨hl, hr⟩)
  logical _ hl hr := wellFormed_of_parts trivial (by simpa [parts] using ⟨hl, hr⟩)
  assign ht h hv := wellFormed_of_parts ht (by simpa [parts] using ⟨h, hv⟩)
  looser h := h
  declare _ h := wellFormed_declare h
  expression h := wellFormed_of_parts trivial (by simpa [parts] using h)
  block h := wellFormed_of_parts trivial (by simpa [parts] using h)
  conditional ht hy := wellFormed_of_parts trivial (by simpa [parts] using ⟨ht, hy⟩)
  alternative ht hy _ hn := wellFormed_of_parts trivial (by simpa [parts] using ⟨ht, hy, hn⟩)
  throw_ h := wellFormed_of_parts trivial (by simpa [parts] using h)
  declaredFunction hname h := wellFormed_of_parts hname (by simpa [parts] using wellFormed_function h)
  return_ h := wellFormed_of_parts trivial (by simpa [parts] using h)
  try_ := wellFormed_try
  empty := wellFormed_of_parts trivial (by simp [parts])

private theorem genuine_scan (source : String) : Parser.Genuine Kind.NamesWell (scan source) := by
  intro token hm hproper name hname
  obtain ⟨text, hspells⟩ := exists_spells_of_mem_scan hm hproper
  exact (hname ▸ hspells).isName.isIdentifier

/-- Whatever occurs in a program that was parsed is sound. -/
theorem wellFormed_of_parse {source : String} {program : List Statement} (h : parse source = .ok program) :
    ∀ s ∈ program, (statement s).WellFormed :=
  (grammar_wellFormed.parse (genuine_scan source) h).1

end ScriptModules.Script
