import ScriptModules.Proofs.Scanning.Spelling

/-!
# The tokens of a text

Each token that the scanner finds is spelled by some text (`exists_spells_of_mem_scan`), and the last one is `eof`
(`scan_eq_append_eof`).  Texts that spell tokens, put one behind the other with single spaces between them, scan to
these tokens (`map_kind_scan_intercalate`).
-/

namespace ScriptModules.Script

/-! ## What the scanner finds -/

private theorem exists_spells_of_next {cursor : Cursor} (hk : (next cursor).1.kind.isProper = true) :
    ∃ text, Spells text (next cursor).1.kind := by
  unfold next at *
  generalize skipBlanks .space cursor.offset cursor.rest = place at *
  obtain ⟨offset, _ | ⟨c, cs⟩⟩ := place
  · contradiction
  · exact ⟨_, exists_spells_of_lexeme rfl hk⟩

private theorem exists_spells_of_mem_tokensFrom {cursor : Cursor} {token : Token} (h : token ∈ tokensFrom cursor)
    (hk : token.kind.isProper = true) : ∃ text, Spells text token.kind := by
  fun_induction tokensFrom cursor with
  | case1 cursor step heof =>
    obtain rfl := List.mem_singleton.1 h
    exact exists_spells_of_next hk
  | case2 cursor step heof ih =>
    obtain rfl | h := List.mem_cons.1 h
    · exact exists_spells_of_next hk
    · exact ih h

/-- No token stands in a program that no text spells. -/
theorem exists_spells_of_mem_scan {source : String} {token : Token} (h : token ∈ scan source)
    (hk : token.kind.isProper = true) : ∃ text, Spells text token.kind :=
  exists_spells_of_mem_tokensFrom h hk

private theorem tokensFrom_eq_append_eof (cursor : Cursor) :
    ∃ own last, tokensFrom cursor = own ++ [last] ∧ last.kind = .eof ∧ ∀ token ∈ own, token.kind ≠ .eof := by
  fun_induction tokensFrom cursor with
  | case1 cursor step heof => exact ⟨[], step.1, rfl, heof, by simp⟩
  | case2 cursor step heof ih =>
    obtain ⟨own, last, heq, hlast, hown⟩ := ih
    exact ⟨step.1 :: own, last, by rw [heq, List.cons_append], hlast, List.forall_mem_cons.2 ⟨heof, hown⟩⟩

/-- Exactly the last token is `eof`. -/
theorem scan_eq_append_eof (source : String) :
    ∃ own last, scan source = own ++ [last] ∧ last.kind = .eof ∧ ∀ token ∈ own, token.kind ≠ .eof :=
  tokensFrom_eq_append_eof _

/-! ## Texts with spaces between them -/

/-- No blank, comment or interpreter line begins where a token does. -/
theorem Spells.skipBlanks {c : Char} {cs : List Char} {kind : Kind} (h : Spells (c :: cs) kind)
    (hk : kind.isProper = true) {rest : List Char} (hr : EndsToken rest) (offset : Nat) :
    skipBlanks .space offset (c :: cs ++ rest) = ⟨offset, c :: cs ++ rest⟩ := by
  have hblank := h.not_isBlank hk
  have hl := h.lexeme_append hk hr
  rw [List.cons_append, Script.skipBlanks.eq_def]
  simp only [hblank, Bool.false_eq_true, if_false]
  split
  · next hslash =>
    -- A slash is a token on its own, so what follows it is the blank that ends the token.
    subst hslash
    have hcs : cs = [] := List.eq_nil_of_length_eq_zero (Prod.mk.inj hl).2.symm
    subst hcs
    rw [List.nil_append]
    cases rest with
    | nil => rfl
    | cons d rest =>
      have hd := endsToken_cons.1 hr
      split
      · next heq =>
        obtain ⟨rfl, _⟩ := List.cons.inj heq
        exact absurd hd (by decide)
      · next heq =>
        obtain ⟨rfl, _⟩ := List.cons.inj heq
        exact absurd hd (by decide)
      · rfl
  · split
    · next hhash =>
      obtain ⟨rfl, _⟩ := hhash
      obtain ⟨rfl, _⟩ := Prod.mk.inj hl
      contradiction
    · rfl

private theorem Spells.next {text : List Char} {kind : Kind} (h : Spells text kind) (hk : kind.isProper = true)
    {rest : List Char} (hr : EndsToken rest) (offset : Nat) :
    ∃ behind, next ⟨offset, text ++ rest⟩ = (⟨kind, offset⟩, ⟨behind, rest⟩) := by
  have ⟨c, cs, htext, _⟩ := h
  subst htext
  rw [Script.next, h.skipBlanks hk hr]
  simp only [List.cons_append, takeToken, h.lexeme_append hk hr, List.drop_left]
  exact ⟨_, rfl⟩

private theorem next_space (offset : Nat) (cs : List Char) : next ⟨offset, ' ' :: cs⟩ = next ⟨offset + 1, cs⟩ := by
  have h : skipBlanks .space offset (' ' :: cs) = skipBlanks .space (offset + 1) cs := by
    rw [skipBlanks.eq_def]
    exact if_pos (by decide)
  rw [next, h, next]

/-- At the end of a text there is the token of the end only. -/
theorem tokensFrom_nil (offset : Nat) : tokensFrom ⟨offset, []⟩ = [⟨.eof, offset⟩] := by
  rw [tokensFrom]
  rfl

/-- A text that spells a token, put before a blank or the end. -/
theorem Spells.tokensFrom {text : List Char} {kind : Kind} (h : Spells text kind) (hk : kind.isProper = true)
    {rest : List Char} (hr : EndsToken rest) (offset : Nat) :
    ∃ behind, tokensFrom ⟨offset, text ++ rest⟩ = ⟨kind, offset⟩ :: tokensFrom ⟨behind, rest⟩ := by
  obtain ⟨behind, hnext⟩ := h.next hk hr offset
  have hne : kind ≠ .eof := by
    rintro rfl
    contradiction
  refine ⟨behind, ?_⟩
  rw [Script.tokensFrom]
  simp [hnext, hne]

private theorem tokensFrom_space (offset : Nat) (cs : List Char) :
    tokensFrom ⟨offset, ' ' :: cs⟩ = tokensFrom ⟨offset + 1, cs⟩ := by
  rw [tokensFrom, next_space, ← tokensFrom]

private theorem map_kind_tokensFrom {spelling : Kind → List Char} {kinds : List Kind}
    (h : ∀ kind ∈ kinds, kind.isProper = true ∧ Spells (spelling kind) kind) (offset : Nat) :
    (tokensFrom ⟨offset, [' '].intercalate (kinds.map spelling)⟩).map Token.kind = kinds ++ [.eof] := by
  induction kinds generalizing offset with
  | nil => exact congrArg _ (tokensFrom_nil offset)
  | cons kind kinds ih =>
    obtain ⟨⟨hk, hs⟩, hkinds⟩ := List.forall_mem_cons.1 h
    cases kinds with
    | nil =>
      obtain ⟨behind, htokens⟩ := hs.tokensFrom hk endsToken_nil offset
      rw [tokensFrom_nil, List.append_nil] at htokens
      simp [List.intercalate, htokens]
    | cons kind' kinds =>
      obtain ⟨behind, htokens⟩ := hs.tokensFrom hk
        (endsToken_cons.2 (by decide : isBlank ' ' = true)) offset
      rw [List.map_cons, List.map_cons, List.intercalate_cons_cons, List.append_assoc, List.singleton_append, htokens,
        tokensFrom_space, List.map_cons]
      exact congrArg _ (ih hkinds _)

/-- Texts that spell tokens, with single spaces between them, scan to these tokens. -/
theorem map_kind_scan_intercalate {spelling : Kind → String} {kinds : List Kind}
    (h : ∀ kind ∈ kinds, kind.isProper = true ∧ Spells (spelling kind).toList kind) :
    (scan (" ".intercalate (kinds.map spelling))).map Token.kind = kinds ++ [.eof] := by
  rw [scan, String.toList_intercalate, List.map_map]
  exact map_kind_tokensFrom h 0

end ScriptModules.Script
