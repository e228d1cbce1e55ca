import ScriptModules.Proofs.Parsing.Grammar
import ScriptModules.Proofs.Scanning.Literals
import ScriptModules.Proofs.Scanning.Pieces

/-!
# The lexical form of programs

Which pieces of a text are as they should be (`Piece.IsSound`), and which of them the parser takes: those, block
comments that the end of the text leaves open, and string literals with a sign in the code of an escape
(`isSound_iff_of_parse`).
-/

namespace ScriptModules.Script

/-- The text is a block comment that is closed. -/
def IsClosedComment (text : List Char) : Prop := ∃ inner, text = '/' :: '*' :: (inner ++ ['*', '/'])

/-- The text is a string literal that is closed by its own quote, and the codes of its escapes are exact. -/
def IsExactString (text : List Char) : Prop :=
  ∃ quote own, text = quote :: own ∧ isQuote quote = true ∧ ClosedBy quote own ∧
    ∀ code ∈ escapeCodes own, IsExactCode code

/-- The piece is as it should be. -/
structure Piece.IsSound (piece : Piece) : Prop where
  valid : ∀ fault, piece.stretch ≠ .token (.invalid fault)
  closed : piece.stretch = .blockComment → IsClosedComment piece.text
  exact : ∀ value, piece.stretch = .token (.string value) → IsExactString piece.text

/-- The piece is a block comment, and nothing closes it. -/
def Piece.IsOpenComment (piece : Piece) : Prop :=
  piece.stretch = .blockComment ∧ ¬['*', '/'] <:+: piece.text.drop 2

/-- The piece is a string literal, and a sign stands in the code of one of its escapes. -/
def Piece.IsSigned (piece : Piece) : Prop :=
  (∃ value, piece.stretch = .token (.string value)) ∧ ∃ code ∈ escapeCodes piece.text.tail, isSignedCode code = true

section

variable {source : String} {piece : Piece}

private theorem isClosedComment_iff (hm : piece ∈ pieces source) (h : piece.stretch = .blockComment) :
    IsClosedComment piece.text ↔ ¬piece.IsOpenComment := by
  rw [Piece.IsOpenComment, and_iff_right h, Classical.not_not]
  obtain ⟨offset, c, cs, rfl⟩ := mem_piecesFrom hm
  obtain ⟨rest, rfl, rfl, hn⟩ := stretchAt_eq_blockComment h
  simp only [IsClosedComment, hn, List.take_succ_cons, List.drop_succ_cons, List.drop_zero, List.cons.injEq, true_and]
  constructor
  · rintro ⟨inner, hinner⟩
    rw [hinner]
    exact (List.suffix_append _ _).isInfix
  · intro hinfix
    refine (take_commentLength rest).resolve_right fun hnot => hnot ?_
    exact hinfix.trans (List.take_prefix _ _).isInfix

private theorem isExactString_iff {value : String} (hm : piece ∈ pieces source)
    (h : piece.stretch = .token (.string value)) : IsExactString piece.text ↔ ¬piece.IsSigned := by
  rw [Piece.IsSigned, and_iff_right ⟨value, h⟩]
  obtain ⟨offset, c, cs, rfl⟩ := mem_piecesFrom hm
  obtain ⟨hquote, _, htail⟩ := stringTail_of_lexeme (stretchAt_eq_token h)
  constructor
  · rintro ⟨quote, own, heq, _, _, hexact⟩ ⟨code, hcode, hsigned⟩
    obtain ⟨rfl, rfl⟩ := List.cons.inj heq
    rw [(htail.isExactCode_iff hcode).1 (hexact code hcode)] at hsigned
    contradiction
  · intro hsigned
    refine ⟨c, _, rfl, hquote, htail.closedBy hquote, fun code hcode => (htail.isExactCode_iff hcode).2 ?_⟩
    exact Bool.eq_false_iff.2 fun hsign => hsigned ⟨code, hcode, hsign⟩

end

/-- In a text that parses no token is invalid, and all pieces are as they should be, but for open comments and signed
codes. -/
theorem isSound_iff_of_parse {source : String} {program : List Statement} (h : parse source = .ok program) :
    (∀ token ∈ scan source, ∀ fault, token.kind ≠ .invalid fault) ∧
      ∀ piece ∈ pieces source, piece.IsSound ↔ ¬piece.IsOpenComment ∧ ¬piece.IsSigned := by
  have hvalid : ∀ token ∈ scan source, ∀ fault, token.kind ≠ .invalid fault := by
    intro token hm fault hinvalid
    obtain hproper | heof := (grammar_true.parse (fun _ _ _ => trivial) h).2 token hm
    · rw [hinvalid] at hproper
      contradiction
    · rw [hinvalid] at heof
      contradiction
  refine ⟨hvalid, fun piece hm => ?_⟩
  constructor
  · intro hsound
    refine ⟨fun hopen => ?_, fun hsigned => ?_⟩
    · exact (isClosedComment_iff hm hopen.1).1 (hsound.closed hopen.1) hopen
    · obtain ⟨value, hvalue⟩ := hsigned.1
      exact (isExactString_iff hm hvalue).1 (hsound.exact value hvalue) hsigned
  · rintro ⟨hopen, hsigned⟩
    refine ⟨fun fault h => ?_, fun h => (isClosedComment_iff hm h).2 hopen, fun value h => ?_⟩
    · exact hvalid _ (mem_scan_of_mem_pieces hm h) fault rfl
    · exact (isExactString_iff hm h).2 hsigned

/-- A program with an escape and a comment. -/
theorem isSound_iff_of_escape :
    parse "'\\u0041'/*b*/" = .ok [.expression (.string "A")] ∧
      (∀ token ∈ scan "'\\u0041'/*b*/", ∀ fault, token.kind ≠ .invalid fault) ∧
        ∀ piece ∈ pieces "'\\u0041'/*b*/", piece.IsSound ↔ ¬piece.IsOpenComment ∧ ¬piece.IsSigned := by
  have hscan : scan "'\\u0041'/*b*/" = [⟨.string "A", 0⟩, ⟨.eof, 13⟩] := by decide +kernel
  have hparse : parse "'\\u0041'/*b*/" = .ok [.expression (.string "A")] := parse_of_scan hscan
  exact ⟨hparse, isSound_iff_of_parse hparse⟩

/-- The parser takes a text that ends in a comment. -/
theorem not_always_isSound :
    ¬∀ source program, parse source = .ok program → ∀ piece ∈ pieces source, piece.IsSound := by
  intro h
  have hscan : scan "a/*b" = [⟨.identifier "a", 0⟩, ⟨.eof, 4⟩] := by decide +kernel
  have hparse : parse "a/*b" = .ok [.expression (.identifier "a")] := parse_of_scan hscan
  have hpieces : pieces "a/*b" =
      [⟨.token (.identifier "a"), 0, ['a']⟩, ⟨.blockComment, 1, ['/', '*', 'b']⟩] := by decide +kernel
  obtain ⟨inner, hinner⟩ := (h _ _ hparse ⟨.blockComment, 1, ['/', '*', 'b']⟩ (by simp [hpieces])).closed rfl
  have hlen := congrArg List.length hinner
  simp at hlen

end ScriptModules.Script
