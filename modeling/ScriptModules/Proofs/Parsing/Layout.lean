import ScriptModules.Proofs.Parsing.LineEnds
import ScriptModules.Proofs.Scanning.Layout

/-!
# Layout

A program does not depend on the white space between its tokens: wherever a token of a program starts, also the end of
the text, more of it may be put and the text stays the same program (`parse_insert_blanks`).
-/

namespace ScriptModules.Script

/-- White space that is put where a token of a program starts makes no difference. -/
theorem parse_insert_blanks {source : String} {program : List Statement} (h : parse source = .ok program)
    {token : Token} (hm : token ∈ scan source) {blanks : String} (hb : ∀ c ∈ blanks.toList, isBlank c = true) :
    ∃ before after, source = before ++ after ∧ before.utf8ByteSize = token.start ∧
      parse (before ++ blanks ++ after) = .ok program := by
  obtain ⟨before, after, hsource, hstart, hkinds⟩ :=
    exists_split_of_mem_tokensFrom 0 source.toList (allSound_of_parse h) hm
  refine ⟨.ofList before, .ofList after, ?_, ?_, parse_of_sameKinds ?_ h⟩
  · rw [← String.ofList_append, ← hsource, String.ofList_toList]
  · rw [hstart, ← byteCount_toList, String.toList_ofList, Nat.zero_add]
  · have htokens := hkinds 0 blanks.toList Iff.rfl hb
    rw [Parser.SameKinds, scan, scan, ← htokens]
    simp

/-- A no-break space and a byte order mark behind a slash that divides. -/
theorem parse_insert_blanks_divided :
    parse "a/b" = .ok [.expression (.binary .divide (.identifier "a") (.identifier "b"))] ∧
      ∃ before after, "a/b" = before ++ after ∧ before.utf8ByteSize = 2 ∧
        parse (before ++ "\u00a0\ufeff" ++ after) =
          .ok [.expression (.binary .divide (.identifier "a") (.identifier "b"))] := by
  have hscan : scan "a/b" = [⟨.identifier "a", 0⟩, ⟨.mark .slash, 1⟩, ⟨.identifier "b", 2⟩, ⟨.eof, 3⟩] := by
    decide +kernel
  have hparse : parse "a/b" = .ok [.expression (.binary .divide (.identifier "a") (.identifier "b"))] :=
    parse_of_scan hscan
  have hmem : ⟨.identifier "b", 2⟩ ∈ scan "a/b" := by simp [hscan]
  have hblank : ∀ c ∈ "\u00a0\ufeff".toList, isBlank c = true := by
    simp [isBlank, Text.isWhiteSpace, Text.inRanges, Text.whiteSpaceRanges]
  exact ⟨hparse, parse_insert_blanks hparse hmem hblank⟩

end ScriptModules.Script
