import ScriptModules.Proofs.Parsing.Progress
import ScriptModules.Proofs.Scanning.Returns

/-!
# Line ends

What a program is depends on the kinds of its tokens alone (`parse_of_sameKinds`).  So a text is the same program with
lines that end with a carriage return and a line feed, if no string literal in it goes on over the end of a line, and no
program else (`parse_crlf_eq_ok_iff`).
-/

namespace ScriptModules.Script

/-- The text with a carriage return before each line feed. -/
def crlf (source : String) : String := String.ofList (withReturns source.toList)

/-- Texts with tokens of the same kinds are the same programs. -/
theorem parse_of_sameKinds {source source' : String} (h : Parser.SameKinds (scan source) (scan source'))
    {program : List Statement} (hp : parse source = .ok program) : parse source' = .ok program := by
  have hlen : (scan source).length = (scan source').length := by simpa using congrArg List.length h
  have hrun := Parser.agree_statements (Nat.le_refl _) (Nat.le_of_eq hlen) nestingLimit _ _ h (Parser.ended_scan source)
    (Nat.le_refl _) trivial
  rw [parse_of_scan rfl] at hp ⊢
  generalize Parser.statements (Parser.nested (scan source).length nestingLimit) (scan source).length (scan source) = x
    at hrun hp
  generalize Parser.statements (Parser.nested (scan source').length nestingLimit) (scan source').length (scan source') =
    x' at hrun ⊢
  cases hrun with
  | error => contradiction
  | ok value => exact hp

/-- A text that is parsed has no invalid token. -/
theorem allSound_of_parse {source : String} {program : List Statement} (h : parse source = .ok program) :
    AllSound (scan source) :=
  (grammar_true.parse (fun _ _ _ => trivial) h).2

private theorem allSound_scan_crlf (source : String) :
    (AllSound (scan (crlf source)) ↔ AllSound (scan source) ∧ ∀ piece ∈ pieces source, ¬piece.IsContinued) ∧
      (AllSound (scan (crlf source)) → Parser.SameKinds (scan (crlf source)) (scan source)) := by
  rw [scan, crlf, String.toList_ofList]
  exact tokensFrom_withReturns source.toList Iff.rfl

/-- A text with carriage returns is the same program as without them, but for string literals that go on over the end of
a line, which make it none. -/
theorem parse_crlf_eq_ok_iff (source : String) (program : List Statement) :
    parse (crlf source) = .ok program ↔
      parse source = .ok program ∧ ∀ piece ∈ pieces source, ¬piece.IsContinued := by
  obtain ⟨hsound, hkinds⟩ := allSound_scan_crlf source
  constructor
  · intro h
    have hboth := allSound_of_parse h
    exact ⟨parse_of_sameKinds (hkinds hboth) h, (hsound.1 hboth).2⟩
  · rintro ⟨h, hcontinued⟩
    have hboth := hsound.2 ⟨allSound_of_parse h, hcontinued⟩
    exact parse_of_sameKinds (hkinds hboth).symm h

private theorem parse_broken_literal :
    parse "'a\\\r\nb'" = .error ⟨.lexical .unterminatedString, 0⟩ := by
  have hscan : scan "'a\\\r\nb'" = [⟨.invalid .unterminatedString, 0⟩, ⟨.identifier "b", 5⟩,
      ⟨.invalid .unterminatedString, 6⟩, ⟨.eof, 7⟩] := by decide +kernel
  exact parse_of_scan hscan

/-- Behind a backslash the end of a line matters. -/
theorem not_always_parse_crlf :
    ¬∀ source, '\r' ∉ source.toList → ∀ program, parse (crlf source) = .ok program ↔ parse source = .ok program := by
  intro h
  have hscan : scan "'a\\\nb'" = [⟨.string "ab", 0⟩, ⟨.eof, 6⟩] := by decide +kernel
  have hparse : parse "'a\\\nb'" = .ok [.expression (.string "ab")] := parse_of_scan hscan
  have hcrlf := (h "'a\\\nb'" (by decide +kernel) _).2 hparse
  have htext : crlf "'a\\\nb'" = "'a\\\r\nb'" := by decide +kernel
  rw [htext, parse_broken_literal] at hcrlf
  contradiction

end ScriptModules.Script
