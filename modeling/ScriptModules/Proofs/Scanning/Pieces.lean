import ScriptModules.Proofs.Scanning.Tokens
import ScriptModules.Text.Units

/-!
# The pieces of a text

A text falls into pieces: white space, comments, an interpreter line, and tokens, also those that are invalid
(`pieces`).  The tokens among them are those that the scanner finds (`scan_eq_pieces`).  So the pieces tell for each
character whether it stands in a comment, in a string or in neither.
-/

namespace ScriptModules.Script

/-- What a piece of a text is. -/
inductive Stretch where
  | blank
  | lineComment
  | blockComment
  | interpreterLine
  | token (kind : Kind)
  deriving DecidableEq

structure Piece where
  stretch : Stretch
  offset : Nat
  text : List Char
  deriving DecidableEq

/-- How many characters stand behind `/*`, up to and including the first `*/`; all of them, if there is none. -/
def commentLength : List Char → Nat
  | [] => 0
  | c :: cs => if c = '*' ∧ cs.head? = some '/' then 2 else commentLength cs + 1

/-- May a line end with the character? -/
def isLineEnd (c : Char) : Bool := c == '\n' || c == '\r'

/-- The stretch that begins with `c`, and how many of the characters behind `c` belong to it. -/
def stretchAt (offset : Nat) (c : Char) (cs : List Char) : Stretch × Nat :=
  if isBlank c then (.blank, 0)
  else if c = '/' ∧ cs.head? = some '/' then (.lineComment, (cs.takeWhile fun c => !isLineEnd c).length)
  else if c = '/' ∧ cs.head? = some '*' then (.blockComment, commentLength cs.tail + 1)
  else if (c = '#' ∧ offset = 0) ∧ cs.head? = some '!' then (.interpreterLine, (cs.takeWhile (· ≠ '\n')).length)
  else (.token (lexeme c cs).1, (lexeme c cs).2)

/-- The pieces of a text that stands at `offset`. -/
def piecesFrom (offset : Nat) : List Char → List Piece
  | [] => []
  | c :: cs =>
    let text := c :: cs.take (stretchAt offset c cs).2
    ⟨(stretchAt offset c cs).1, offset, text⟩ ::
      piecesFrom (offset + byteCount text) (cs.drop (stretchAt offset c cs).2)
  termination_by cs => cs.length
  decreasing_by
    simp only [List.length_drop, List.length_cons]
    omega

/-- The pieces of a text. -/
def pieces (source : String) : List Piece := piecesFrom 0 source.toList

/-- The token that a piece is. -/
def Piece.token? (piece : Piece) : Option Token :=
  match piece.stretch with
  | .token kind => some ⟨kind, piece.offset⟩
  | _ => none

/-! ## The scanner skips what is no token -/

private theorem foldl_utf8Size (cs : List Char) (n : Nat) :
    cs.foldl (fun n c => n + c.utf8Size) n = n + byteCount cs := by
  induction cs generalizing n with
  | nil => rfl
  | cons c cs ih =>
    rw [byteCount, List.foldl_cons, List.foldl_cons, ih, ih (0 + c.utf8Size), Nat.zero_add, Nat.add_assoc]

theorem byteCount_cons (c : Char) (cs : List Char) : byteCount (c :: cs) = c.utf8Size + byteCount cs := by
  rw [byteCount, List.foldl_cons, foldl_utf8Size, Nat.zero_add]

theorem byteCount_append (cs ds : List Char) : byteCount (cs ++ ds) = byteCount cs + byteCount ds := by
  rw [byteCount, List.foldl_append, foldl_utf8Size]
  rfl

theorem byteCount_pos {cs : List Char} (h : cs ≠ []) : 0 < byteCount cs := by
  obtain ⟨c, cs, rfl⟩ := List.exists_cons_of_ne_nil h
  have hpos := c.utf8Size_pos
  rw [byteCount_cons]
  omega

theorem utf8ByteSize_ofList (cs : List Char) : (String.ofList cs).utf8ByteSize = byteCount cs := by
  induction cs with
  | nil => rfl
  | cons c cs ih => rw [byteCount_cons, ← ih, Text.utf8ByteSize_ofList_cons]

theorem byteCount_toList (s : String) : byteCount s.toList = s.utf8ByteSize := by
  rw [← utf8ByteSize_ofList, String.ofList_toList]

section

variable {mode : BlankMode} {goesOn : Char → Bool} {offset : Nat} {c : Char} {cs : List Char}

theorem skipBlanks_blank (h : isBlank c = true) :
    skipBlanks .space offset (c :: cs) = skipBlanks .space (offset + c.utf8Size) cs := by
  rw [skipBlanks.eq_def]
  simp [h]

/-- The scanner stops where no blank, comment or interpreter line begins. -/
theorem skipBlanks_stop (hblank : ¬isBlank c = true) (hcomment : c = '/' → cs.head? ≠ some '/' ∧ cs.head? ≠ some '*')
    (hfirst : c = '#' → offset = 0 → cs.head? ≠ some '!') :
    skipBlanks .space offset (c :: cs) = ⟨offset, c :: cs⟩ := by
  rw [skipBlanks.eq_def]
  simp only [hblank, Bool.false_eq_true, if_false]
  split
  · next hc =>
    split
    · exact absurd rfl (hcomment hc).1
    · exact absurd rfl (hcomment hc).2
    · rfl
  · split
    · next hc =>
      split
      · exact absurd rfl (hfirst hc.1 hc.2)
      · rfl
    · rfl

/-- What begins with `c` is a blank, a comment, an interpreter line, or a token, where the scanner stops. -/
theorem stretchAt_cases (offset : Nat) (c : Char) (cs : List Char) :
    (isBlank c = true ∧ stretchAt offset c cs = (.blank, 0)) ∨
    (∃ rest, c = '/' ∧ cs = '/' :: rest ∧
      stretchAt offset c cs = (.lineComment, (cs.takeWhile fun c => !isLineEnd c).length)) ∨
    (∃ rest, c = '/' ∧ cs = '*' :: rest ∧ stretchAt offset c cs = (.blockComment, commentLength rest + 1)) ∨
    (∃ rest, offset = 0 ∧ c = '#' ∧ cs = '!' :: rest ∧
      stretchAt offset c cs = (.interpreterLine, (cs.takeWhile (· ≠ '\n')).length)) ∨
    (skipBlanks .space offset (c :: cs) = ⟨offset, c :: cs⟩ ∧
      stretchAt offset c cs = (.token (lexeme c cs).1, (lexeme c cs).2)) := by
  unfold stretchAt
  by_cases hblank : isBlank c = true
  · exact .inl ⟨hblank, if_pos hblank⟩
  rw [if_neg hblank]
  by_cases hline : c = '/' ∧ cs.head? = some '/'
  · obtain ⟨rest, rfl⟩ := List.head?_eq_some_iff.1 hline.2
    exact .inr (.inl ⟨rest, hline.1, rfl, if_pos hline⟩)
  rw [if_neg hline]
  by_cases hblock : c = '/' ∧ cs.head? = some '*'
  · obtain ⟨rest, rfl⟩ := List.head?_eq_some_iff.1 hblock.2
    exact .inr (.inr (.inl ⟨rest, hblock.1, rfl, if_pos hblock⟩))
  rw [if_neg hblock]
  by_cases hfirst : (c = '#' ∧ offset = 0) ∧ cs.head? = some '!'
  · obtain ⟨rest, rfl⟩ := List.head?_eq_some_iff.1 hfirst.2
    exact .inr (.inr (.inr (.inl ⟨rest, hfirst.1.2, hfirst.1.1, rfl, if_pos hfirst⟩)))
  rw [if_neg hfirst]
  refine .inr (.inr (.inr (.inr ⟨skipBlanks_stop hblank (fun hc => ?_) fun hc ho hhead => ?_, rfl⟩)))
  · exact ⟨fun hhead => hline ⟨hc, hhead⟩, fun hhead => hblock ⟨hc, hhead⟩⟩
  · exact hfirst ⟨⟨hc, ho⟩, hhead⟩

/-- A mode that goes on up to a character, which is a blank itself. -/
private theorem skipBlanks_takeWhile (hgoes : ∀ offset c cs, goesOn c = true →
      skipBlanks mode offset (c :: cs) = skipBlanks mode (offset + c.utf8Size) cs)
    (hstops : ∀ offset c cs, goesOn c = false → isBlank c = true ∧
      skipBlanks mode offset (c :: cs) = skipBlanks .space (offset + c.utf8Size) cs) (offset : Nat) (cs : List Char) :
    skipBlanks mode offset cs =
      skipBlanks .space (offset + byteCount (cs.takeWhile goesOn)) (cs.dropWhile goesOn) := by
  induction cs generalizing offset with
  | nil => simp [skipBlanks, byteCount]
  | cons c cs ih =>
    cases hc : goesOn c with
    | true =>
      rw [hgoes offset c cs hc, ih, List.takeWhile_cons_of_pos hc, List.dropWhile_cons_of_pos hc, byteCount_cons,
        Nat.add_assoc]
    | false =>
      have hne : ¬goesOn c = true := by simp [hc]
      obtain ⟨hblank, hskip⟩ := hstops offset c cs hc
      rw [hskip, List.takeWhile_cons_of_neg hne, List.dropWhile_cons_of_neg hne]
      rw [skipBlanks_blank hblank]
      rfl

private theorem skipBlanks_lineComment (offset : Nat) (cs : List Char) :
    skipBlanks .lineComment offset cs = skipBlanks .space
      (offset + byteCount (cs.takeWhile fun c => !isLineEnd c)) (cs.dropWhile fun c => !isLineEnd c) := by
  refine skipBlanks_takeWhile (fun offset c cs hc => ?_) (fun offset c cs hc => ?_) offset cs
  · have hne : ¬(c = '\n' ∨ c = '\r') := by simpa [isLineEnd] using hc
    rw [skipBlanks, if_neg hne]
  · have hend : isLineEnd c = true := by simpa using hc
    have heq : c = '\n' ∨ c = '\r' := by simpa [isLineEnd] using hend
    rw [skipBlanks, if_pos heq]
    exact ⟨by rcases heq with rfl | rfl <;> decide, rfl⟩

private theorem skipBlanks_interpreterLine (offset : Nat) (cs : List Char) :
    skipBlanks .interpreterLine offset cs = skipBlanks .space
      (offset + byteCount (cs.takeWhile (· ≠ '\n'))) (cs.dropWhile (· ≠ '\n')) := by
  refine skipBlanks_takeWhile (fun offset c cs hc => ?_) (fun offset c cs hc => ?_) offset cs
  · have hne : c ≠ '\n' := by simpa using hc
    rw [skipBlanks, if_neg hne]
  · obtain rfl : c = '\n' := by simpa using hc
    rw [skipBlanks, if_pos rfl]
    exact ⟨by decide, rfl⟩

/-- Behind a star, a slash ends the comment. -/
private theorem skipBlanks_blockComment (afterStar : Bool) (offset : Nat) (cs : List Char) :
    skipBlanks (.blockComment afterStar) offset cs =
      if afterStar = true ∧ cs.head? = some '/' then skipBlanks .space (offset + 1) cs.tail
      else skipBlanks .space (offset + byteCount (cs.take (commentLength cs))) (cs.drop (commentLength cs)) := by
  induction cs generalizing afterStar offset with
  | nil => simp [skipBlanks, byteCount]
  | cons c cs ih =>
    rw [skipBlanks]
    by_cases hslash : afterStar = true ∧ c = '/'
    · obtain ⟨rfl, rfl⟩ := hslash
      rfl
    · have hmode : ¬(afterStar && c == '/') = true := by simpa using hslash
      have hhead : ¬(afterStar = true ∧ (c :: cs).head? = some '/') := by simpa using hslash
      rw [if_neg hmode, if_neg hhead, ih, commentLength]
      by_cases hend : c = '*' ∧ cs.head? = some '/'
      · obtain ⟨rfl, hcs⟩ := hend
        obtain ⟨tail, rfl⟩ := List.head?_eq_some_iff.1 hcs
        rw [if_pos ⟨rfl, rfl⟩, if_pos ⟨rfl, rfl⟩]
        rfl
      · have hstar : ¬((c == '*') = true ∧ cs.head? = some '/') := by simpa using hend
        rw [if_neg hend, if_neg hstar, List.take_succ_cons, List.drop_succ_cons, byteCount_cons, Nat.add_assoc]

/-- A text is cut behind its longest stretch with a property. -/
theorem take_length_takeWhile (p : Char → Bool) (cs : List Char) :
    cs.take (cs.takeWhile p).length = cs.takeWhile p ∧ cs.drop (cs.takeWhile p).length = cs.dropWhile p := by
  have htake : (cs.takeWhile p ++ cs.dropWhile p).take (cs.takeWhile p).length = cs.takeWhile p := List.take_left
  have hdrop : (cs.takeWhile p ++ cs.dropWhile p).drop (cs.takeWhile p).length = cs.dropWhile p := List.drop_left
  rw [List.takeWhile_append_dropWhile] at htake hdrop
  exact ⟨htake, hdrop⟩

/-- The scanner stops at a piece that is a token, and skips any other one. -/
theorem skipBlanks_stretchAt (offset : Nat) (c : Char) (cs : List Char) :
    (stretchAt offset c cs = (.token (lexeme c cs).1, (lexeme c cs).2) ∧
      skipBlanks .space offset (c :: cs) = ⟨offset, c :: cs⟩) ∨
    ((∀ kind, (stretchAt offset c cs).1 ≠ .token kind) ∧
      skipBlanks .space offset (c :: cs) = skipBlanks .space
        (offset + byteCount (c :: cs.take (stretchAt offset c cs).2)) (cs.drop (stretchAt offset c cs).2)) := by
  rcases stretchAt_cases offset c cs with ⟨hblank, hs⟩ | ⟨rest, rfl, rfl, hs⟩ | ⟨rest, rfl, rfl, hs⟩ |
    ⟨rest, rfl, rfl, rfl, hs⟩ | ⟨hnot, hs⟩
  · rw [hs, skipBlanks_blank hblank, byteCount_cons]
    exact .inr ⟨by simp, rfl⟩
  · obtain ⟨htake, hdrop⟩ := take_length_takeWhile (fun c => !isLineEnd c) ('/' :: rest)
    have hskip : skipBlanks .space offset ('/' :: '/' :: rest) = skipBlanks .lineComment (offset + 2) rest := rfl
    rw [hs, hskip, skipBlanks_lineComment, htake, hdrop, byteCount_cons, ← Nat.add_assoc,
      List.takeWhile_cons_of_pos (by decide), List.dropWhile_cons_of_pos (by decide), byteCount_cons, ← Nat.add_assoc]
    exact .inr ⟨by simp, rfl⟩
  · have hskip : skipBlanks .space offset ('/' :: '*' :: rest) = skipBlanks (.blockComment false) (offset + 2) rest :=
      rfl
    rw [hs, hskip, skipBlanks_blockComment, if_neg (by simp), List.take_succ_cons, List.drop_succ_cons,
      byteCount_cons, byteCount_cons, ← Nat.add_assoc, ← Nat.add_assoc]
    exact .inr ⟨by simp, rfl⟩
  · obtain ⟨htake, hdrop⟩ := take_length_takeWhile (· ≠ '\n') ('!' :: rest)
    have hskip : skipBlanks .space 0 ('#' :: '!' :: rest) = skipBlanks .interpreterLine 2 rest := rfl
    rw [hs, hskip, skipBlanks_interpreterLine, htake, hdrop, byteCount_cons, ← Nat.add_assoc,
      List.takeWhile_cons_of_pos (by decide), List.dropWhile_cons_of_pos (by decide), byteCount_cons, ← Nat.add_assoc]
    exact .inr ⟨by simp, rfl⟩
  · exact .inl ⟨hs, hnot⟩

end

/-- No stretch of text reads as the end of the text. -/
theorem lexeme_ne_eof (c : Char) (cs : List Char) : (lexeme c cs).1 ≠ .eof := by
  have hequals (one two : Mark) (three : Option Mark) : (equalsLexeme one two three cs).1 ≠ .eof := by
    unfold equalsLexeme
    split <;> simp
  have hdoubled (mark : Mark) : (doubledLexeme c mark cs).1 ≠ .eof := by
    unfold doubledLexeme
    split <;> simp
  have hhex (digits : List Char) : hexLiteral digits ≠ .eof := by
    unfold hexLiteral
    split
    · split <;> simp
    · simp
  have hnumber : (numberLexeme c cs).1 ≠ .eof := by
    unfold numberLexeme
    repeat' split
    all_goals first | exact hhex _ | simp
  have hword : (wordLexeme c cs).1 ≠ .eof := fun h => by
    have hproper := Kind.isProper_ofWord (String.ofList (c :: cs.takeWhile isNamePart))
    rw [show Kind.ofWord _ = .eof from h] at hproper
    contradiction
  unfold lexeme
  split
  · simp
  · repeat' split
    all_goals first | assumption | exact hequals _ _ _ | exact hdoubled _ | simp

/-- The scanner stops at a token, wherever it has started to skip. -/
theorem tokensFrom_token {cursor : Cursor} {offset : Nat} {c : Char} {cs : List Char}
    (h : skipBlanks .space cursor.offset cursor.rest = ⟨offset, c :: cs⟩) :
    tokensFrom cursor = ⟨(lexeme c cs).1, offset⟩ ::
      tokensFrom ⟨offset + byteCount (c :: cs.take (lexeme c cs).2), cs.drop (lexeme c cs).2⟩ := by
  have hnext : next cursor = (⟨(lexeme c cs).1, offset⟩,
      ⟨offset + byteCount (c :: cs.take (lexeme c cs).2), cs.drop (lexeme c cs).2⟩) := by
    rw [next, h, byteCount_cons, ← Nat.add_assoc]
    rfl
  rw [tokensFrom]
  simp [hnext, lexeme_ne_eof]

/-- Where only blanks and comments are left, the token of the end comes. -/
theorem tokensFrom_end {cursor : Cursor} {offset : Nat}
    (h : skipBlanks .space cursor.offset cursor.rest = ⟨offset, []⟩) :
    tokensFrom cursor = [⟨.eof, offset⟩] := by
  have hnext : next cursor = (⟨.eof, offset⟩, ⟨offset, []⟩) := by
    rw [next, h]
    rfl
  rw [tokensFrom]
  simp [hnext]

/-- Two places between which the scanner skips everything. -/
private theorem tokensFrom_skip {offset offset' : Nat} {cs cs' : List Char}
    (h : skipBlanks .space offset cs = skipBlanks .space offset' cs') :
    tokensFrom ⟨offset, cs⟩ = tokensFrom ⟨offset', cs'⟩ := by
  have hnext : next ⟨offset, cs⟩ = next ⟨offset', cs'⟩ := by rw [next, next, h]
  rw [tokensFrom, hnext, ← tokensFrom]

private theorem tokensFrom_eq_piecesFrom (offset : Nat) (cs : List Char) :
    tokensFrom ⟨offset, cs⟩ = (piecesFrom offset cs).filterMap Piece.token? ++ [⟨.eof, offset + byteCount cs⟩] := by
  fun_induction piecesFrom offset cs with
  | case1 offset => exact tokensFrom_nil offset
  | case2 offset c cs text ih =>
    have hcount : byteCount (c :: cs) = byteCount text + byteCount (cs.drop (stretchAt offset c cs).2) := by
      rw [← byteCount_append, List.cons_append, List.take_append_drop]
    rw [hcount, ← Nat.add_assoc]
    obtain ⟨hstretch, hskip⟩ | ⟨hstretch, hskip⟩ := skipBlanks_stretchAt offset c cs
    · have htoken : Piece.token? ⟨(stretchAt offset c cs).1, offset, text⟩ = some ⟨(lexeme c cs).1, offset⟩ := by
        rw [hstretch]
        rfl
      rw [List.filterMap_cons_some htoken, List.cons_append, ← ih, tokensFrom_token hskip]
      simp only [text, hstretch]
    · have htoken : Piece.token? ⟨(stretchAt offset c cs).1, offset, text⟩ = none := by
        unfold Piece.token?
        split
        · next kind h => exact absurd h (hstretch kind)
        · rfl
      rw [List.filterMap_cons_none htoken, ← ih, tokensFrom_skip hskip]

/-- The tokens among the pieces are those that the scanner finds, with the end of the text behind them. -/
theorem scan_eq_pieces (source : String) :
    scan source = (pieces source).filterMap Piece.token? ++ [⟨.eof, byteCount source.toList⟩] := by
  rw [scan, tokensFrom_eq_piecesFrom, Nat.zero_add, pieces]

/-- What the scanner skips are pieces, and a token is one where it stops. -/
theorem piecesFrom_eq_append (offset : Nat) (cs : List Char) {place : Cursor}
    (h : skipBlanks .space offset cs = place) :
    (∃ skipped, piecesFrom offset cs = skipped ++ piecesFrom place.offset place.rest ∧
      ∀ piece ∈ skipped, ∀ kind, piece.stretch ≠ .token kind) ∧
      ∀ c rest, place.rest = c :: rest →
        stretchAt place.offset c rest = (.token (lexeme c rest).1, (lexeme c rest).2) := by
  fun_induction piecesFrom offset cs with
  | case1 offset =>
    subst h
    refine ⟨⟨[], ?_, by simp⟩, by simp [skipBlanks]⟩
    simp [skipBlanks, piecesFrom]
  | case2 offset c cs text ih =>
    obtain ⟨hstretch, hskip⟩ | ⟨hstretch, hskip⟩ := skipBlanks_stretchAt offset c cs
    · obtain rfl := hskip.symm.trans h
      refine ⟨⟨[], by rw [List.nil_append, piecesFrom], by simp⟩, fun d rest hrest => ?_⟩
      obtain ⟨rfl, rfl⟩ := List.cons.inj hrest
      exact hstretch
    · obtain ⟨⟨skipped, heq, hskipped⟩, hstop⟩ := ih (hskip.symm.trans h)
      exact ⟨⟨_ :: skipped, by rw [heq, List.cons_append], List.forall_mem_cons.2 ⟨hstretch, hskipped⟩⟩, hstop⟩

/-! ## What a piece is -/

section

variable {offset : Nat} {c : Char} {cs : List Char} {piece : Piece}

/-- Each piece is a stretch of the text where it begins. -/
theorem mem_piecesFrom (h : piece ∈ piecesFrom offset cs) :
    ∃ offset c cs, piece = ⟨(stretchAt offset c cs).1, offset, c :: cs.take (stretchAt offset c cs).2⟩ := by
  fun_induction piecesFrom offset cs with
  | case1 => contradiction
  | case2 offset c cs text ih =>
    obtain rfl | h := List.mem_cons.1 h
    · exact ⟨offset, c, cs, rfl⟩
    · exact ih h

/-- The token of a piece is one of those that are scanned. -/
theorem mem_scan_of_mem_pieces {source : String} {kind : Kind} (hm : piece ∈ pieces source)
    (h : piece.stretch = .token kind) : ⟨kind, piece.offset⟩ ∈ scan source := by
  have htoken : piece.token? = some ⟨kind, piece.offset⟩ := by rw [Piece.token?, h]
  rw [scan_eq_pieces]
  exact List.mem_append_left _ (List.mem_filterMap.2 ⟨piece, hm, htoken⟩)

/-- A token stretch is a lexeme. -/
theorem stretchAt_eq_token {kind : Kind} (h : (stretchAt offset c cs).1 = .token kind) :
    lexeme c cs = (kind, (stretchAt offset c cs).2) := by
  rcases stretchAt_cases offset c cs with ⟨_, hs⟩ | ⟨_, _, _, hs⟩ | ⟨_, _, _, hs⟩ | ⟨_, _, _, _, hs⟩ | ⟨_, hs⟩
  all_goals
    rw [hs] at h ⊢
    first | contradiction | rw [← Stretch.token.inj h]

/-- A block comment begins with a slash and a star, and is as long as the scanner takes it to be. -/
theorem stretchAt_eq_blockComment (h : (stretchAt offset c cs).1 = .blockComment) :
    ∃ rest, c = '/' ∧ cs = '*' :: rest ∧ (stretchAt offset c cs).2 = commentLength rest + 1 := by
  rcases stretchAt_cases offset c cs with ⟨_, hs⟩ | ⟨_, _, _, hs⟩ | ⟨rest, hc, hcs, hs⟩ | ⟨_, _, _, _, hs⟩ | ⟨_, hs⟩
  all_goals
    rw [hs] at h
    first | contradiction | exact ⟨rest, hc, hcs, congrArg Prod.snd hs⟩

/-- Where a comment ends, tested at its first character. -/
theorem commentEnd_infix_cons_iff :
    ['*', '/'] <:+: c :: cs ↔ (c = '*' ∧ cs.head? = some '/') ∨ ['*', '/'] <:+: cs := by
  rw [List.infix_cons_iff, List.cons_prefix_cons]
  refine or_congr_left (and_congr eq_comm ?_)
  constructor
  · rintro ⟨rest, rfl⟩
    rfl
  · intro hhead
    obtain ⟨rest, rfl⟩ := List.head?_eq_some_iff.1 hhead
    exact ⟨rest, rfl⟩

/-- There is a first place where a comment ends, or none. -/
theorem exists_commentEnd (cs : List Char) :
    (∃ inner rest, cs = inner ++ '*' :: '/' :: rest ∧ ¬['*', '/'] <:+: inner ++ ['*']) ∨ ¬['*', '/'] <:+: cs := by
  induction cs with
  | nil => exact .inr (by simp)
  | cons c cs ih =>
    by_cases hend : c = '*' ∧ cs.head? = some '/'
    · obtain ⟨rfl, hcs⟩ := hend
      obtain ⟨rest, rfl⟩ := List.head?_eq_some_iff.1 hcs
      exact .inl ⟨[], rest, rfl, by decide⟩
    · obtain ⟨inner, rest, rfl, hinner⟩ | hnot := ih
      · refine .inl ⟨c :: inner, rest, rfl, fun hinfix => ?_⟩
        obtain ⟨hc, hhead⟩ | hlater := commentEnd_infix_cons_iff.1 hinfix
        · refine hend ⟨hc, ?_⟩
          rw [← hhead]
          cases inner <;> rfl
        · exact hinner hlater
      · exact .inr fun hinfix => (commentEnd_infix_cons_iff.1 hinfix).elim hend hnot

/-- A comment goes on up to the first `*/`. -/
theorem commentLength_closed {inner : List Char} (h : ¬['*', '/'] <:+: inner ++ ['*']) (rest : List Char) :
    commentLength (inner ++ '*' :: '/' :: rest) = inner.length + 2 := by
  induction inner with
  | nil => rfl
  | cons c inner ih =>
    have hend : ¬(c = '*' ∧ (inner ++ '*' :: '/' :: rest).head? = some '/') := by
      rintro ⟨hc, hhead⟩
      refine h (commentEnd_infix_cons_iff.2 (.inl ⟨hc, ?_⟩))
      rw [← hhead]
      cases inner <;> rfl
    rw [List.cons_append, commentLength, if_neg hend, ih fun hlater => h (commentEnd_infix_cons_iff.2 (.inr hlater)),
      List.length_cons]

/-- A comment that nothing closes goes on to the end of the text. -/
theorem commentLength_open (h : ¬['*', '/'] <:+: cs) : commentLength cs = cs.length := by
  induction cs with
  | nil => rfl
  | cons c cs ih =>
    have hend : ¬(c = '*' ∧ cs.head? = some '/') := fun hend => h (commentEnd_infix_cons_iff.2 (.inl hend))
    rw [commentLength, if_neg hend, ih fun hlater => h (commentEnd_infix_cons_iff.2 (.inr hlater)), List.length_cons]

/-- A comment goes on up to the first `*/`, or to the end of the text. -/
theorem take_commentLength (cs : List Char) :
    (∃ inner, cs.take (commentLength cs) = inner ++ ['*', '/']) ∨ ¬['*', '/'] <:+: cs := by
  obtain ⟨inner, rest, rfl, hinner⟩ | hnot := exists_commentEnd cs
  · refine .inl ⟨inner, ?_⟩
    rw [commentLength_closed hinner, List.take_length_add_append]
    rfl
  · exact .inr hnot

end

end ScriptModules.Script
