import ScriptModules.Proofs.Scanning.Literals
import ScriptModules.Proofs.Scanning.Pieces

/-!
# Carriage returns

A text whose lines end with a carriage return and a line feed (`withReturns`) scans to the same tokens as the text
whose lines end with the line feed alone.  Between tokens a carriage return is skipped as the line feed is
(`corresponds_skipBlanks`), and a token ends before either of them.  Only a string literal may go on over the end of a
line, behind a backslash; there the backslash takes the carriage return, and the line feed breaks the literal off.  So
the tokens are sound together but for such literals (`tokensFrom_withReturns`).
-/

namespace ScriptModules.Script

/-- The text with a carriage return before each line feed. -/
def withReturns (cs : List Char) : List Char := cs.flatMap fun c => if c = '\n' then ['\r', '\n'] else [c]

@[simp] theorem withReturns_nil : withReturns [] = [] := rfl

@[simp] theorem withReturns_feed (cs : List Char) : withReturns ('\n' :: cs) = '\r' :: '\n' :: withReturns cs := rfl

@[simp] theorem withReturns_cons {c : Char} (h : c ≠ '\n') (cs : List Char) :
    withReturns (c :: cs) = c :: withReturns cs := by
  simp [withReturns, h]

private theorem withReturns_append (cs ds : List Char) : withReturns (cs ++ ds) = withReturns cs ++ withReturns ds :=
  List.flatMap_append

private theorem withReturns_of_not_mem {cs : List Char} (h : '\n' ∉ cs) : withReturns cs = cs := by
  induction cs with
  | nil => rfl
  | cons c cs ih =>
    simp only [List.mem_cons, not_or] at h
    rw [withReturns_cons (Ne.symm h.1), ih h.2]

private theorem head?_withReturns_ne {c : Char} {cs : List Char} (hc : c ≠ '\r') (h : cs.head? ≠ some c) :
    (withReturns cs).head? ≠ some c := by
  cases cs with
  | nil => exact h
  | cons d cs =>
    by_cases hd : d = '\n'
    · subst hd
      simpa using Ne.symm hc
    · rwa [withReturns_cons hd]

/-! ## Blanks -/

/-- The places are the same but for the carriage returns before and behind them. -/
def Corresponds (place place' : Cursor) : Prop :=
  place'.rest = withReturns place.rest ∧ (place.offset = 0 ↔ place'.offset = 0)

private theorem offset_add_eq_zero_iff (offset offset' : Nat) {n n' : Nat} (h : 0 < n) (h' : 0 < n') :
    offset + n = 0 ↔ offset' + n' = 0 := by
  omega

private theorem corresponds_stop {offset offset' : Nat} {c : Char} {cs : List Char} (h : offset = 0 ↔ offset' = 0)
    (hblank : ¬isBlank c = true) (hcomment : c = '/' → cs.head? ≠ some '/' ∧ cs.head? ≠ some '*')
    (hfirst : c = '#' → offset = 0 → cs.head? ≠ some '!') :
    Corresponds ⟨offset, c :: cs⟩ (skipBlanks .space offset' (withReturns (c :: cs))) := by
  have hc : c ≠ '\n' := by
    rintro rfl
    exact hblank (by decide)
  rw [withReturns_cons hc, skipBlanks_stop hblank]
  · exact ⟨(withReturns_cons hc cs).symm, h⟩
  · exact fun hc => ⟨head?_withReturns_ne (by decide) (hcomment hc).1, head?_withReturns_ne (by decide) (hcomment hc).2⟩
  · exact fun hc ho => head?_withReturns_ne (by decide) (hfirst hc (h.2 ho))

/-- The scanner skips a carriage return before a line feed as it skips the line feed, in a comment and out of one. -/
theorem corresponds_skipBlanks (mode : BlankMode) (offset : Nat) (cs : List Char) {offset' : Nat}
    (h : offset = 0 ↔ offset' = 0) :
    Corresponds (skipBlanks mode offset cs) (skipBlanks mode offset' (withReturns cs)) := by
  have hsize (c : Char) : 0 < c.utf8Size := c.utf8Size_pos
  have hreturn (offset : Nat) (cs : List Char) : skipBlanks .space offset ('\r' :: '\n' :: cs) =
      skipBlanks .space (offset + '\r'.utf8Size + '\n'.utf8Size) cs := by
    rw [skipBlanks_blank (by decide), skipBlanks_blank (by decide)]
  fun_induction skipBlanks mode offset cs generalizing offset' with
  | case1 mode offset => exact ⟨by simp [skipBlanks], by simpa [skipBlanks] using h⟩
  | case2 offset c cs hblank ih =>
    by_cases hc : c = '\n'
    · subst hc
      rw [withReturns_feed, hreturn]
      exact ih (offset_add_eq_zero_iff _ _ (hsize _) (hsize _))
    · rw [withReturns_cons hc, skipBlanks_blank hblank]
      exact ih (offset_add_eq_zero_iff _ _ (hsize _) (hsize _))
  | case3 offset rest hblank ih =>
    exact @ih (offset' + 2) (offset_add_eq_zero_iff _ _ (by decide) (by decide))
  | case4 offset rest hblank ih =>
    exact @ih (offset' + 2) (offset_add_eq_zero_iff _ _ (by decide) (by decide))
  | case5 offset cs hline hblock hblank =>
    refine corresponds_stop h hblank (fun _ => ⟨fun hhead => ?_, fun hhead => ?_⟩) (fun hc => absurd hc (by decide))
    · obtain ⟨rest, rfl⟩ := List.head?_eq_some_iff.1 hhead
      exact hline rest rfl
    · obtain ⟨rest, rfl⟩ := List.head?_eq_some_iff.1 hhead
      exact hblock rest rfl
  | case6 offset c hblank hslash hfirst rest ih =>
    obtain ⟨rfl, rfl⟩ := hfirst
    obtain rfl := h.1 rfl
    exact @ih 2 (by simp)
  | case7 offset c cs hblank hslash hfirst hnext =>
    refine corresponds_stop h hblank (fun hc => absurd hc hslash) fun _ _ hhead => ?_
    obtain ⟨rest, rfl⟩ := List.head?_eq_some_iff.1 hhead
    exact hnext rest rfl
  | case8 offset c cs hblank hslash hfirst =>
    exact corresponds_stop h hblank (fun hc => absurd hc hslash) fun hc ho => absurd ⟨hc, ho⟩ hfirst
  | case9 offset c cs ih =>
    by_cases hc : c = '\n'
    · subst hc
      have hskip : skipBlanks .lineComment offset' ('\r' :: '\n' :: withReturns cs) =
          skipBlanks .space (offset' + '\r'.utf8Size + '\n'.utf8Size) (withReturns cs) := by
        rw [skipBlanks, if_pos (.inr rfl), skipBlanks_blank (by decide)]
      rw [withReturns_feed, hskip]
      exact ih (offset_add_eq_zero_iff _ _ (hsize _) (hsize _))
    · rw [withReturns_cons hc, skipBlanks]
      exact ih (offset_add_eq_zero_iff _ _ (hsize _) (hsize _))
  | case10 afterStar offset c cs ih =>
    by_cases hc : c = '\n'
    · subst hc
      have hskip : skipBlanks (.blockComment afterStar) offset' ('\r' :: '\n' :: withReturns cs) =
          skipBlanks (.blockComment false) (offset' + '\r'.utf8Size + '\n'.utf8Size) (withReturns cs) := by
        simp [skipBlanks]
      rw [withReturns_feed, hskip]
      simpa using ih (offset_add_eq_zero_iff _ (offset' + '\r'.utf8Size) (hsize _) (hsize '\n'))
    · rw [withReturns_cons hc, skipBlanks]
      exact ih (offset_add_eq_zero_iff _ _ (hsize _) (hsize _))
  | case11 offset c cs ih =>
    by_cases hc : c = '\n'
    · subst hc
      have hskip : skipBlanks .interpreterLine offset' ('\r' :: '\n' :: withReturns cs) =
          skipBlanks .space (offset' + '\r'.utf8Size + '\n'.utf8Size) (withReturns cs) := by
        simp [skipBlanks]
      rw [withReturns_feed, hskip]
      exact ih (offset_add_eq_zero_iff _ _ (hsize _) (hsize _))
    · rw [withReturns_cons hc, skipBlanks]
      exact ih (offset_add_eq_zero_iff _ _ (hsize _) (hsize _))

/-! ## Tokens -/

private theorem withReturns_eq_append {cs : List Char} {n : Nat} (h : '\n' ∉ cs.take n) :
    withReturns cs = cs.take n ++ withReturns (cs.drop n) := by
  calc withReturns cs = withReturns (cs.take n ++ cs.drop n) := by rw [List.take_append_drop]
    _ = cs.take n ++ withReturns (cs.drop n) := by rw [withReturns_append, withReturns_of_not_mem h]

/-- A front without line feeds is the same in the text with carriage returns, and behind it stands what stood there, with
carriage returns. -/
private theorem take_drop_withReturns {cs : List Char} {n : Nat} (hn : n ≤ cs.length) (h : '\n' ∉ cs.take n) :
    (withReturns cs).take n = cs.take n ∧ (withReturns cs).drop n = withReturns (cs.drop n) := by
  have hlength : (cs.take n).length = n := List.length_take_of_le hn
  rw [withReturns_eq_append h]
  exact ⟨List.take_left' hlength, List.drop_left' hlength⟩

/-- The text up to the first line feed, and what is there from that on. -/
private theorem exists_line (cs : List Char) :
    ∃ line after, cs = line ++ after ∧ '\n' ∉ line ∧ (after = [] ∨ ∃ more, after = '\n' :: more) := by
  induction cs with
  | nil => exact ⟨[], [], rfl, by simp, .inl rfl⟩
  | cons c cs ih =>
    by_cases hc : c = '\n'
    · exact ⟨[], c :: cs, rfl, by simp, .inr ⟨cs, by rw [hc]⟩⟩
    · obtain ⟨line, after, rfl, hline, hafter⟩ := ih
      exact ⟨c :: line, after, rfl, by simp [hline, Ne.symm hc], hafter⟩

/-- A token that is no string literal ends where its line does, however that ends. -/
private theorem lexeme_withReturns_of_not_isQuote {c : Char} (hq : isQuote c = false) (cs : List Char) :
    lexeme c (withReturns cs) = lexeme c cs ∧
      ((lexeme c cs).1.isProper = true → '\n' ∉ cs.take (lexeme c cs).2) := by
  obtain ⟨line, after, rfl, hline, hafter⟩ := exists_line cs
  have hends : EndsToken after ∧ EndsToken (withReturns after) := by
    obtain rfl | ⟨more, rfl⟩ := hafter
    · exact ⟨endsToken_nil, endsToken_nil⟩
    · exact ⟨endsToken_cons.2 (by decide), endsToken_cons.2 (by decide)⟩
  rw [withReturns_append, withReturns_of_not_mem hline, lexeme_append hq line hends.1, lexeme_append hq line hends.2]
  refine ⟨rfl, fun hproper hm => hline ?_⟩
  have hle : (lexeme c line).2 ≤ line.length := (lexeme_take rfl hproper endsToken_nil).1
  rw [List.take_append_of_le_length hle] at hm
  exact List.mem_of_mem_take hm

private theorem StringTail.ne_feed {quote : Char} {own text rest more : List Char} (h : StringTail quote own text)
    (hq : isQuote quote = true) : own ++ rest ≠ '\n' :: more := by
  intro heq
  cases h with
  | closing =>
    obtain ⟨rfl, _⟩ := List.cons.inj heq
    contradiction
  | plain hc => exact hc (List.cons.inj heq).1
  | _ => exact absurd (List.cons.inj heq).1 (by decide)

/-- A text that starts with a piece without `e` has all of the piece before its first `e`. -/
private theorem exists_eq_append_of_not_mem {piece own line more : List Char} {e : Char} (he : e ∉ piece)
    (h : piece ++ own = line ++ e :: more) : ∃ rest, line = piece ++ rest ∧ own = rest ++ e :: more := by
  obtain ⟨rest, hline, hown⟩ | ⟨middle, rfl, hrest⟩ := List.append_eq_append_iff.1 h
  · exact ⟨rest, hline, hown⟩
  · cases middle with
    | nil => exact ⟨[], by simp, hrest.symm⟩
    | cons d middle =>
      obtain ⟨rfl, _⟩ := List.cons.inj hrest
      exact absurd (by simp) he

/-- A string literal ends before a carriage return with a line feed behind it. -/
private theorem StringTail.ends_in_line {quote : Char} {own text rest line more : List Char}
    (h : StringTail quote own text) (hq : isQuote quote = true) (hline : '\n' ∉ line)
    (heq : own ++ rest = line ++ '\r' :: '\n' :: more) : ∃ behind, line = own ++ behind := by
  induction h generalizing line with
  | closing =>
    cases line with
    | nil =>
      obtain ⟨rfl, _⟩ := List.cons.inj heq
      contradiction
    | cons d line =>
      obtain ⟨rfl, _⟩ := List.cons.inj heq
      exact ⟨line, rfl⟩
  | plain hn hc hb htail ih =>
    cases line with
    | nil => exact absurd (List.cons.inj heq).2 (htail.ne_feed hq)
    | cons d line =>
      obtain ⟨rfl, hown⟩ := List.cons.inj heq
      obtain ⟨behind, rfl⟩ := ih (fun hm => hline (List.mem_cons_of_mem _ hm)) hown
      exact ⟨behind, rfl⟩
  | escaped hu hn htail ih =>
    rcases line with _ | ⟨d, _ | ⟨e, line⟩⟩
    · exact absurd (List.cons.inj heq).1 (by decide)
    · exact absurd (List.cons.inj (List.cons.inj heq).2).2 (htail.ne_feed hq)
    · obtain ⟨rfl, hnext⟩ := List.cons.inj heq
      obtain ⟨rfl, hown⟩ := List.cons.inj hnext
      obtain ⟨behind, rfl⟩ := ih (fun hm => hline (by simp [hm])) hown
      exact ⟨behind, rfl⟩
  | continued htail ih =>
    rcases line with _ | ⟨d, _ | ⟨e, line⟩⟩
    · exact absurd (List.cons.inj heq).1 (by decide)
    · exact absurd (List.cons.inj (List.cons.inj heq).2).1 (by decide)
    · obtain ⟨rfl, hnext⟩ := List.cons.inj heq
      obtain ⟨rfl, hown⟩ := List.cons.inj hnext
      simp at hline
  | @code code own text c hcode htail ih =>
    rcases line with _ | ⟨d, _ | ⟨e, line⟩⟩
    · exact absurd (List.cons.inj heq).1 (by decide)
    · exact absurd (List.cons.inj (List.cons.inj heq).2).1 (by decide)
    · obtain ⟨rfl, hnext⟩ := List.cons.inj heq
      obtain ⟨rfl, hown⟩ := List.cons.inj hnext
      have hreturn : '\r' ∉ code := hcode.not_mem (by decide) (by decide)
      obtain ⟨line, rfl, hrest⟩ := exists_eq_append_of_not_mem hreturn ((List.append_assoc ..).symm.trans hown)
      obtain ⟨behind, rfl⟩ := ih (fun hm => hline (by simp [hm])) hrest
      exact ⟨behind, by simp⟩

/-- The tail of a literal in a text with carriage returns stands in the text without them, on one line. -/
private theorem StringTail.of_withReturns {quote : Char} {text cs : List Char} {n : Nat}
    (h : StringTail quote ((withReturns cs).take n) text) (hq : isQuote quote = true) :
    '\n' ∉ (withReturns cs).take n ∧ ∃ after, cs = (withReturns cs).take n ++ after := by
  obtain ⟨line, after, rfl, hline, hafter⟩ := exists_line cs
  have hwhole : withReturns (line ++ after) = line ++ withReturns after := by
    rw [withReturns_append, withReturns_of_not_mem hline]
  rw [hwhole] at h ⊢
  obtain ⟨behind, hbehind⟩ : ∃ behind, line = (line ++ withReturns after).take n ++ behind := by
    obtain rfl | ⟨more, rfl⟩ := hafter
    · exact ⟨line.drop n, by simp⟩
    · exact h.ends_in_line hq hline (List.take_append_drop n _)
  refine ⟨fun hm => hline ?_, behind ++ after, ?_⟩
  · rw [hbehind]
    exact List.mem_append_left _ hm
  · rw [← List.append_assoc, ← hbehind]

/-- A token is read alike, if it does not go on over the end of a line; else the scanner takes it for none. -/
private theorem lexeme_withReturns (c : Char) (cs : List Char) :
    ((lexeme c (withReturns cs)).1.isProper = true ↔
      (lexeme c cs).1.isProper = true ∧ '\n' ∉ cs.take (lexeme c cs).2) ∧
      ((lexeme c (withReturns cs)).1.isProper = true → lexeme c (withReturns cs) = lexeme c cs) := by
  cases hq : isQuote c with
  | false =>
    obtain ⟨heq, hline⟩ := lexeme_withReturns_of_not_isQuote hq cs
    rw [heq]
    exact ⟨⟨fun h => ⟨h, hline h⟩, fun h => h.1⟩, fun _ => rfl⟩
  | true =>
    have forth (h : (lexeme c (withReturns cs)).1.isProper = true) :
        lexeme c (withReturns cs) = lexeme c cs ∧ (lexeme c cs).1.isProper = true ∧
          '\n' ∉ cs.take (lexeme c cs).2 := by
      obtain ⟨_, text, _, htail⟩ := exists_stringTail_of_lexeme hq (Prod.eta _).symm h
      obtain ⟨hfeed, after, hcs⟩ := htail.of_withReturns hq
      have hwhole := htail.lexeme_append hq ((withReturns cs).drop (lexeme c (withReturns cs)).2)
      rw [List.take_append_drop] at hwhole
      generalize (withReturns cs).take (lexeme c (withReturns cs)).2 = own at *
      have hown := htail.lexeme_append hq after
      rw [← hcs] at hown
      refine ⟨hwhole.trans hown.symm, by rw [hown]; rfl, ?_⟩
      rwa [hown, hcs, List.take_left]
    have back (h : (lexeme c cs).1.isProper = true) (hfeed : '\n' ∉ cs.take (lexeme c cs).2) :
        (lexeme c (withReturns cs)).1.isProper = true := by
      obtain ⟨_, text, _, htail⟩ := exists_stringTail_of_lexeme hq (Prod.eta _).symm h
      have hwhole := htail.lexeme_append hq (withReturns (cs.drop (lexeme c cs).2))
      rw [← withReturns_eq_append hfeed] at hwhole
      rw [hwhole]
      rfl
    exact ⟨⟨fun h => (forth h).2, fun h => back h.1 h.2⟩, fun h => (forth h).1⟩

/-- The piece is a string literal that goes on over the end of a line. -/
def Piece.IsContinued (piece : Piece) : Prop :=
  (∃ value, piece.stretch = .token (.string value)) ∧ '\n' ∈ piece.text

/-- Of the tokens none is invalid. -/
def AllSound (tokens : List Token) : Prop := ∀ token ∈ tokens, token.kind.isProper = true ∨ token.kind = .eof

/-- Only a string literal goes on over the end of a line. -/
private theorem isContinued_iff {offset n : Nat} {c : Char} {cs : List Char} {kind : Kind} (h : lexeme c cs = (kind, n))
    (hk : kind.isProper = true) :
    Piece.IsContinued ⟨.token kind, offset, c :: cs.take n⟩ ↔ '\n' ∈ cs.take n := by
  have hc : '\n' ≠ c := by
    rintro rfl
    rw [lexeme_of_isBlank (by decide)] at h
    obtain ⟨rfl, _⟩ := Prod.mk.inj h
    contradiction
  constructor
  · exact fun hcontinued => (List.mem_cons.1 hcontinued.2).resolve_left hc
  · intro hm
    refine ⟨?_, List.mem_cons_of_mem _ hm⟩
    cases hq : isQuote c with
    | false =>
      obtain ⟨_, hline⟩ := lexeme_withReturns_of_not_isQuote hq cs
      rw [h] at hline
      exact absurd hm (hline hk)
    | true =>
      obtain ⟨_, text, rfl, _⟩ := exists_stringTail_of_lexeme hq h hk
      exact ⟨_, rfl⟩

/-- A token before the end has to be proper, if none is invalid. -/
theorem allSound_cons {kind : Kind} {offset : Nat} {tokens : List Token} (h : kind ≠ .eof) :
    AllSound (⟨kind, offset⟩ :: tokens) ↔ kind.isProper = true ∧ AllSound tokens := by
  rw [AllSound, List.forall_mem_cons, or_iff_left h]
  rfl

/-- The tokens of a text with carriage returns are sound when those of the text without them are and no literal goes on
over the end of a line; and then they are of the same kinds. -/
theorem tokensFrom_withReturns {offset offset' : Nat} (cs : List Char) (h : offset = 0 ↔ offset' = 0) :
    (AllSound (tokensFrom ⟨offset', withReturns cs⟩) ↔
      AllSound (tokensFrom ⟨offset, cs⟩) ∧ ∀ piece ∈ piecesFrom offset cs, ¬piece.IsContinued) ∧
      (AllSound (tokensFrom ⟨offset', withReturns cs⟩) →
        (tokensFrom ⟨offset', withReturns cs⟩).map (·.kind) = (tokensFrom ⟨offset, cs⟩).map (·.kind)) := by
  induction hlen : cs.length using Nat.strongRecOn generalizing offset offset' cs with
  | ind n ih =>
    obtain ⟨hrest, hzero⟩ := corresponds_skipBlanks .space offset cs h
    have hle := length_skipBlanks_le .space offset cs
    rcases hplace : skipBlanks .space offset cs with ⟨start, place⟩
    rcases hplace' : skipBlanks .space offset' (withReturns cs) with ⟨start', place'⟩
    obtain ⟨⟨skipped, hpieces, hskipped⟩, hstop⟩ := piecesFrom_eq_append offset cs hplace
    rw [hplace, hplace'] at hrest hzero
    rw [hplace] at hle
    subst hrest
    have hskipped' : ∀ piece ∈ skipped, ¬piece.IsContinued := by
      rintro piece hm ⟨⟨value, hvalue⟩, _⟩
      exact hskipped piece hm _ hvalue
    rw [hpieces, List.forall_mem_append, and_iff_right hskipped']
    cases place with
    | nil =>
      have hend : tokensFrom ⟨offset, cs⟩ = [⟨.eof, start⟩] := tokensFrom_end hplace
      have hend' : tokensFrom ⟨offset', withReturns cs⟩ = [⟨.eof, start'⟩] := tokensFrom_end hplace'
      rw [hend, hend', piecesFrom]
      simp [AllSound]
    | cons c rest =>
      have hfirst := hstop c rest rfl
      have hc : c ≠ '\n' := by
        rintro rfl
        simp [stretchAt, show isBlank '\n' = true by decide] at hfirst
      rw [withReturns_cons hc] at hplace'
      have htokens : tokensFrom ⟨offset, cs⟩ = _ := tokensFrom_token hplace
      have htokens' : tokensFrom ⟨offset', withReturns cs⟩ = _ := tokensFrom_token hplace'
      rw [htokens, htokens', piecesFrom, hfirst, List.forall_mem_cons, allSound_cons (lexeme_ne_eof _ _),
        allSound_cons (lexeme_ne_eof _ _)]
      obtain ⟨hiff, heq⟩ := lexeme_withReturns c rest
      by_cases hk : (lexeme c (withReturns rest)).1.isProper = true
      · -- There is no line feed in the token, so that it is spelled in the same way in both texts.
        obtain ⟨hproper, hfeed⟩ := hiff.1 hk
        have hn : (lexeme c rest).2 ≤ rest.length := (lexeme_take rfl hproper endsToken_nil).1
        obtain ⟨htake, hdrop⟩ := take_drop_withReturns hn hfeed
        have hcontinued : ¬Piece.IsContinued ⟨.token (lexeme c rest).1, start, c :: rest.take (lexeme c rest).2⟩ :=
          fun h => hfeed ((isContinued_iff rfl hproper).1 h)
        rw [heq hk, htake, hdrop, and_iff_right hproper, and_iff_right hproper, and_iff_right hcontinued]
        have hlt : (rest.drop (lexeme c rest).2).length < n := by
          rw [List.length_drop, ← hlen]
          simp only [List.length_cons] at hle
          omega
        have hsize : 0 < byteCount (c :: rest.take (lexeme c rest).2) := byteCount_pos (List.cons_ne_nil _ _)
        obtain ⟨hsound, hsame⟩ := ih _ hlt _ (offset_add_eq_zero_iff start start' hsize hsize) rfl
        exact ⟨hsound, fun h => congrArg (List.cons (lexeme c rest).1) (hsame h)⟩
      · refine ⟨⟨fun h => absurd h.1 hk, fun h => ?_⟩, fun h => absurd h.1 hk⟩
        obtain ⟨⟨hproper, _⟩, hcontinued, _⟩ := h
        exact absurd (hiff.2 ⟨hproper, fun hm => hcontinued ((isContinued_iff rfl hproper).2 hm)⟩) hk

end ScriptModules.Script
