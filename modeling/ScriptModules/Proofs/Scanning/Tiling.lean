import Mathlib.Data.List.TakeWhile
import Mathlib.Logic.Function.Iterate
import Mathlib.Tactic.Choose
import ScriptModules.Proofs.Scanning.Pieces

/-!
# Tokens tile the text

What may stand between two tokens is told without the scanner: blanks and comments, and an interpreter line at the very
start of a text (`IsGap`).  Before each token the scanner skips such a gap, the longest one that there is
(`skipBlanks_eq_iff`), and then it takes the text of the token (`next_moves`).  So when it is asked for tokens again and
again, gaps and tokens in turn make up the text, and behind the last one there is nothing but the end
(`exists_isTiling`).
-/

namespace ScriptModules.Script

/-! ## Gaps -/

/-- A blank, a comment or an interpreter line at `offset`, with `rest` behind it.  A line goes on to its end, and a block
comment to the first `*/` or to the end of the text. -/
inductive IsFiller (offset : Nat) : List Char → List Char → Prop
  | blank {c : Char} {rest : List Char} : isBlank c = true → IsFiller offset [c] rest
  | lineComment {inner rest : List Char} : (∀ c ∈ inner, isLineEnd c = false) →
      (∀ c ∈ rest.head?, isLineEnd c = true) → IsFiller offset ('/' :: '/' :: inner) rest
  | blockComment {inner rest : List Char} : ¬['*', '/'] <:+: inner ++ ['*'] →
      IsFiller offset ('/' :: '*' :: (inner ++ ['*', '/'])) rest
  | openComment {inner : List Char} : ¬['*', '/'] <:+: inner → IsFiller offset ('/' :: '*' :: inner) []
  | interpreterLine {inner rest : List Char} : offset = 0 → '\n' ∉ inner → (∀ c ∈ rest.head?, c = '\n') →
      IsFiller offset ('#' :: '!' :: inner) rest

/-- Any number of fillers, one behind the other, from `offset` on, with `rest` behind them. -/
inductive IsGap : Nat → List Char → List Char → Prop
  | nil {offset : Nat} {rest : List Char} : IsGap offset [] rest
  | cons {offset : Nat} {filler gap rest : List Char} : IsFiller offset filler (gap ++ rest) →
      IsGap (offset + byteCount filler) gap rest → IsGap offset (filler ++ gap) rest

section

variable {offset : Nat} {c : Char} {cs filler gap rest : List Char}

/-- A line of which `goesOn` holds takes all up to the first character of which it does not. -/
private theorem takeWhile_line {goesOn : Char → Bool} {line : List Char} (hline : ∀ c ∈ line, goesOn c = true)
    (hrest : ∀ c ∈ rest.head?, goesOn c = false) : (line ++ rest).takeWhile goesOn = line := by
  rw [takeWhile_append_of_stops line hrest]
  exact List.takeWhile_eq_self_iff.2 hline

private theorem eq_false_of_mem_head?_dropWhile {goesOn : Char → Bool} (cs : List Char) :
    ∀ c ∈ (cs.dropWhile goesOn).head?, goesOn c = false := by
  intro c hc
  have hstop := List.head?_dropWhile_not goesOn cs
  rw [Option.mem_def.1 hc] at hstop
  exact hstop

/-- Any piece of a text that is no token is a filler. -/
private theorem isFiller_of_stretchAt (h : ∀ kind, (stretchAt offset c cs).1 ≠ .token kind) :
    IsFiller offset (c :: cs.take (stretchAt offset c cs).2) (cs.drop (stretchAt offset c cs).2) := by
  rcases stretchAt_cases offset c cs with ⟨hblank, hs⟩ | ⟨rest, rfl, rfl, hs⟩ | ⟨rest, rfl, rfl, hs⟩ |
    ⟨rest, rfl, rfl, rfl, hs⟩ | ⟨_, hs⟩
  · rw [hs]
    exact .blank hblank
  · obtain ⟨htake, hdrop⟩ := take_length_takeWhile (fun c => !isLineEnd c) ('/' :: rest)
    rw [hs, htake, hdrop, List.takeWhile_cons_of_pos (by decide), List.dropWhile_cons_of_pos (by decide)]
    refine .lineComment (fun d hd => ?_) fun d hd => ?_
    · have hgoes := List.mem_takeWhile_imp hd
      simpa using hgoes
    · have hstop := eq_false_of_mem_head?_dropWhile rest d hd
      simpa using hstop
  · rw [hs]
    obtain ⟨inner, behind, rfl, hinner⟩ | hopen := exists_commentEnd rest
    · rw [commentLength_closed hinner, List.take_succ_cons, List.drop_succ_cons, List.take_length_add_append,
        List.drop_length_add_append]
      exact .blockComment hinner
    · rw [commentLength_open hopen, List.take_succ_cons, List.drop_succ_cons, List.take_length, List.drop_length]
      exact .openComment hopen
  · obtain ⟨htake, hdrop⟩ := take_length_takeWhile (· ≠ '\n') ('!' :: rest)
    rw [hs, htake, hdrop, List.takeWhile_cons_of_pos (by decide), List.dropWhile_cons_of_pos (by decide)]
    refine .interpreterLine rfl (fun hd => ?_) fun d hd => ?_
    · have hgoes := List.mem_takeWhile_imp hd
      simp at hgoes
    · have hstop := eq_false_of_mem_head?_dropWhile rest d hd
      simpa using hstop
  · exact absurd (congrArg Prod.fst hs) (h _)

/-- Where a filler begins, it is the next piece of the text. -/
private theorem IsFiller.stretchAt (h : IsFiller offset filler rest) :
    ∃ c own stretch, filler = c :: own ∧ stretchAt offset c (own ++ rest) = (stretch, own.length) ∧
      ∀ kind, stretch ≠ .token kind := by
  cases h with
  | @blank c rest hblank => exact ⟨c, [], .blank, rfl, if_pos hblank, by simp⟩
  | @lineComment inner rest hinner hrest =>
    have hline : ∀ c ∈ '/' :: inner, (!isLineEnd c) = true :=
      List.forall_mem_cons.2 ⟨by decide, fun c hc => by rw [hinner c hc]; rfl⟩
    have hs : Script.stretchAt offset '/' ('/' :: inner ++ rest) =
      (.lineComment, (('/' :: inner ++ rest).takeWhile fun c => !isLineEnd c).length) := rfl
    rw [takeWhile_line hline fun c hc => by rw [hrest c hc]; rfl] at hs
    exact ⟨'/', '/' :: inner, .lineComment, rfl, hs, by simp⟩
  | @blockComment inner rest hinner =>
    have hlen : commentLength (inner ++ ['*', '/'] ++ rest) = (inner ++ ['*', '/']).length := by
      rw [List.append_assoc, List.cons_append, List.cons_append, List.nil_append, commentLength_closed hinner,
        List.length_append]
      rfl
    have hs : Script.stretchAt offset '/' ('*' :: (inner ++ ['*', '/']) ++ rest) =
      (.blockComment, commentLength (inner ++ ['*', '/'] ++ rest) + 1) := rfl
    rw [hlen] at hs
    exact ⟨'/', '*' :: (inner ++ ['*', '/']), .blockComment, rfl, hs, by simp⟩
  | @openComment inner hinner =>
    have hs : Script.stretchAt offset '/' ('*' :: inner ++ []) = (.blockComment, commentLength (inner ++ []) + 1) := rfl
    rw [List.append_nil inner, commentLength_open hinner] at hs
    exact ⟨'/', '*' :: inner, .blockComment, rfl, hs, by simp⟩
  | @interpreterLine inner rest hoffset hinner hrest =>
    subst hoffset
    have hline : ∀ c ∈ '!' :: inner, decide (c ≠ '\n') = true :=
      List.forall_mem_cons.2 ⟨by decide, fun c hc => decide_eq_true fun heq => hinner (heq ▸ hc)⟩
    have hs : Script.stretchAt 0 '#' ('!' :: inner ++ rest) =
      (.interpreterLine, (('!' :: inner ++ rest).takeWhile (· ≠ '\n')).length) := rfl
    rw [takeWhile_line hline fun c hc => by simp [hrest c hc]] at hs
    exact ⟨'#', '!' :: inner, .interpreterLine, rfl, hs, by simp⟩

/-! ## The scanner skips gaps -/

private theorem IsFiller.skipBlanks (h : IsFiller offset filler rest) :
    skipBlanks .space offset (filler ++ rest) = skipBlanks .space (offset + byteCount filler) rest := by
  obtain ⟨c, own, stretch, rfl, hstretch, hne⟩ := h.stretchAt
  obtain ⟨hs, _⟩ | ⟨_, hskip⟩ := skipBlanks_stretchAt offset c (own ++ rest)
  · rw [hstretch] at hs
    exact absurd (congrArg Prod.fst hs) (hne _)
  · rwa [hstretch, List.take_left, List.drop_left] at hskip

private theorem IsGap.skipBlanks (h : IsGap offset gap rest) :
    skipBlanks .space offset (gap ++ rest) = skipBlanks .space (offset + byteCount gap) rest := by
  induction h with
  | nil => rfl
  | cons hfiller _ ih => rw [List.append_assoc, hfiller.skipBlanks, ih, byteCount_append, Nat.add_assoc]

private theorem exists_isGap (offset : Nat) (cs : List Char) :
    ∃ gap, cs = gap ++ (skipBlanks .space offset cs).rest ∧
      (skipBlanks .space offset cs).offset = offset + byteCount gap ∧
      IsGap offset gap (skipBlanks .space offset cs).rest := by
  fun_induction piecesFrom offset cs with
  | case1 offset => exact ⟨[], by simp [Script.skipBlanks], by simp [Script.skipBlanks, byteCount], .nil⟩
  | case2 offset c cs text ih =>
    obtain ⟨_, hstop⟩ | ⟨hstretch, hskip⟩ := skipBlanks_stretchAt offset c cs
    · rw [hstop]
      exact ⟨[], rfl, rfl, .nil⟩
    · obtain ⟨gap, hcs, hoffset, hgap⟩ := ih
      have hfiller : IsFiller offset text _ := isFiller_of_stretchAt hstretch
      rw [hskip]
      rw [hcs] at hfiller
      refine ⟨text ++ gap, ?_, ?_, .cons hfiller hgap⟩
      · rw [List.append_assoc, ← hcs, List.cons_append, List.take_append_drop]
      · rw [hoffset, byteCount_append, Nat.add_assoc]

/-- No gap begins where nothing is skipped. -/
private theorem IsGap.eq_nil (h : IsGap offset gap rest)
    (hstop : Script.skipBlanks .space offset (gap ++ rest) = ⟨offset, gap ++ rest⟩) : gap = [] := by
  have hle := length_skipBlanks_le .space (offset + byteCount gap) rest
  rw [← h.skipBlanks, hstop, List.length_append] at hle
  exact List.eq_nil_of_length_eq_zero (by omega)

end

/-- The scanner skips a gap, and no gap begins where it stops. -/
theorem skipBlanks_eq_iff {offset : Nat} {cs : List Char} {place : Cursor} :
    skipBlanks .space offset cs = place ↔
      ∃ gap, cs = gap ++ place.rest ∧ place.offset = offset + byteCount gap ∧ IsGap offset gap place.rest ∧
        ∀ more rest, place.rest = more ++ rest → IsGap place.offset more rest → more = [] := by
  constructor
  · rintro rfl
    obtain ⟨gap, hcs, hoffset, hgap⟩ := exists_isGap offset cs
    refine ⟨gap, hcs, hoffset, hgap, fun more rest hrest hmore => hmore.eq_nil ?_⟩
    have hagain := hgap.skipBlanks
    rw [← hcs, ← hoffset] at hagain
    rw [← hrest, ← hagain]
  · rintro ⟨gap, rfl, hoffset, hgap, hlongest⟩
    obtain ⟨more, hrest, hstart, hmore⟩ := exists_isGap place.offset place.rest
    obtain rfl := hlongest more _ hrest hmore
    rw [hgap.skipBlanks, ← hoffset]
    exact congrArg₂ Cursor.mk hstart hrest.symm

/-! ## One token -/

/-- From `place` the scanner goes over a gap and the text of a token, and stands at `behind` then. -/
structure Cursor.Moves (place : Cursor) (gap own : List Char) (token : Token) (behind : Cursor) : Prop where
  rest : place.rest = gap ++ (own ++ behind.rest)
  isGap : IsGap place.offset gap (own ++ behind.rest)
  /-- All that may be skipped is skipped. -/
  longest : ∀ more rest, own ++ behind.rest = more ++ rest → IsGap token.start more rest → more = []
  start : token.start = place.offset + byteCount gap
  offset : behind.offset = token.start + byteCount own
  own_ne_nil : token.kind ≠ .eof → own ≠ []
  /-- A token that is not invalid is read from its own text alone. -/
  spells : token.kind.isProper = true → Spells own token.kind
  ends : token.kind = .eof → own = [] ∧ behind.rest = []

private theorem next_moves (place : Cursor) : ∃ gap own, place.Moves gap own (next place).1 (next place).2 := by
  rcases hplace : skipBlanks .space place.offset place.rest with ⟨start, _ | ⟨c, cs⟩⟩
  · obtain ⟨gap, hrest, hstart, hgap, hlongest⟩ := skipBlanks_eq_iff.1 hplace
    have hnext : next place = (⟨.eof, start⟩, ⟨start, []⟩) := by
      rw [next, hplace]
      rfl
    rw [hnext]
    exact ⟨gap, [], hrest, hgap, hlongest, hstart, rfl, fun hk => absurd rfl hk,
      fun hk => absurd hk Bool.false_ne_true, fun _ => ⟨rfl, rfl⟩⟩
  · obtain ⟨gap, hrest, hstart, hgap, hlongest⟩ := skipBlanks_eq_iff.1 hplace
    have hnext : next place = (⟨(lexeme c cs).1, start⟩,
        ⟨start + byteCount (c :: cs.take (lexeme c cs).2), cs.drop (lexeme c cs).2⟩) := by
      rw [next, hplace, byteCount_cons, ← Nat.add_assoc]
      rfl
    have hown : c :: cs = c :: cs.take (lexeme c cs).2 ++ cs.drop (lexeme c cs).2 := by
      rw [List.cons_append, List.take_append_drop]
    rw [hnext]
    dsimp only at hrest hgap hlongest
    rw [hown] at hrest hgap hlongest
    exact ⟨gap, _, hrest, hgap, hlongest, hstart, rfl, fun _ => List.cons_ne_nil _ _, exists_spells_of_lexeme rfl,
      fun hk => absurd hk (lexeme_ne_eof c cs)⟩

/-- At the end of a text there is only the end, again and again. -/
theorem Cursor.Moves.kind_eq_eof {place behind : Cursor} {gap own : List Char} {token : Token}
    (h : place.Moves gap own token behind) (hrest : place.rest = []) : token.kind = .eof := by
  by_contra hk
  have hnil := h.rest.symm.trans hrest
  exact h.own_ne_nil hk (List.append_eq_nil_iff.1 (List.append_eq_nil_iff.1 hnil).2).1

/-! ## All tokens -/

/-- The place where the scanner stands after `n` tokens that it has given from `place` on. -/
def Cursor.after (place : Cursor) (n : Nat) : Cursor := (fun place => (next place).2)^[n] place

private theorem Cursor.after_succ (place : Cursor) (n : Nat) : place.after (n + 1) = (next (place.after n)).2 :=
  Function.iterate_succ_apply' ..

/-- The place where the scanner stands after `n` tokens of a text. -/
def placeAfter (source : String) (n : Nat) : Cursor := Cursor.after ⟨0, source.toList⟩ n

/-- The token that it gives next. -/
def tokenAfter (source : String) (n : Nat) : Token := (next (placeAfter source n)).1

/-- The first `n` gaps and texts of tokens, in turn. -/
def inTurn (gap own : Nat → List Char) (n : Nat) : List Char := (List.range n).flatMap fun m => gap m ++ own m

private theorem inTurn_succ (gap own : Nat → List Char) (n : Nat) :
    inTurn gap own (n + 1) = inTurn gap own n ++ (gap n ++ own n) := by
  rw [inTurn, List.range_succ, List.flatMap_append, List.flatMap_singleton, inTurn]

/-- The gaps and the tokens of a text, in turn, make it up: there are `count` tokens, and then only the end. -/
structure IsTiling (source : String) (count : Nat) (gap own : Nat → List Char) : Prop where
  scan_eq : scan source = (List.range (count + 1)).map (tokenAfter source)
  kind_ne_eof : ∀ n < count, (tokenAfter source n).kind ≠ .eof
  /-- At the end of the text the scanner stays there. -/
  eof : ∀ n ≥ count, tokenAfter source n = ⟨.eof, source.utf8ByteSize⟩
  moves : ∀ n, (placeAfter source n).Moves (gap n) (own n) (tokenAfter source n) (placeAfter source (n + 1))
  /-- No character is read twice, and none is left out. -/
  text : source.toList = inTurn gap own count ++ gap count
  rising : ∀ m n, m < n → n ≤ count → (tokenAfter source m).start < (tokenAfter source n).start
  /-- Tokens start between characters. -/
  isValid : ∀ n, (String.Pos.Raw.mk (tokenAfter source n).start).IsValid source

/-- The scanner is asked for tokens until it gives `eof`. -/
private theorem tokensFrom_eq_map (place : Cursor) :
    ∃ count, tokensFrom place = (List.range (count + 1)).map (fun n => (next (place.after n)).1) ∧
      (∀ n < count, (next (place.after n)).1.kind ≠ .eof) ∧ (next (place.after count)).1.kind = .eof := by
  fun_induction tokensFrom place with
  | case1 place step heof => exact ⟨0, rfl, by simp, heof⟩
  | case2 place step heof ih =>
    obtain ⟨count, htokens, hproper, hlast⟩ := ih
    refine ⟨count + 1, ?_, fun n hn => ?_, hlast⟩
    · rw [htokens, List.range_succ_eq_map (n := count + 1), List.map_cons, List.map_map]
      rfl
    · cases n with
      | zero => exact heof
      | succ n => exact hproper n (by omega)

section

variable {source : String} {gap own : Nat → List Char}
  (h : ∀ n, (placeAfter source n).Moves (gap n) (own n) (tokenAfter source n) (placeAfter source (n + 1)))

include h

/-- What the scanner has gone over after `n` tokens is the text before the place where it stands. -/
private theorem text_before_place (n : Nat) :
    source.toList = inTurn gap own n ++ (placeAfter source n).rest ∧
      (placeAfter source n).offset = byteCount (inTurn gap own n) := by
  induction n with
  | zero => exact ⟨rfl, rfl⟩
  | succ n ih =>
    obtain ⟨htext, hoffset⟩ := ih
    rw [inTurn_succ, byteCount_append, byteCount_append]
    constructor
    · rw [htext, (h n).rest, List.append_assoc, List.append_assoc]
    · rw [(h n).offset, (h n).start, hoffset, Nat.add_assoc]

private theorem text_before_token (n : Nat) :
    source.toList = inTurn gap own n ++ gap n ++ (own n ++ (placeAfter source (n + 1)).rest) ∧
      (tokenAfter source n).start = byteCount (inTurn gap own n ++ gap n) := by
  obtain ⟨htext, hoffset⟩ := text_before_place h n
  constructor
  · rw [htext, (h n).rest, List.append_assoc]
  · rw [(h n).start, hoffset, byteCount_append]

private theorem isValid_start (n : Nat) :
    (String.Pos.Raw.mk (tokenAfter source n).start).IsValid source := by
  obtain ⟨htext, hstart⟩ := text_before_token h n
  have hsource : source = .ofList (inTurn gap own n ++ gap n) ++ .ofList (own n ++ (placeAfter source (n + 1)).rest) := by
    rw [← String.ofList_append, ← htext, String.ofList_toList]
  refine String.Pos.Raw.isValid_iff_exists_append.2 ⟨_, _, hsource, String.Pos.Raw.ext ?_⟩
  rw [hstart, String.byteIdx_rawEndPos, utf8ByteSize_ofList]

private theorem start_lt_start_succ {n : Nat} (hk : (tokenAfter source n).kind ≠ .eof) :
    (tokenAfter source n).start < (tokenAfter source (n + 1)).start := by
  have hpos := byteCount_pos ((h n).own_ne_nil hk)
  have hbehind := (h n).offset
  have hstart := (h (n + 1)).start
  omega

private theorem eq_eof {count : Nat} (hlast : (tokenAfter source count).kind = .eof)
    {n : Nat} (hn : count ≤ n) : tokenAfter source n = ⟨.eof, source.utf8ByteSize⟩ := by
  have hkind : (tokenAfter source n).kind = .eof := by
    induction n, hn using Nat.le_induction with
    | base => exact hlast
    | succ n _ ih => exact (h (n + 1)).kind_eq_eof ((h n).ends ih).2
  obtain ⟨hown, hrest⟩ := (h n).ends hkind
  obtain ⟨htext, hstart⟩ := text_before_token h n
  rw [hown, hrest, List.append_nil, List.append_nil] at htext
  rw [← htext, byteCount_toList] at hstart
  exact congrArg₂ Token.mk hkind hstart

end

/-- Asked for tokens again and again, the scanner goes over all of the text once. -/
theorem exists_isTiling (source : String) : ∃ count gap own, IsTiling source count gap own := by
  obtain ⟨count, hscan, hproper, hlast⟩ := tokensFrom_eq_map ⟨0, source.toList⟩
  choose gap own hnext using fun n => next_moves (placeAfter source n)
  have hmoves (n : Nat) :
      (placeAfter source n).Moves (gap n) (own n) (tokenAfter source n) (placeAfter source (n + 1)) := by
    have hsucc : placeAfter source (n + 1) = (next (placeAfter source n)).2 := Cursor.after_succ _ n
    rw [hsucc]
    exact hnext n
  refine ⟨count, gap, own, hscan, hproper, fun n hn => eq_eof hmoves hlast hn, hmoves, ?_, ?_, isValid_start hmoves⟩
  · obtain ⟨htext, _⟩ := text_before_token hmoves count
    obtain ⟨hown, hrest⟩ := (hmoves count).ends hlast
    rw [htext, hown, hrest, List.append_nil, List.append_nil]
  · intro m n hmn hn
    induction n, hmn using Nat.le_induction with
    | base => exact start_lt_start_succ hmoves (hproper m (by omega))
    | succ n hmn ih => exact (ih (by omega)).trans (start_lt_start_succ hmoves (hproper n (by omega)))

/-- An interpreter line, a name, a comment, and one that is not closed. -/
example : (scan "#!a\nb//c\n/*d").map Token.start = [4, 12] := by decide +kernel

end ScriptModules.Script
