import ScriptModules.Proofs.Scanning.Lookahead
import ScriptModules.Proofs.Scanning.Returns

/-!
# Blanks between tokens

What the scanner skips before a token it skips before anything else (`exists_skipped`), and a token goes on in no blank
that is put behind it.  So blanks may be put where any token starts, and before the end of the text: the tokens are of
the same kinds (`exists_split_of_mem_tokensFrom`).
-/

namespace ScriptModules.Script

/-- The text consists of blanks. -/
def AllBlank (cs : List Char) : Prop := ∀ c ∈ cs, isBlank c = true

private theorem endsToken_append {blanks : List Char} (h : AllBlank blanks) (hne : blanks ≠ []) (rest : List Char) :
    EndsToken (blanks ++ rest) := by
  obtain ⟨c, blanks, rfl⟩ := List.exists_cons_of_ne_nil hne
  exact endsToken_cons.2 (h c List.mem_cons_self)

/-! ## What is skipped -/

private theorem skipBlanks_append {blanks : List Char} (h : AllBlank blanks) (offset : Nat) (rest : List Char) :
    skipBlanks .space offset (blanks ++ rest) = skipBlanks .space (offset + byteCount blanks) rest := by
  induction blanks generalizing offset with
  | nil => rfl
  | cons c blanks ih =>
    obtain ⟨hc, hblanks⟩ := List.forall_mem_cons.1 h
    rw [List.cons_append, skipBlanks_blank hc, ih hblanks, byteCount_cons, Nat.add_assoc]

/-- Blanks at the end of a text are skipped, also those in a comment that is not closed. -/
theorem rest_skipBlanks_of_allBlank {blanks : List Char} (h : AllBlank blanks) (mode : BlankMode) (offset : Nat) :
    (skipBlanks mode offset blanks).rest = [] := by
  induction blanks generalizing mode offset with
  | nil => simp [skipBlanks]
  | cons c blanks ih =>
    obtain ⟨hc, hblanks⟩ := List.forall_mem_cons.1 h
    cases mode with
    | space =>
      rw [skipBlanks_blank hc]
      exact ih hblanks ..
    | _ =>
      rw [skipBlanks]
      exact ih hblanks ..

/-- The scanner skips all before `place`.  What it skips before a token it skips before any other text too, and what it
skips at the end of a text it skips with blanks behind it. -/
def SkipsTo (mode : BlankMode) (offset : Nat) (cs : List Char) (place : Cursor) : Prop :=
  ∃ skipped, cs = skipped ++ place.rest ∧ place.offset = offset + byteCount skipped ∧
    ∀ offset', (offset = 0 ↔ offset' = 0) →
      (place.rest ≠ [] → ∀ rest, skipBlanks mode offset' (skipped ++ rest) =
        skipBlanks .space (offset' + byteCount skipped) rest) ∧
      (place.rest = [] → ∀ blanks, AllBlank blanks → (skipBlanks mode offset' (skipped ++ blanks)).rest = [])

namespace SkipsTo

variable {mode mode' : BlankMode} {offset : Nat} {cs : List Char} {place : Cursor}

private theorem append (first : List Char) (hpos : 0 < byteCount first)
    (hfirst : ∀ offset', (offset = 0 ↔ offset' = 0) → ∀ rest,
      skipBlanks mode offset' (first ++ rest) = skipBlanks mode' (offset' + byteCount first) rest)
    (h : SkipsTo mode' (offset + byteCount first) cs place) : SkipsTo mode offset (first ++ cs) place := by
  obtain ⟨skipped, rfl, hstart, hskips⟩ := h
  refine ⟨first ++ skipped, (List.append_assoc ..).symm, by rw [hstart, byteCount_append, Nat.add_assoc], ?_⟩
  intro offset' ho
  obtain ⟨hplace, hend⟩ := hskips (offset' + byteCount first) (by omega)
  refine ⟨fun hne rest => ?_, fun he blanks hblanks => ?_⟩
  · rw [List.append_assoc, hfirst _ ho, hplace hne, byteCount_append, Nat.add_assoc]
  · rw [List.append_assoc, hfirst _ ho, hend he blanks hblanks]

private theorem cons {c : Char} (h : SkipsTo mode' (offset + c.utf8Size) cs place)
    (hfirst : ∀ offset' rest, skipBlanks mode offset' (c :: rest) = skipBlanks mode' (offset' + c.utf8Size) rest) :
    SkipsTo mode offset (c :: cs) place := by
  have hc : byteCount [c] = c.utf8Size := by simp [byteCount]
  refine append [c] (hc ▸ c.utf8Size_pos) (fun offset' _ rest => ?_) (hc ▸ h)
  rw [hc]
  exact hfirst offset' rest

private theorem refl (offset : Nat) (c : Char) (cs : List Char) : SkipsTo .space offset (c :: cs) ⟨offset, c :: cs⟩ :=
  ⟨[], rfl, rfl, fun _ _ => ⟨fun _ _ => rfl, fun h => absurd h (List.cons_ne_nil _ _)⟩⟩

end SkipsTo

private theorem skipsTo_skipBlanks (mode : BlankMode) (offset : Nat) (cs : List Char) :
    SkipsTo mode offset cs (skipBlanks mode offset cs) := by
  fun_induction skipBlanks mode offset cs with
  | case1 mode offset =>
    refine ⟨[], rfl, rfl, fun offset' _ => ⟨fun hne => absurd rfl hne, fun _ blanks hblanks => ?_⟩⟩
    exact rest_skipBlanks_of_allBlank hblanks mode offset'
  | case2 offset c cs hblank ih => exact ih.cons fun _ _ => skipBlanks_blank hblank
  | case3 offset rest hblank ih => exact ih.append ['/', '/'] (by decide) fun _ _ _ => rfl
  | case4 offset rest hblank ih => exact ih.append ['/', '*'] (by decide) fun _ _ _ => rfl
  | case5 offset cs hline hblock hblank => exact .refl ..
  | case6 offset c hblank hslash hfirst rest ih =>
    obtain ⟨rfl, rfl⟩ := hfirst
    refine ih.append ['#', '!'] (by decide) fun offset' ho rest => ?_
    obtain rfl := ho.1 rfl
    rfl
  | case7 offset c cs hblank hslash hfirst hnext => exact .refl ..
  | case8 offset c cs hblank hslash hfirst => exact .refl ..
  | case9 offset c cs ih => exact ih.cons fun _ _ => by rw [skipBlanks]
  | case10 afterStar offset c cs ih => exact ih.cons fun _ _ => by rw [skipBlanks]
  | case11 offset c cs ih => exact ih.cons fun _ _ => by rw [skipBlanks]

/-- Where the scanner stops is known from one character and the one behind it. -/
theorem skipBlanks_stop_of_stop {offset : Nat} (offset' : Nat) {c : Char} {cs cs' : List Char}
    (h : skipBlanks .space offset (c :: cs) = ⟨offset, c :: cs⟩) (ho : offset' = 0 → offset = 0)
    (hcs : cs'.head? = cs.head? ∨ EndsToken cs') : skipBlanks .space offset' (c :: cs') = ⟨offset', c :: cs'⟩ := by
  have hnext {d : Char} (hd : isBlank d = false) (hne : cs.head? ≠ some d) : cs'.head? ≠ some d := by
    intro hhead
    obtain heq | hends := hcs
    · exact hne (heq ▸ hhead)
    · rw [hends d hhead] at hd
      contradiction
  have hlength {mode : BlankMode} {offset' : Nat} {rest : List Char} (hle : rest.length ≤ cs.length) :
      skipBlanks mode offset' rest ≠ ⟨offset, c :: cs⟩ := by
    intro heq
    have hshort := length_skipBlanks_le mode offset' rest
    rw [heq, List.length_cons] at hshort
    omega
  refine skipBlanks_stop (fun hblank => ?_) (fun hc => ⟨hnext rfl fun hhead => ?_, hnext rfl fun hhead => ?_⟩)
    fun hc hzero => hnext rfl fun hhead => ?_
  · rw [skipBlanks_blank hblank] at h
    exact hlength (Nat.le_refl _) h
  · obtain ⟨rest, rfl⟩ := List.head?_eq_some_iff.1 hhead
    subst hc
    exact hlength (Nat.le_succ _) h
  · obtain ⟨rest, rfl⟩ := List.head?_eq_some_iff.1 hhead
    subst hc
    exact hlength (Nat.le_succ _) h
  · obtain ⟨rest, rfl⟩ := List.head?_eq_some_iff.1 hhead
    obtain rfl := ho hzero
    subst hc
    exact hlength (Nat.le_succ _) h

/-! ## Tokens -/

section

variable {offset start : Nat} {c : Char} {cs rest : List Char}

/-- Behind what is skipped at the end of a text, blanks are no token. -/
private theorem end_of_skipped (h : skipBlanks .space offset cs = ⟨start, []⟩) :
    start = offset + byteCount cs ∧ ∀ offset' blanks, (offset = 0 ↔ offset' = 0) → AllBlank blanks →
      (tokensFrom ⟨offset', cs ++ blanks⟩).map (·.kind) = [.eof] := by
  obtain ⟨skipped, hcs, hstart, hskips⟩ := skipsTo_skipBlanks .space offset cs
  rw [h] at hcs hstart hskips
  obtain rfl : cs = skipped := by rw [hcs, List.append_nil]
  refine ⟨hstart, fun offset' blanks ho hblanks => ?_⟩
  have hrest := (hskips offset' ho).2 rfl blanks hblanks
  rcases hplace : skipBlanks .space offset' (cs ++ blanks) with ⟨place, behind⟩
  rw [hplace] at hrest
  obtain rfl : behind = [] := hrest
  have htokens : tokensFrom ⟨offset', cs ++ blanks⟩ = [⟨.eof, place⟩] := tokensFrom_end hplace
  rw [htokens]
  rfl

/-- Behind what is skipped before a token, the scanner finds what stands there, also behind more blanks. -/
private theorem token_of_skipped (h : skipBlanks .space offset cs = ⟨start, c :: rest⟩) :
    ∃ skipped, cs = skipped ++ c :: rest ∧ start = offset + byteCount skipped ∧
      ∀ offset' blanks rest', (offset = 0 ↔ offset' = 0) → AllBlank blanks →
        (rest'.head? = rest.head? ∨ EndsToken rest') →
        ∃ start', tokensFrom ⟨offset', skipped ++ (blanks ++ c :: rest')⟩ = ⟨(lexeme c rest').1, start'⟩ ::
          tokensFrom ⟨start' + byteCount (c :: rest'.take (lexeme c rest').2), rest'.drop (lexeme c rest').2⟩ := by
  obtain ⟨skipped, hcs, hstart, hskips⟩ := skipsTo_skipBlanks .space offset cs
  rw [h] at hcs hstart hskips
  dsimp only at hcs hstart hskips
  refine ⟨skipped, hcs, hstart, fun offset' blanks rest' ho hblanks hrest' => ?_⟩
  have hstop : skipBlanks .space start (c :: rest) = ⟨start, c :: rest⟩ := by
    rw [hstart, ← (hskips offset Iff.rfl).1 (List.cons_ne_nil _ _), ← hcs, h, hstart]
  have hstop' :=
    skipBlanks_stop_of_stop (offset' + byteCount skipped + byteCount blanks) hstop (by omega) hrest'
  have hplace : skipBlanks .space offset' (skipped ++ (blanks ++ c :: rest')) =
      ⟨offset' + byteCount skipped + byteCount blanks, c :: rest'⟩ := by
    rw [(hskips offset' ho).1 (List.cons_ne_nil _ _), skipBlanks_append hblanks, hstop']
  have htokens : tokensFrom ⟨offset', skipped ++ (blanks ++ c :: rest')⟩ = _ := tokensFrom_token hplace
  exact ⟨_, htokens⟩

/-- The tokens are the same wherever the text stands, but for its very start. -/
theorem map_kind_tokensFrom_of_offset {offset offset' : Nat} (cs : List Char) (ho : offset = 0 ↔ offset' = 0) :
    (tokensFrom ⟨offset', cs⟩).map (·.kind) = (tokensFrom ⟨offset, cs⟩).map (·.kind) := by
  induction hlen : cs.length using Nat.strongRecOn generalizing offset offset' cs with
  | ind n ih =>
    rcases hplace : skipBlanks .space offset cs with ⟨start, _ | ⟨c, rest⟩⟩
    · have hend := (end_of_skipped hplace).2
      have hnil : AllBlank [] := by simp [AllBlank]
      rw [← List.append_nil cs, hend offset' [] ho hnil, hend offset [] Iff.rfl hnil]
    · obtain ⟨skipped, rfl, _, htokens⟩ := token_of_skipped hplace
      have hnil : AllBlank [] := by simp [AllBlank]
      obtain ⟨start, heq⟩ := htokens offset [] rest Iff.rfl hnil (.inl rfl)
      obtain ⟨start', heq'⟩ := htokens offset' [] rest ho hnil (.inl rfl)
      rw [List.nil_append] at heq heq'
      rw [heq, heq', List.map_cons, List.map_cons]
      refine congrArg (List.cons _) (ih _ ?_ _ ?_ rfl)
      · rw [← hlen, List.length_append, List.length_cons, List.length_drop]
        omega
      · have hpos := byteCount_pos (List.cons_ne_nil c (rest.take (lexeme c rest).2))
        omega

private theorem exists_own (hk : (lexeme c rest).1.isProper = true) :
    ∃ kind own behind, rest = own ++ behind ∧ lexeme c rest = (kind, own.length) := by
  rcases hlex : lexeme c rest with ⟨kind, n⟩
  rw [hlex] at hk
  have hlength : (rest.take n).length = n := List.length_take_of_le (lexeme_take hlex hk endsToken_nil).1
  exact ⟨kind, rest.take n, rest.drop n, (List.take_append_drop ..).symm, by rw [hlength]⟩

/-- Blanks that are put somewhere behind a token leave it as it is. -/
private theorem lexeme_insert {kind : Kind} {own before after blanks : List Char}
    (h : lexeme c (own ++ (before ++ after)) = (kind, own.length)) (hk : kind.isProper = true)
    (hblanks : AllBlank blanks) :
    lexeme c (own ++ (before ++ (blanks ++ after))) = (kind, own.length) ∧
      ((own ++ (before ++ (blanks ++ after))).head? = (own ++ (before ++ after)).head? ∨
        EndsToken (own ++ (before ++ (blanks ++ after)))) := by
  have hown {rest rest' : List Char} (hhead : rest'.head? = rest.head?) :
      (own ++ rest').head? = (own ++ rest).head? := by
    rw [List.head?_append, List.head?_append, hhead]
  rcases blanks with _ | ⟨b, blanks⟩
  · exact ⟨h, .inl rfl⟩
  · cases before with
    | nil =>
      -- The blanks stand right behind the token, and end it.
      have hends : EndsToken (b :: blanks ++ after) := endsToken_append hblanks (List.cons_ne_nil _ _) after
      have hlex := (lexeme_take h hk hends).2
      rw [List.take_left] at hlex
      refine ⟨hlex, ?_⟩
      cases own with
      | nil => exact .inr hends
      | cons d own => exact .inl rfl
    | cons d before =>
      exact ⟨lexeme_eq_of_ahead h hk (.append own rfl), .inl (hown rfl)⟩

/-- Blanks that are put where a token starts change the kind of no token, neither of those before nor of those
behind. -/
theorem exists_split_of_mem_tokensFrom (offset : Nat) (cs : List Char) (hs : AllSound (tokensFrom ⟨offset, cs⟩))
    {token : Token} (hm : token ∈ tokensFrom ⟨offset, cs⟩) :
    ∃ before after, cs = before ++ after ∧ token.start = offset + byteCount before ∧
      ∀ offset' blanks, (offset = 0 ↔ offset' = 0) → AllBlank blanks →
        (tokensFrom ⟨offset', before ++ (blanks ++ after)⟩).map (·.kind) =
          (tokensFrom ⟨offset, cs⟩).map (·.kind) := by
  induction hlen : cs.length using Nat.strongRecOn generalizing offset cs with
  | ind n ih =>
    rcases hplace : skipBlanks .space offset cs with ⟨start, _ | ⟨c, rest⟩⟩
    · have htokens : tokensFrom ⟨offset, cs⟩ = [⟨.eof, start⟩] := tokensFrom_end hplace
      obtain ⟨hstart, hend⟩ := end_of_skipped hplace
      rw [htokens] at hm ⊢
      obtain rfl := List.mem_singleton.1 hm
      refine ⟨cs, [], (List.append_nil _).symm, hstart, fun offset' blanks ho hblanks => ?_⟩
      rw [List.append_nil, hend offset' blanks ho hblanks]
      rfl
    · have hfirst : tokensFrom ⟨offset, cs⟩ = _ := tokensFrom_token hplace
      obtain ⟨skipped, rfl, hstart, htokens⟩ := token_of_skipped hplace
      rw [hfirst] at hs hm ⊢
      obtain ⟨hproper, hsound⟩ := (allSound_cons (lexeme_ne_eof _ _)).1 hs
      obtain ⟨kind, own, behind, rfl, hlex⟩ := exists_own hproper
      rw [hlex] at hproper hsound hm ⊢
      simp only [List.take_left, List.drop_left] at hsound hm ⊢
      have hbehind (start' : Nat) : start + byteCount (c :: own) = 0 ↔ start' + byteCount (c :: own) = 0 := by
        have hpos := byteCount_pos (List.cons_ne_nil c own)
        omega
      obtain rfl | hm := List.mem_cons.1 hm
      · refine ⟨skipped, c :: (own ++ behind), rfl, hstart, fun offset' blanks ho hblanks => ?_⟩
        obtain ⟨start', heq⟩ := htokens offset' blanks (own ++ behind) ho hblanks (.inl rfl)
        rw [heq, hlex, List.take_left, List.drop_left, List.map_cons, List.map_cons,
          map_kind_tokensFrom_of_offset _ (hbehind start')]
      · have hlt : behind.length < n := by
          rw [← hlen, List.length_append, List.length_cons, List.length_append]
          omega
        obtain ⟨before, after, rfl, hbefore, hkinds⟩ := ih _ hlt _ _ hsound hm rfl
        refine ⟨skipped ++ c :: (own ++ before), after, by simp, ?_, fun offset' blanks ho hblanks => ?_⟩
        · rw [hbefore, hstart, byteCount_append, ← List.cons_append, byteCount_append]
          omega
        · obtain ⟨hlex', hhead⟩ := lexeme_insert hlex hproper hblanks
          have hnil : AllBlank [] := by simp [AllBlank]
          obtain ⟨start', heq⟩ := htokens offset' [] _ ho hnil hhead
          have htext : skipped ++ c :: (own ++ before) ++ (blanks ++ after) =
              skipped ++ ([] ++ c :: (own ++ (before ++ (blanks ++ after)))) := by simp
          rw [htext, heq, hlex', List.take_left, List.drop_left, List.map_cons, List.map_cons,
            hkinds _ blanks (hbehind start') hblanks]

end

end ScriptModules.Script
