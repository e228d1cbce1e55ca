import ScriptModules.Proofs.Scanning.Strings

/-!
# How tokens are spelled

A text spells a token when the scanner takes all of it for this token (`Spells`).  The first character of a token says
how it is read (`Reading`, `exists_reading`), and then it is read off its own characters: what is read before a blank or
the end of a text is the same wherever it stands (`lexeme_take`), so each token of a text is spelled by a part of the
text (`exists_spells_of_lexeme`), and a spelling is read again wherever a blank follows it (`Spells.lexeme_append`).
-/

namespace ScriptModules.Script

/-- Is the kind that of a token which a program may hold? -/
def Kind.isProper : Kind → Bool
  | invalid _ | eof => false
  | _ => true

/-- The text as a whole is a token of this kind. -/
def Spells (text : List Char) (kind : Kind) : Prop :=
  ∃ c cs, text = c :: cs ∧ lexeme c cs = (kind, cs.length)

/-- No token that stands before this text goes on in it: it begins with a blank, if it is not empty. -/
def EndsToken (rest : List Char) : Prop := ∀ c ∈ rest.head?, isBlank c = true

theorem endsToken_nil : EndsToken [] := by simp [EndsToken]

theorem endsToken_cons {c : Char} {rest : List Char} : EndsToken (c :: rest) ↔ isBlank c = true := by
  simp [EndsToken]

/-! ## Blanks -/

private def blankRanges : List (Nat × Nat) := (0xfeff, 0xfeff) :: Text.whiteSpaceRanges

private theorem inRanges_of_isBlank {c : Char} (h : isBlank c = true) : Text.inRanges blankRanges c = true := by
  obtain h | h := Bool.or_eq_true_iff.1 h
  · exact Bool.or_eq_true_iff.2 (.inr h)
  · refine Bool.or_eq_true_iff.2 (.inl ?_)
    rw [beq_iff_eq.1 h]
    rfl

/-- Ranges that do not overlap have no character in common. -/
private theorem not_inRanges {ranges others : List (Nat × Nat)} {c : Char}
    (h : ranges.all (fun r => others.all fun s => Nat.blt r.2 s.1 || Nat.blt s.2 r.1) = true)
    (hc : Text.inRanges ranges c = true) : Text.inRanges others c = false := by
  obtain ⟨r, hr, hin⟩ := List.any_eq_true.1 hc
  refine List.any_eq_false.2 fun s hs hin' => ?_
  have hapart := List.all_eq_true.1 (List.all_eq_true.1 h r hr) s hs
  simp only [Bool.or_eq_true, Bool.and_eq_true, decide_eq_true_eq, Nat.blt_eq] at hin hin' hapart
  omega

/-- Of the ASCII characters that tokens are made of, none is a blank. -/
private theorem features_of_isBlank {c : Char} (h : isBlank c = true) :
    c.isAlpha = false ∧ c.isDigit = false ∧ hexDigit? c = none ∧ singleMark? c = none ∧
      c ∉ ['.', '_', '$', 'e', 'E', 'x', 'X', '+', '-', '=', '!', '<', '>', '&', '|', '"', '\''] := by
  have hall : ∀ n ∈ blankRanges.flatMap fun range => List.range' range.1 (range.2 + 1 - range.1),
      (Char.ofNat n).isAlpha = false ∧ (Char.ofNat n).isDigit = false ∧ hexDigit? (Char.ofNat n) = none ∧
        singleMark? (Char.ofNat n) = none ∧ Char.ofNat n ∉ ['.', '_', '$', 'e', 'E', 'x', 'X', '+', '-', '=', '!',
          '<', '>', '&', '|', '"', '\''] := by decide +kernel
  obtain ⟨range, hm, hin⟩ := List.any_eq_true.1 (inRanges_of_isBlank h)
  simp only [Bool.and_eq_true, decide_eq_true_eq] at hin
  have hfeatures := hall c.toNat (List.mem_flatMap.2 ⟨range, hm, List.mem_range'_1.2 (by omega)⟩)
  rwa [Char.ofNat_toNat] at hfeatures

private theorem not_isNamePart_of_isBlank {c : Char} (h : isBlank c = true) : isNamePart c = false := by
  have hapart : blankRanges.all (fun r => (Text.alphabeticRanges ++ Text.numericRanges).all fun s =>
      Nat.blt r.2 s.1 || Nat.blt s.2 r.1) = true := by decide +kernel
  have hranges := not_inRanges hapart (inRanges_of_isBlank h)
  rw [Text.inRanges, List.any_append] at hranges
  obtain ⟨halphabetic, hnumeric⟩ := Bool.or_eq_false_iff.1 hranges
  obtain ⟨halpha, hdigit, _, _, hmarks⟩ := features_of_isBlank h
  simp only [List.mem_cons, List.not_mem_nil, or_false, not_or] at hmarks
  simp [isNamePart, isNameStart, Text.isAlphabetic, Text.isNumeric, Text.inRanges, halphabetic, hnumeric, halpha,
    hdigit, hmarks]

/-- A blank goes on with no number. -/
private theorem not_inNumber_of_isBlank {c : Char} (h : isBlank c = true) :
    (c.isDigit || c == '.') = false ∧ c ≠ '_' ∧ ¬(c = 'e' ∨ c = 'E') := by
  obtain ⟨_, hdigit, _, _, hmarks⟩ := features_of_isBlank h
  simp only [List.mem_cons, List.not_mem_nil, or_false, not_or] at hmarks
  simp [hdigit, hmarks]

private theorem EndsToken.not_sign {rest : List Char} (h : EndsToken rest) :
    ∀ c ∈ rest.head?, ¬(c = '+' ∨ c = '-') := by
  intro c hc hsign
  obtain ⟨_, _, _, _, hmarks⟩ := features_of_isBlank (h c hc)
  rcases hsign with rfl | rfl <;> simp at hmarks

private theorem EndsToken.not_hexDigit {rest : List Char} (h : EndsToken rest) :
    ∀ c ∈ rest.head?, (hexDigit? c).isSome = false := by
  intro c hc
  obtain ⟨_, _, hhex, _⟩ := features_of_isBlank (h c hc)
  rw [hhex]
  rfl

private theorem EndsToken.not_x {rest : List Char} (h : EndsToken rest) :
    ∀ c ∈ rest.head?, ¬(c = 'x' ∨ c = 'X') := by
  intro c hc hx
  obtain ⟨_, _, _, _, hmarks⟩ := features_of_isBlank (h c hc)
  rcases hx with rfl | rfl <;> simp at hmarks

private theorem EndsToken.not_equals {rest : List Char} (h : EndsToken rest) :
    ∀ c ∈ rest.head?, c ≠ '=' := by
  rintro _ hc rfl
  obtain ⟨_, _, _, _, hmarks⟩ := features_of_isBlank (h '=' hc)
  simp at hmarks

/-! ## Numbers -/

section

variable {c s : Char} {cs : List Char}

private theorem numberBody_cons (c : Char) (cs : List Char) :
    numberBody (c :: cs) = if c.isDigit || c == '.' then (c :: (numberBody cs).1, (numberBody cs).2 + 1)
      else if c = '_' then ((numberBody cs).1, (numberBody cs).2 + 1)
      else if c = 'e' ∨ c = 'E' then
        match cs with
        | s :: rest =>
          if s = '+' ∨ s = '-' then (c :: s :: (numberBody rest).1, (numberBody rest).2 + 2)
          else (c :: (numberBody (s :: rest)).1, (numberBody (s :: rest)).2 + 1)
        | [] => ([c], 1)
      else ([], 0) :=
  numberBody.eq_def (c :: cs)

theorem numberBody_digit (h : (c.isDigit || c == '.') = true) :
    numberBody (c :: cs) = (c :: (numberBody cs).1, (numberBody cs).2 + 1) := by
  rw [numberBody_cons]
  simp only [h, if_true]

theorem numberBody_underscore :
    numberBody ('_' :: cs) = ((numberBody cs).1, (numberBody cs).2 + 1) := by
  rw [numberBody_cons]
  rfl

theorem numberBody_signed (h : c = 'e' ∨ c = 'E') (hs : s = '+' ∨ s = '-') :
    numberBody (c :: s :: cs) = (c :: s :: (numberBody cs).1, (numberBody cs).2 + 2) := by
  rw [numberBody_cons]
  rcases h with rfl | rfl <;> simp only [if_pos hs] <;> rfl

theorem numberBody_exponent (h : c = 'e' ∨ c = 'E') (hs : ∀ s ∈ cs.head?, ¬(s = '+' ∨ s = '-')) :
    numberBody (c :: cs) = (c :: (numberBody cs).1, (numberBody cs).2 + 1) := by
  rw [numberBody_cons]
  cases cs with
  | nil => rcases h with rfl | rfl <;> rfl
  | cons s cs => rcases h with rfl | rfl <;> simp only [if_neg (hs s rfl)] <;> rfl

theorem numberBody_stop (hd : (c.isDigit || c == '.') = false) (hu : c ≠ '_') (he : ¬(c = 'e' ∨ c = 'E')) :
    numberBody (c :: cs) = ([], 0) := by
  rw [numberBody_cons]
  simp only [hd, hu, he, if_false, Bool.false_eq_true]

end

private theorem numberBody_of_endsToken {rest : List Char} (h : EndsToken rest) : numberBody rest = ([], 0) := by
  cases rest with
  | nil => rfl
  | cons c rest =>
    obtain ⟨hd, hu, he⟩ := not_inNumber_of_isBlank (endsToken_cons.1 h)
    exact numberBody_stop hd hu he

private theorem numberBody_take (cs : List Char) {text : List Char} {n : Nat} (h : numberBody cs = (text, n))
    {rest : List Char} (hr : EndsToken rest) :
    n ≤ cs.length ∧ numberBody (cs.take n ++ rest) = (text, n) := by
  fun_induction numberBody cs generalizing text n with
  | case1 =>
    obtain ⟨rfl, rfl⟩ := Prod.mk.inj h
    exact ⟨Nat.le_refl _, numberBody_of_endsToken hr⟩
  | case2 c cs hc text' n' heq ih =>
    obtain ⟨rfl, rfl⟩ := Prod.mk.inj h
    obtain ⟨hle, hb⟩ := ih heq
    refine ⟨Nat.succ_le_succ hle, ?_⟩
    rw [List.take_succ_cons, List.cons_append, numberBody_digit hc, hb]
  | case3 cs text' n' heq hd ih =>
    obtain ⟨rfl, rfl⟩ := Prod.mk.inj h
    obtain ⟨hle, hb⟩ := ih heq
    refine ⟨Nat.succ_le_succ hle, ?_⟩
    rw [List.take_succ_cons, List.cons_append, numberBody_underscore, hb]
  | case4 c hc hu he s cs hs text' n' heq ih =>
    obtain ⟨rfl, rfl⟩ := Prod.mk.inj h
    obtain ⟨hle, hb⟩ := ih heq
    refine ⟨Nat.add_le_add_right hle 2, ?_⟩
    rw [List.take_succ_cons, List.take_succ_cons, List.cons_append, List.cons_append, numberBody_signed he hs, hb]
  | case5 c hc hu he s cs hs text' n' heq ih =>
    obtain ⟨rfl, rfl⟩ := Prod.mk.inj h
    obtain ⟨hle, hb⟩ := ih heq
    refine ⟨Nat.succ_le_succ hle, ?_⟩
    rw [List.take_succ_cons, List.cons_append, numberBody_exponent he, hb]
    -- What stands behind the exponent is no sign, be it of the number or of the rest.
    cases n' with
    | zero => exact hr.not_sign
    | succ n' =>
      intro s' hs'
      obtain rfl := Option.some.inj hs'
      exact hs
  | case6 c hc hu he =>
    obtain ⟨rfl, rfl⟩ := Prod.mk.inj h
    refine ⟨Nat.le_refl _, ?_⟩
    rw [List.take_succ_cons, List.cons_append, List.take_nil, List.nil_append,
      numberBody_exponent he hr.not_sign, numberBody_of_endsToken hr]
  | case7 c cs hc hu he =>
    obtain ⟨rfl, rfl⟩ := Prod.mk.inj h
    exact ⟨Nat.zero_le _, numberBody_of_endsToken hr⟩

private theorem takeWhile_take {p : Char → Bool} (cs : List Char) {rest : List Char}
    (hr : ∀ c ∈ rest.head?, p c = false) :
    (cs.take (cs.takeWhile p).length ++ rest).takeWhile p = cs.takeWhile p := by
  rw [← List.prefix_iff_eq_take.1 (List.takeWhile_prefix p),
    List.takeWhile_append_of_pos (List.all_eq_true.1 List.all_takeWhile)]
  cases rest with
  | nil => exact List.append_nil _
  | cons c rest => rw [List.takeWhile_cons_of_neg (by simp [hr c rfl]), List.append_nil]

/-- The literal with these digits, if they make a number. -/
private def decimalLiteral (text : List Char) : Kind :=
  match Decimal.read? text with
  | some x => .number x
  | none => .invalid (.badNumber (String.ofList text))

private theorem numberLexeme_hex {x : Char} (hx : x = 'x' ∨ x = 'X') (cs : List Char) :
    numberLexeme '0' (x :: cs) =
      (hexLiteral (cs.takeWhile fun c => (hexDigit? c).isSome),
        (cs.takeWhile fun c => (hexDigit? c).isSome).length + 1) := by
  rw [numberLexeme]
  simp only [true_and, if_pos hx]

private theorem numberLexeme_decimal {first : Char} {cs : List Char}
    (h : ∀ x ∈ cs.head?, ¬(first = '0' ∧ (x = 'x' ∨ x = 'X'))) :
    numberLexeme first cs = (decimalLiteral (first :: (numberBody cs).1), (numberBody cs).2) := by
  unfold numberLexeme decimalLiteral
  cases cs with
  | nil =>
    simp only
    cases Decimal.read? (first :: (numberBody []).1) <;> rfl
  | cons x cs =>
    simp only [if_neg (h x rfl)]
    cases Decimal.read? (first :: (numberBody (x :: cs)).1) <;> rfl

private theorem numberLexeme_take {first : Char} {cs : List Char} {kind : Kind} {n : Nat}
    (h : numberLexeme first cs = (kind, n)) {rest : List Char} (hr : EndsToken rest) :
    n ≤ cs.length ∧ numberLexeme first (cs.take n ++ rest) = (kind, n) := by
  by_cases hx : ∃ x ∈ cs.head?, first = '0' ∧ (x = 'x' ∨ x = 'X')
  · obtain ⟨x, hhead, rfl, hx⟩ := hx
    obtain ⟨tail, rfl⟩ : ∃ tail, cs = x :: tail := List.head?_eq_some_iff.1 hhead
    rw [numberLexeme_hex hx] at h
    obtain ⟨rfl, rfl⟩ := Prod.mk.inj h
    refine ⟨Nat.succ_le_succ (List.takeWhile_prefix _).length_le, ?_⟩
    rw [List.take_succ_cons, List.cons_append, numberLexeme_hex hx, takeWhile_take tail hr.not_hexDigit]
  · have hfirst : ∀ x ∈ cs.head?, ¬(first = '0' ∧ (x = 'x' ∨ x = 'X')) := fun x hm hf => hx ⟨x, hm, hf⟩
    rw [numberLexeme_decimal hfirst] at h
    obtain ⟨rfl, rfl⟩ := Prod.mk.inj h
    obtain ⟨hle, hb⟩ := numberBody_take cs rfl hr
    refine ⟨hle, ?_⟩
    rw [numberLexeme_decimal, hb]
    -- The second character is the one of the number, or the one that the rest begins with.
    cases cs with
    | nil => exact fun x hm hf => hr.not_x x hm hf.2
    | cons x cs =>
      cases hn : (numberBody (x :: cs)).2 with
      | zero => exact fun x hm hf => hr.not_x x hm hf.2
      | succ n => exact hfirst

private theorem numberLexeme_fraction {d : Char} {cs : List Char} {kind : Kind} {n : Nat} (hd : d.isDigit = true)
    (h : numberLexeme '.' (d :: cs) = (kind, n)) : ∃ m, n = m + 1 := by
  rw [numberLexeme_decimal fun x _ hx => absurd hx.1 (by decide), numberBody_digit (by simp [hd])] at h
  exact ⟨_, (Prod.mk.inj h).2.symm⟩

/-! ## Words and marks -/

private theorem wordLexeme_take {first : Char} {cs : List Char} {kind : Kind} {n : Nat}
    (h : wordLexeme first cs = (kind, n)) {rest : List Char} (hr : EndsToken rest) :
    n ≤ cs.length ∧ wordLexeme first (cs.take n ++ rest) = (kind, n) := by
  obtain ⟨rfl, rfl⟩ := Prod.mk.inj h
  refine ⟨(List.takeWhile_prefix _).length_le, ?_⟩
  rw [wordLexeme, takeWhile_take cs fun c hc => not_isNamePart_of_isBlank (hr c hc)]

private theorem equalsLexeme_zero {one two : Mark} {three : Option Mark} {cs : List Char}
    (h : ∀ c ∈ cs.head?, c ≠ '=') : equalsLexeme one two three cs = (.mark one, 0) := by
  unfold equalsLexeme
  split
  · exact absurd rfl (h '=' rfl)
  · exact absurd rfl (h '=' rfl)
  · rfl

private theorem equalsLexeme_one {one two : Mark} {three : Option Mark} {cs : List Char}
    (h : ∀ c ∈ cs.head?, c ≠ '=') : equalsLexeme one two three ('=' :: cs) = (.mark two, 1) := by
  cases cs with
  | nil => rfl
  | cons c cs =>
    have hc : c ≠ '=' := h c rfl
    cases three <;> simp [equalsLexeme, hc]

private theorem equalsLexeme_take {one two : Mark} {three : Option Mark} {cs : List Char} {kind : Kind} {n : Nat}
    (h : equalsLexeme one two three cs = (kind, n)) {rest : List Char} (hr : EndsToken rest) :
    n ≤ cs.length ∧ equalsLexeme one two three (cs.take n ++ rest) = (kind, n) := by
  have hend : ∀ c ∈ rest.head?, c ≠ '=' := hr.not_equals
  unfold equalsLexeme at h
  split at h <;> obtain ⟨rfl, rfl⟩ := Prod.mk.inj h
  · exact ⟨Nat.le_add_left _ _, rfl⟩
  · exact ⟨Nat.le_add_left _ _, equalsLexeme_one hend⟩
  · exact ⟨Nat.zero_le _, equalsLexeme_zero hend⟩

private theorem doubledLexeme_take {c : Char} {mark : Mark} {cs : List Char} {kind : Kind} {n : Nat}
    (h : doubledLexeme c mark cs = (kind, n)) (hk : kind.isProper = true) (rest : List Char) :
    n ≤ cs.length ∧ doubledLexeme c mark (cs.take n ++ rest) = (kind, n) := by
  unfold doubledLexeme at h ⊢
  split at h
  · next hc =>
    obtain ⟨cs, rfl⟩ := List.head?_eq_some_iff.1 hc
    obtain ⟨rfl, rfl⟩ := Prod.mk.inj h
    exact ⟨Nat.succ_le_succ (Nat.zero_le _), if_pos rfl⟩
  · obtain ⟨rfl, rfl⟩ := Prod.mk.inj h
    contradiction

/-! ## How a token is read -/

/-- Is the next character a digit? -/
def digitAhead (cs : List Char) : Bool := (cs.head?.map Char.isDigit).getD false

private theorem lexeme_dot (cs : List Char) :
    lexeme '.' cs = if digitAhead cs then numberLexeme '.' cs else (.mark .dot, 0) := rfl

/-- The ways in which a token is read that begins with this character, string literals apart. -/
inductive Reading (c : Char) : (List Char → Kind × Nat) → Prop where
  | mark (mark : Mark) : Reading c fun _ => (.mark mark, 0)
  | equals (one two : Mark) (three : Option Mark) : Reading c (equalsLexeme one two three)
  | doubled (mark : Mark) : c = '&' ∨ c = '|' → Reading c (doubledLexeme c mark)
  | number : Reading c (numberLexeme c)
  | word : isNameStart c = true → Reading c (wordLexeme c)
  | stray : Reading c fun _ => (.invalid (.unexpectedCharacter c), 0)

/-- The first character says how the token is read; behind a dot the next one counts, too. -/
theorem exists_reading {c : Char} (hq : isQuote c = false) (cs : List Char) :
    ∃ read, Reading c read ∧ ∀ cs', (c = '.' → digitAhead cs' = digitAhead cs) → lexeme c cs' = read cs' := by
  have hquote : ¬(c = '"' ∨ c = '\'') := by simpa [isQuote] using hq
  cases hm : singleMark? c with
  | some mark => exact ⟨_, .mark mark, fun cs' _ => by simp only [lexeme, hm]⟩
  | none =>
    by_cases hdot : c = '.'
    · subst hdot
      cases hdigit : digitAhead cs with
      | true => exact ⟨_, .number, fun cs' h => by rw [lexeme_dot, if_pos (h rfl)]⟩
      | false => exact ⟨_, .mark .dot, fun cs' h => by rw [lexeme_dot, if_neg (by simp [h rfl])]⟩
    by_cases hequal : c = '='
    · subst hequal
      exact ⟨_, .equals .equal .equalEqual (some .strictEqual), fun _ _ => rfl⟩
    by_cases hbang : c = '!'
    · subst hbang
      exact ⟨_, .equals .bang .notEqual (some .strictNotEqual), fun _ _ => rfl⟩
    by_cases hless : c = '<'
    · subst hless
      exact ⟨_, .equals .lessThan .lessThanEqual none, fun _ _ => rfl⟩
    by_cases hgreater : c = '>'
    · subst hgreater
      exact ⟨_, .equals .greaterThan .greaterThanEqual none, fun _ _ => rfl⟩
    by_cases hand : c = '&'
    · subst hand
      exact ⟨_, .doubled .ampersandAmpersand (.inl rfl), fun _ _ => rfl⟩
    by_cases hor : c = '|'
    · subst hor
      exact ⟨_, .doubled .pipePipe (.inr rfl), fun _ _ => rfl⟩
    have hlexeme (cs' : List Char) : lexeme c cs' = if c.isDigit then numberLexeme c cs'
        else if isNameStart c then wordLexeme c cs' else (.invalid (.unexpectedCharacter c), 0) := by
      simp only [lexeme, hm, if_neg hdot, if_neg hequal, if_neg hbang, if_neg hless, if_neg hgreater, if_neg hand,
        if_neg hor, if_neg hquote]
    by_cases hdigit : c.isDigit = true
    · exact ⟨_, .number, fun cs' _ => by rw [hlexeme, if_pos hdigit]⟩
    by_cases hname : isNameStart c = true
    · exact ⟨_, .word hname, fun cs' _ => by rw [hlexeme, if_neg hdigit, if_pos hname]⟩
    · exact ⟨_, .stray, fun cs' _ => by rw [hlexeme, if_neg hdigit, if_neg hname]⟩

private theorem lexeme_of_isQuote {c : Char} (hq : isQuote c = true) (cs : List Char) :
    lexeme c cs = match stringBody c cs with
      | (.ok text, n) => (.string (String.ofList text), n)
      | (.error fault, n) => (.invalid fault, n) := by
  obtain rfl | rfl : c = '"' ∨ c = '\'' := by simpa [isQuote] using hq
  all_goals rfl

/-- A string literal is read off its own characters, whatever is behind them. -/
theorem StringTail.lexeme_append {quote : Char} {own text : List Char} (h : StringTail quote own text)
    (hq : isQuote quote = true) (after : List Char) :
    lexeme quote (own ++ after) = (.string (String.ofList text), own.length) := by
  rw [lexeme_of_isQuote hq, h.read] <;> (rintro rfl; contradiction)

/-- A token that has a quote in front is a string literal. -/
theorem exists_stringTail_of_lexeme {c : Char} {cs : List Char} {kind : Kind} {n : Nat} (hq : isQuote c = true)
    (h : lexeme c cs = (kind, n)) (hk : kind.isProper = true) :
    n ≤ cs.length ∧ ∃ text, kind = .string (String.ofList text) ∧ StringTail c (cs.take n) text := by
  rw [lexeme_of_isQuote hq] at h
  rcases hbody : stringBody c cs with ⟨fault | text, m⟩
  · rw [hbody] at h
    obtain ⟨rfl, _⟩ := Prod.mk.inj h
    contradiction
  · rw [hbody] at h
    obtain ⟨rfl, rfl⟩ := Prod.mk.inj h
    obtain ⟨hle, htail⟩ := stringTail_of_read hbody
    exact ⟨hle, text, rfl, htail⟩

/-! ## Tokens -/

private theorem EndsToken.not_digitAhead {rest : List Char} (h : EndsToken rest) : digitAhead rest = false := by
  cases rest with
  | nil => rfl
  | cons c rest => exact (Bool.or_eq_false_iff.1 (not_inNumber_of_isBlank (endsToken_cons.1 h)).1).1

private theorem digitAhead_take {cs : List Char} {kind : Kind} {n : Nat} (h : lexeme '.' cs = (kind, n))
    {rest : List Char} (hr : EndsToken rest) : digitAhead (cs.take n ++ rest) = digitAhead cs := by
  rw [lexeme_dot] at h
  split at h
  · next hdigit =>
    cases cs with
    | nil => contradiction
    | cons d cs =>
      obtain ⟨m, rfl⟩ := numberLexeme_fraction hdigit h
      rfl
  · next hdigit =>
    obtain ⟨_, rfl⟩ := Prod.mk.inj h
    rw [Bool.eq_false_iff.2 hdigit]
    exact hr.not_digitAhead

/-- A token is read off its own characters, whatever else ends it. -/
theorem lexeme_take {c : Char} {cs : List Char} {kind : Kind} {n : Nat} (h : lexeme c cs = (kind, n))
    (hk : kind.isProper = true) {rest : List Char} (hr : EndsToken rest) :
    n ≤ cs.length ∧ lexeme c (cs.take n ++ rest) = (kind, n) := by
  cases hq : isQuote c with
  | true =>
    obtain ⟨hle, text, rfl, htail⟩ := exists_stringTail_of_lexeme hq h hk
    refine ⟨hle, ?_⟩
    rw [htail.lexeme_append hq, List.length_take_of_le hle]
  | false =>
    obtain ⟨read, hread, hlexeme⟩ := exists_reading hq cs
    rw [hlexeme (cs.take n ++ rest) fun hc => digitAhead_take (hc ▸ h) hr]
    rw [hlexeme cs fun _ => rfl] at h
    cases hread with
    | mark mark =>
      obtain ⟨rfl, rfl⟩ := Prod.mk.inj h
      exact ⟨Nat.zero_le _, rfl⟩
    | equals => exact equalsLexeme_take h hr
    | doubled => exact doubledLexeme_take h hk rest
    | number => exact numberLexeme_take h hr
    | word => exact wordLexeme_take h hr
    | stray =>
      obtain ⟨rfl, _⟩ := Prod.mk.inj h
      contradiction

/-- A proper lexeme is spelled by its text. -/
theorem exists_spells_of_lexeme {c : Char} {cs : List Char} {kind : Kind} {n : Nat} (h : lexeme c cs = (kind, n))
    (hk : kind.isProper = true) : Spells (c :: cs.take n) kind := by
  obtain ⟨hle, hown⟩ := lexeme_take h hk endsToken_nil
  rw [List.append_nil] at hown
  exact ⟨c, cs.take n, rfl, by rw [hown, List.length_take, Nat.min_eq_left hle]⟩

/-- A token is read with its full length where a blank or the end follows. -/
theorem Spells.lexeme_append {c : Char} {cs : List Char} {kind : Kind} (h : Spells (c :: cs) kind)
    (hk : kind.isProper = true) {rest : List Char} (hr : EndsToken rest) :
    lexeme c (cs ++ rest) = (kind, cs.length) := by
  obtain ⟨c', cs', heq, hl⟩ := h
  obtain ⟨rfl, rfl⟩ := List.cons.inj heq
  have hown := (lexeme_take hl hk hr).2
  rwa [List.take_length] at hown

/-! ## Where no token goes on

Behind a blank nothing matters for the token before it, a string literal apart, which may go on. -/

section

variable {rest : List Char}

private theorem numberBody_append (cs : List Char) (hr : EndsToken rest) :
    numberBody (cs ++ rest) = numberBody cs := by
  fun_induction numberBody cs with
  | case1 => exact numberBody_of_endsToken hr
  | case2 c cs hc text n heq ih => rw [List.cons_append, numberBody_digit hc, ih, heq]
  | case3 cs text n heq hd ih => rw [List.cons_append, numberBody_underscore, ih, heq]
  | case4 c hc hu he s cs hs text n heq ih =>
    rw [List.cons_append, List.cons_append, numberBody_signed he hs, ih, heq]
  | case5 c hc hu he s cs hs text n heq ih =>
    rw [List.cons_append, numberBody_exponent he (by simpa using hs), ih, heq]
  | case6 c hc hu he =>
    rw [List.cons_append, List.nil_append, numberBody_exponent he hr.not_sign, numberBody_of_endsToken hr]
  | case7 c cs hc hu he => exact numberBody_stop (Bool.eq_false_iff.2 hc) hu he

/-- The longest stretch of a text with a property does not grow where something without it follows. -/
theorem takeWhile_append_of_stops {p : Char → Bool} (cs : List Char) (hr : ∀ c ∈ rest.head?, p c = false) :
    (cs ++ rest).takeWhile p = cs.takeWhile p := by
  have hrest : rest.takeWhile p = [] := by
    cases rest with
    | nil => rfl
    | cons c rest => exact List.takeWhile_cons_of_neg (by simp [hr c rfl])
  rw [List.takeWhile_append]
  split
  · next hall => rw [hrest, List.append_nil, (List.takeWhile_prefix p).eq_of_length hall]
  · rfl

private theorem numberLexeme_append (first : Char) (cs : List Char) (hr : EndsToken rest) :
    numberLexeme first (cs ++ rest) = numberLexeme first cs := by
  by_cases hx : ∃ x ∈ cs.head?, first = '0' ∧ (x = 'x' ∨ x = 'X')
  · obtain ⟨x, hhead, rfl, hx⟩ := hx
    obtain ⟨tail, rfl⟩ : ∃ tail, cs = x :: tail := List.head?_eq_some_iff.1 hhead
    rw [List.cons_append, numberLexeme_hex hx, numberLexeme_hex hx, takeWhile_append_of_stops tail hr.not_hexDigit]
  · have hfirst : ∀ x ∈ cs.head?, ¬(first = '0' ∧ (x = 'x' ∨ x = 'X')) := fun x hm hf => hx ⟨x, hm, hf⟩
    rw [numberLexeme_decimal hfirst, numberLexeme_decimal, numberBody_append cs hr]
    cases cs with
    | nil => exact fun x hm hf => hr.not_x x hm hf.2
    | cons x cs => exact hfirst

private theorem equalsLexeme_append (one two : Mark) (three : Option Mark) (cs : List Char) (hr : EndsToken rest) :
    equalsLexeme one two three (cs ++ rest) = equalsLexeme one two three cs := by
  have hend : ∀ c ∈ rest.head?, c ≠ '=' := hr.not_equals
  rcases cs with _ | ⟨c, _ | ⟨d, cs⟩⟩
  · rw [List.nil_append, equalsLexeme_zero hend]
    rfl
  · by_cases hc : c = '='
    · subst hc
      rw [List.cons_append, List.nil_append, equalsLexeme_one hend, equalsLexeme_one (by simp)]
    · rw [List.cons_append, equalsLexeme_zero (by simpa using hc), equalsLexeme_zero (by simpa using hc)]
  · by_cases hc : c = '='
    · subst hc
      by_cases hd : d = '=' <;> cases three <;> simp [equalsLexeme, hd]
    · simp [equalsLexeme, hc]

private theorem doubledLexeme_append {c : Char} (mark : Mark) (cs : List Char) (hr : ∀ d ∈ rest.head?, d ≠ c) :
    doubledLexeme c mark (cs ++ rest) = doubledLexeme c mark cs := by
  cases cs with
  | nil =>
    have hne : rest.head? ≠ some c := fun h => hr c h rfl
    simp [doubledLexeme, hne]
  | cons d cs => rfl

/-- A token other than a string literal is not changed by what follows it, if that begins with a blank. -/
theorem lexeme_append {c : Char} (hq : isQuote c = false) (cs : List Char) (hr : EndsToken rest) :
    lexeme c (cs ++ rest) = lexeme c cs := by
  have hdigit : digitAhead (cs ++ rest) = digitAhead cs := by
    cases cs with
    | nil => exact hr.not_digitAhead
    | cons d cs => rfl
  obtain ⟨read, hread, hlexeme⟩ := exists_reading hq cs
  rw [hlexeme (cs ++ rest) fun _ => hdigit, hlexeme cs fun _ => rfl]
  cases hread with
  | mark | stray => rfl
  | equals one two three => exact equalsLexeme_append one two three cs hr
  | doubled mark hc =>
    refine doubledLexeme_append mark cs ?_
    rintro _ hd rfl
    obtain ⟨_, _, _, _, hmarks⟩ := features_of_isBlank (hr _ hd)
    rcases hc with rfl | rfl <;> simp at hmarks
  | number => exact numberLexeme_append c cs hr
  | word =>
    rw [wordLexeme, takeWhile_append_of_stops cs fun d hd => not_isNamePart_of_isBlank (hr d hd), wordLexeme]

end

/-! ## Where tokens begin -/

/-- No token begins with a blank. -/
theorem lexeme_of_isBlank {c : Char} (h : isBlank c = true) (cs : List Char) :
    lexeme c cs = (.invalid (.unexpectedCharacter c), 0) := by
  obtain ⟨_, hdigit, _, hmark, hmarks⟩ := features_of_isBlank h
  have hname : isNameStart c = false := (Bool.or_eq_false_iff.1 (not_isNamePart_of_isBlank h)).1
  simp only [List.mem_cons, List.not_mem_nil, or_false, not_or] at hmarks
  simp [lexeme, hname, hdigit, hmark, hmarks]

/-- What spells a proper token does not begin with a blank. -/
theorem Spells.not_isBlank {c : Char} {cs : List Char} {kind : Kind} (h : Spells (c :: cs) kind)
    (hk : kind.isProper = true) : isBlank c = false := by
  obtain ⟨c', cs', heq, hl⟩ := h
  obtain ⟨rfl, rfl⟩ := List.cons.inj heq
  cases hb : isBlank c with
  | false => rfl
  | true =>
    rw [lexeme_of_isBlank hb] at hl
    obtain ⟨rfl, _⟩ := Prod.mk.inj hl
    contradiction

/-! ## What a token is -/

section

variable {c : Char} {cs : List Char} {kind : Kind} {n : Nat}

private theorem equalsLexeme_kind {one two : Mark} {three : Option Mark}
    (h : equalsLexeme one two three cs = (kind, n)) : ∃ mark, kind = .mark mark := by
  unfold equalsLexeme at h
  split at h <;> exact ⟨_, (Prod.mk.inj h).1.symm⟩

private theorem doubledLexeme_kind {mark : Mark} (h : doubledLexeme c mark cs = (kind, n))
    (hk : kind.isProper = true) : kind = .mark mark := by
  unfold doubledLexeme at h
  split at h
  · exact (Prod.mk.inj h).1.symm
  · obtain ⟨rfl, _⟩ := Prod.mk.inj h
    contradiction

private theorem numberLexeme_kind (h : numberLexeme c cs = (kind, n)) (hk : kind.isProper = true) :
    ∃ x, kind = .number x := by
  have invalid {fault : LexicalFault} (he : Kind.invalid fault = kind) : ∃ x, kind = .number x := by
    subst he
    contradiction
  by_cases hx : ∃ x ∈ cs.head?, c = '0' ∧ (x = 'x' ∨ x = 'X')
  · obtain ⟨x, hhead, rfl, hx⟩ := hx
    obtain ⟨tail, rfl⟩ : ∃ tail, cs = x :: tail := List.head?_eq_some_iff.1 hhead
    rw [numberLexeme_hex hx, hexLiteral] at h
    split at h
    · split at h
      · exact ⟨_, (Prod.mk.inj h).1.symm⟩
      · exact invalid (Prod.mk.inj h).1
    · exact invalid (Prod.mk.inj h).1
  · rw [numberLexeme_decimal fun x hm hf => hx ⟨x, hm, hf⟩, decimalLiteral] at h
    split at h
    · exact ⟨_, (Prod.mk.inj h).1.symm⟩
    · exact invalid (Prod.mk.inj h).1

/-- A token is a mark, a number, a string or a word. -/
theorem lexeme_cases (h : lexeme c cs = (kind, n)) (hk : kind.isProper = true) :
    (∃ mark, kind = .mark mark) ∨ (∃ x, kind = .number x) ∨
      (∃ text, isQuote c = true ∧ StringTail c (cs.take n) text ∧ kind = .string (String.ofList text)) ∨
      (isNameStart c = true ∧ wordLexeme c cs = (kind, n)) := by
  cases hq : isQuote c with
  | true =>
    obtain ⟨_, text, hkind, htail⟩ := exists_stringTail_of_lexeme hq h hk
    exact .inr (.inr (.inl ⟨text, rfl, htail, hkind⟩))
  | false =>
    obtain ⟨read, hread, hlexeme⟩ := exists_reading hq cs
    rw [hlexeme cs fun _ => rfl] at h
    cases hread with
    | mark mark => exact .inl ⟨mark, (Prod.mk.inj h).1.symm⟩
    | equals => exact .inl (equalsLexeme_kind h)
    | doubled mark => exact .inl ⟨mark, doubledLexeme_kind h hk⟩
    | number => exact .inr (.inl (numberLexeme_kind h hk))
    | word hname => exact .inr (.inr (.inr ⟨hname, h⟩))
    | stray =>
      obtain ⟨rfl, _⟩ := Prod.mk.inj h
      contradiction

/-! ## Strings and words -/

/-- The token that a word is says which word. -/
theorem Kind.text_of_ofWord {word : String} {kind : Kind} (h : Kind.ofWord word = kind) :
    (∃ w, kind = .keyword w ∧ w.text = word) ∨ kind = .reserved word ∨ kind = .identifier word := by
  unfold Kind.ofWord at h
  split at h
  · next k hk => exact .inl ⟨k, h.symm, by simpa using (List.find?_some hk : _)⟩
  · split at h
    · exact .inr (.inl h.symm)
    · exact .inr (.inr h.symm)

theorem Kind.isProper_ofWord (word : String) : (Kind.ofWord word).isProper = true := by
  obtain ⟨_, h, _⟩ | h | h := @Kind.text_of_ofWord word _ rfl <;> rw [h] <;> rfl

theorem Kind.isProper_of_word? {kind : Kind} {word : String} (h : kind.word? = some word) : kind.isProper = true := by
  cases kind with
  | keyword | reserved => rfl
  | _ => contradiction

/-- What reads as a string literal has a quote in front, and the tail of a literal behind it. -/
theorem stringTail_of_lexeme {value : String} (h : lexeme c cs = (.string value, n)) :
    isQuote c = true ∧ n ≤ cs.length ∧ StringTail c (cs.take n) value.toList := by
  obtain ⟨_, hm⟩ | ⟨_, hm⟩ | ⟨text, hc, htail, hm⟩ | ⟨_, hm⟩ := lexeme_cases h rfl
  · contradiction
  · contradiction
  · obtain rfl := Kind.string.inj hm
    rw [String.toList_ofList]
    exact ⟨hc, (lexeme_take h rfl endsToken_nil).1, htail⟩
  · obtain ⟨_, hw, _⟩ | hw | hw := Kind.text_of_ofWord (Prod.mk.inj hm).1 <;> contradiction

/-- The tail of a literal behind a quote reads as a string literal. -/
theorem StringTail.spells {quote : Char} {own text : List Char} (h : StringTail quote own text)
    (hq : isQuote quote = true) : Spells (quote :: own) (.string (String.ofList text)) := by
  have hread := h.lexeme_append hq []
  rw [List.append_nil] at hread
  exact ⟨quote, own, rfl, hread⟩

private theorem exists_stringTail (text : List Char) : ∃ own, StringTail '"' own text := by
  induction text with
  | nil => exact ⟨_, .closing⟩
  | cons c text ih =>
    obtain ⟨own, h⟩ := ih
    by_cases hn : c = '\n'
    · subst hn
      exact ⟨_, .escaped (c := 'n') (by decide) (by decide) h⟩
    by_cases hc : c = '"' ∨ c = '\\'
    · rcases hc with rfl | rfl
      · exact ⟨_, .escaped (c := '"') (by decide) (by decide) h⟩
      · exact ⟨_, .escaped (c := '\\') (by decide) (by decide) h⟩
    · obtain ⟨hq, hb⟩ := not_or.1 hc
      exact ⟨_, .plain hn hq hb h⟩

/-- Every text is the value of some string literal. -/
theorem exists_spells_string (value : String) : ∃ text, Spells text (.string value) := by
  obtain ⟨own, h⟩ := exists_stringTail value.toList
  have hspells := h.spells rfl
  rw [String.ofList_toList] at hspells
  exact ⟨_, hspells⟩

end

/-- The text is a name. -/
def IsName (name : String) : Prop := Spells name.toList (.identifier name)

/-- The text is a word: a name, a keyword or a reserved word. -/
def IsWord (word : String) : Prop := Spells word.toList (.ofWord word)

/-- A word that is no string, number or mark is spelled as it reads. -/
theorem Spells.eq_ofWord {text : List Char} {kind : Kind} (h : Spells text kind) (hk : kind.isProper = true)
    (hm : ∀ mark, kind ≠ .mark mark) (hx : ∀ x, kind ≠ .number x) (hs : ∀ s, kind ≠ .string s) :
    kind = .ofWord (String.ofList text) := by
  obtain ⟨c, cs, rfl, hl⟩ := h
  obtain ⟨_, h⟩ | ⟨_, h⟩ | ⟨_, _, _, h⟩ | ⟨_, hw⟩ := lexeme_cases hl hk
  · exact absurd h (hm _)
  · exact absurd h (hx _)
  · exact absurd h (hs _)
  · obtain ⟨rfl, hn⟩ := Prod.mk.inj hw
    rw [(List.takeWhile_prefix isNamePart).eq_of_length hn]

private theorem isWord_of_spells {text : List Char} {kind : Kind} (h : Spells text kind)
    (hk : kind = .ofWord (String.ofList text)) : IsWord (String.ofList text) := by
  rwa [IsWord, String.toList_ofList, ← hk]

/-- An identifier is spelled by its name. -/
theorem Spells.isName {text : List Char} {name : String} (h : Spells text (.identifier name)) : IsName name := by
  have hk := h.eq_ofWord rfl (by simp) (by simp) (by simp)
  obtain ⟨_, hw, _⟩ | hw | hw := Kind.text_of_ofWord hk.symm
  · contradiction
  · contradiction
  · obtain rfl := Kind.identifier.inj hw
    rwa [IsName, String.toList_ofList]

/-- As a word, a name is an identifier. -/
theorem IsName.ofWord {name : String} (h : IsName name) : Kind.ofWord name = .identifier name := by
  have hk := Spells.eq_ofWord h rfl (by simp) (by simp) (by simp)
  rw [String.ofList_toList] at hk
  exact hk.symm

theorem IsName.isWord {name : String} (h : IsName name) : IsWord name := by
  rwa [IsWord, h.ofWord]

/-- The word that a token is where any word may be a name. -/
theorem Spells.isWord {text : List Char} {kind : Kind} {word : String} (h : Spells text kind)
    (hw : kind.word? = some word) : IsWord word := by
  cases kind with
  | keyword w =>
    have hk := h.eq_ofWord rfl (by simp) (by simp) (by simp)
    obtain ⟨w', hw', ht⟩ | hw' | hw' := Kind.text_of_ofWord hk.symm
    · obtain rfl := Kind.keyword.inj hw'
      obtain rfl := Option.some.inj hw
      rw [ht]
      exact isWord_of_spells h hk
    · contradiction
    · contradiction
  | reserved w =>
    have hk := h.eq_ofWord rfl (by simp) (by simp) (by simp)
    obtain ⟨_, hw', ht⟩ | hw' | hw' := Kind.text_of_ofWord hk.symm
    · contradiction
    · obtain rfl := Kind.reserved.inj hw'
      obtain rfl := Option.some.inj hw
      exact isWord_of_spells h hk
    · contradiction
  | _ => simp [Kind.word?] at hw

theorem spells_keyword (w : Keyword) : Spells w.text.toList (.keyword w) := by
  cases w <;> exact ⟨_, _, rfl, by decide +kernel⟩

theorem spells_mark (m : Mark) : Spells m.text.toList (.mark m) := by
  cases m <;> exact ⟨_, _, rfl, by decide +kernel⟩

end ScriptModules.Script
