import ScriptModules.Proofs.Scanning.Spelling

/-!
# One character ahead

The scanner knows a token from its own characters and the first one behind it.  Two texts that are alike for so long
begin with the same token, whatever else follows (`lexeme_eq_of_ahead`).
-/

namespace ScriptModules.Script

/-- The texts are alike in their first `n` characters and in the one behind these. -/
def AlikeAhead (n : Nat) (cs cs' : List Char) : Prop := cs.take (n + 1) = cs'.take (n + 1)

section

variable {c : Char} {cs cs' : List Char} {n : Nat}

private theorem AlikeAhead.head?_eq (h : AlikeAhead n cs cs') : cs'.head? = cs.head? := by
  have hheads := congrArg List.head? h
  rw [List.head?_take, List.head?_take, if_neg (Nat.succ_ne_zero n), if_neg (Nat.succ_ne_zero n)] at hheads
  exact hheads.symm

private theorem AlikeAhead.exists_cons (h : AlikeAhead n (c :: cs) cs') :
    ∃ tail, cs' = c :: tail ∧ cs.take n = tail.take n := by
  obtain ⟨tail, rfl⟩ := List.head?_eq_some_iff.1 h.head?_eq
  exact ⟨tail, rfl, (List.cons.inj h).2⟩

/-- What comes behind a text matters no further than by its first character. -/
theorem AlikeAhead.append (own : List Char) {rest rest' : List Char} (h : rest.head? = rest'.head?) :
    AlikeAhead own.length (own ++ rest) (own ++ rest') := by
  have hfirst : rest.take 1 = rest'.take 1 := by
    cases rest <;> cases rest' <;> simp_all
  rw [AlikeAhead, List.take_length_add_append, List.take_length_add_append, hfirst]

private theorem takeWhile_eq_of_ahead {p : Char → Bool} (h : AlikeAhead (cs.takeWhile p).length cs cs') :
    cs'.takeWhile p = cs.takeWhile p := by
  induction cs generalizing cs' with
  | nil =>
    obtain rfl := List.head?_eq_none_iff.1 h.head?_eq
    rfl
  | cons c cs ih =>
    obtain ⟨tail, rfl, htail⟩ := h.exists_cons
    by_cases hc : p c = true
    · rw [List.takeWhile_cons_of_pos hc] at htail ⊢
      rw [List.takeWhile_cons_of_pos hc, ih htail]
    · rw [List.takeWhile_cons_of_neg hc, List.takeWhile_cons_of_neg hc]

/-- Behind an exponent the next character tells whether it has a sign. -/
private theorem numberBody_eq_of_ahead (h : AlikeAhead (numberBody cs).2 cs cs') : numberBody cs' = numberBody cs := by
  fun_induction numberBody cs generalizing cs' with
  | case1 =>
    obtain rfl := List.head?_eq_none_iff.1 h.head?_eq
    rfl
  | case2 c cs hc text n heq ih =>
    obtain ⟨tail, rfl, htail⟩ := h.exists_cons
    rw [heq] at ih
    rw [numberBody_digit hc, ih htail]
  | case3 cs text n heq hd ih =>
    obtain ⟨tail, rfl, htail⟩ := h.exists_cons
    rw [heq] at ih
    rw [numberBody_underscore, ih htail]
  | case4 c hc hu he s cs hs text n heq ih =>
    obtain ⟨tail, rfl, htail⟩ := h.exists_cons
    have hahead : AlikeAhead (n + 1) (s :: cs) tail := htail
    obtain ⟨behind, rfl, hbehind⟩ := hahead.exists_cons
    rw [heq] at ih
    rw [numberBody_signed he hs, ih hbehind]
  | case5 c hc hu he s cs hs text n heq ih =>
    obtain ⟨tail, rfl, htail⟩ := h.exists_cons
    rw [heq] at ih
    have hahead : AlikeAhead n (s :: cs) tail := htail
    rw [numberBody_exponent he (by rw [hahead.head?_eq]; simpa using hs), ih hahead]
  | case6 c hc hu he =>
    obtain ⟨tail, rfl, htail⟩ := h.exists_cons
    have hahead : AlikeAhead 0 [] tail := htail
    obtain rfl := List.head?_eq_none_iff.1 hahead.head?_eq
    rw [numberBody_exponent he (by simp)]
    rfl
  | case7 c cs hc hu he =>
    obtain ⟨tail, rfl, htail⟩ := h.exists_cons
    exact numberBody_stop (Bool.eq_false_iff.2 hc) hu he

private theorem numberLexeme_eq_of_ahead {first : Char} (h : AlikeAhead (numberLexeme first cs).2 cs cs') :
    numberLexeme first cs' = numberLexeme first cs := by
  cases cs with
  | nil =>
    obtain rfl := List.head?_eq_none_iff.1 h.head?_eq
    rfl
  | cons x cs =>
    obtain ⟨tail, rfl, htail⟩ := h.exists_cons
    unfold numberLexeme at h htail ⊢
    by_cases hx : first = '0' ∧ (x = 'x' ∨ x = 'X')
    · simp only [if_pos hx] at htail ⊢
      rw [takeWhile_eq_of_ahead htail]
    · simp only [if_neg hx] at h ⊢
      have hbody : numberBody (x :: tail) = numberBody (x :: cs) := by
        refine numberBody_eq_of_ahead ?_
        split at h <;> exact h
      rw [hbody]

/-- Behind one sign of equality it matters only whether there is another one. -/
private theorem equalsLexeme_equals (one two : Mark) (three : Option Mark) (cs : List Char) :
    equalsLexeme one two three ('=' :: cs) =
      if cs.head? = some '=' then three.elim (.mark two, 1) fun mark => (.mark mark, 2) else (.mark two, 1) := by
  rcases cs with _ | ⟨c, cs⟩
  · rfl
  · by_cases hc : c = '=' <;> cases three <;> simp [equalsLexeme, hc]

private theorem equalsLexeme_eq_of_ahead {one two : Mark} {three : Option Mark}
    (h : AlikeAhead (equalsLexeme one two three cs).2 cs cs') :
    equalsLexeme one two three cs' = equalsLexeme one two three cs := by
  cases cs with
  | nil =>
    obtain rfl := List.head?_eq_none_iff.1 h.head?_eq
    rfl
  | cons c cs =>
    obtain ⟨tail, rfl, htail⟩ := h.exists_cons
    by_cases hc : c = '='
    · subst hc
      obtain ⟨n, hn⟩ : ∃ n, (equalsLexeme one two three ('=' :: cs)).2 = n + 1 := by
        rw [equalsLexeme_equals]
        split
        · cases three <;> exact ⟨_, rfl⟩
        · exact ⟨_, rfl⟩
      rw [hn] at htail
      have hahead : AlikeAhead n cs tail := htail
      rw [equalsLexeme_equals, equalsLexeme_equals, hahead.head?_eq]
    · simp [equalsLexeme, hc]

end

/-- A token is read off its own characters and the first one behind it. -/
theorem lexeme_eq_of_ahead {c : Char} {cs cs' : List Char} {kind : Kind} {n : Nat} (h : lexeme c cs = (kind, n))
    (hk : kind.isProper = true) (ha : AlikeAhead n cs cs') : lexeme c cs' = (kind, n) := by
  cases hq : isQuote c with
  | true =>
    obtain ⟨hle, text, rfl, htail⟩ := exists_stringTail_of_lexeme hq h hk
    have htake : cs.take n = cs'.take n := by
      have hown := congrArg (List.take n) ha
      rwa [List.take_take, List.take_take, Nat.min_eq_left (Nat.le_succ n)] at hown
    have hread := htail.lexeme_append hq (cs'.drop n)
    rwa [List.length_take_of_le hle, htake, List.take_append_drop] at hread
  | false =>
    have hdigit : digitAhead cs' = digitAhead cs := by rw [digitAhead, ha.head?_eq, digitAhead]
    obtain ⟨read, hread, hlexeme⟩ := exists_reading hq cs
    rw [hlexeme cs' fun _ => hdigit]
    rw [hlexeme cs fun _ => rfl] at h
    cases hread with
    | mark | stray => exact h
    | equals => rw [equalsLexeme_eq_of_ahead (by rwa [h]), h]
    | doubled => rw [← h, doubledLexeme, doubledLexeme, ha.head?_eq]
    | number => rw [numberLexeme_eq_of_ahead (by rwa [h]), h]
    | word =>
      obtain ⟨_, rfl⟩ := Prod.mk.inj h
      rw [← h, wordLexeme, wordLexeme, takeWhile_eq_of_ahead ha]

end ScriptModules.Script
