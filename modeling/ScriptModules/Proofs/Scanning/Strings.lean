import ScriptModules.Script.Scan

/-!
# String literals

`StringTail` tells, character by character, what may stand behind the opening quote of a string literal, up to its
closing quote, and which text that is.  The scanner reads such a tail (`StringTail.read`) and nothing else
(`stringTail_of_read`).
-/

namespace ScriptModules.Script

/-- The characters behind `\u` that stand for a code point: four, or all from one brace to the other. -/
def ReadsCode (code : List Char) (c : Char) : Prop := unicodeEscape code = (some c, code.length)

/-- What stands behind the opening quote of a string literal, the closing quote included, and the text of the
literal. -/
inductive StringTail (quote : Char) : List Char → List Char → Prop
  | closing : StringTail quote [quote] []
  | plain {c : Char} {own text : List Char} : c ≠ '\n' → c ≠ quote → c ≠ '\\' → StringTail quote own text →
      StringTail quote (c :: own) (c :: text)
  | escaped {c : Char} {own text : List Char} : c ≠ 'u' → c ≠ '\n' → StringTail quote own text →
      StringTail quote ('\\' :: c :: own) (escaped c :: text)
  | continued {own text : List Char} : StringTail quote own text → StringTail quote ('\\' :: '\n' :: own) text
  | code {code own text : List Char} {c : Char} : ReadsCode code c → StringTail quote own text →
      StringTail quote ('\\' :: 'u' :: (code ++ own)) (c :: text)

/-- May the character stand around a string? -/
def isQuote (c : Char) : Bool := c == '"' || c == '\''

private theorem StringTail.length_pos {quote : Char} {own text : List Char} (h : StringTail quote own text) :
    0 < own.length := by
  cases h <;> simp

/-! ## Escapes -/

private theorem unicodeEscape_of_ne {cs : List Char} (h : cs.head? ≠ some '\x7b') :
    unicodeEscape cs = if cs.length < 4 then (none, cs.length) else (codePoint? (cs.take 4), 4) := by
  unfold unicodeEscape
  split
  · exact absurd rfl h
  · rfl

private theorem unicodeEscape_append {code : List Char} {c : Char} (h : ReadsCode code c) (rest : List Char) :
    unicodeEscape (code ++ rest) = (some c, code.length) := by
  unfold ReadsCode at h
  by_cases hb : code.head? = some '\x7b'
  · obtain ⟨inner, rfl⟩ := List.head?_eq_some_iff.1 hb
    obtain ⟨hc, hl⟩ := Prod.mk.inj h
    have hne : (inner.takeWhile (· ≠ '\x7d')).length ≠ inner.length := by
      simp only [List.length_cons] at hl
      omega
    rw [List.cons_append, unicodeEscape, List.takeWhile_append, if_neg hne, hc, hl]
  · rw [unicodeEscape_of_ne hb] at h
    split at h
    · simp at h
    · obtain ⟨hc, hl⟩ := Prod.mk.inj h
      have hne : (code ++ rest).head? ≠ some '\x7b' := by
        cases code with
        | nil => simp at hl
        | cons d code => exact hb
      rw [unicodeEscape_of_ne hne, if_neg (by rw [List.length_append]; omega), List.take_append_of_le_length (by omega),
        hc, hl]

private theorem readsCode_take {cs : List Char} {c : Char} {k : Nat} (h : unicodeEscape cs = (some c, k))
    (hk : k ≤ cs.length) : ReadsCode (cs.take k) c := by
  unfold ReadsCode
  by_cases hb : cs.head? = some '\x7b'
  · obtain ⟨inner, rfl⟩ := List.head?_eq_some_iff.1 hb
    obtain ⟨hc, rfl⟩ := Prod.mk.inj h
    simp only [List.length_cons] at hk
    rw [List.take_succ_cons, unicodeEscape, ← List.take_takeWhile, List.take_of_length_le (Nat.le_succ _), hc,
      List.length_cons, List.length_take]
    congr 1
    omega
  · rw [unicodeEscape_of_ne hb] at h
    split at h
    · simp at h
    · obtain ⟨hc, rfl⟩ := Prod.mk.inj h
      have hne : (cs.take 4).head? ≠ some '\x7b' := by
        rwa [List.head?_take, if_neg (by decide)]
      rw [unicodeEscape_of_ne hne, List.take_take, List.length_take, Nat.min_eq_left hk, if_neg (by decide)]
      simp [hc]

/-! ## The scanner -/

section

variable {quote c : Char} {cs text : List Char} {n : Nat}

private theorem consRead_eq_ok {front : List Char} {k : Nat} {read : Except LexicalFault (List Char) × Nat}
    (h : consRead front k read = (.ok text, n)) :
    ∃ tail m, read = (.ok tail, m) ∧ text = front ++ tail ∧ n = m + k := by
  obtain ⟨result, m⟩ := read
  cases result with
  | error fault => simp [consRead, Except.map] at h
  | ok tail =>
    obtain ⟨ht, rfl⟩ := Prod.mk.inj h
    exact ⟨tail, m, rfl, (Except.ok.inj ht).symm, rfl⟩

end

/-- The scanner reads the tail of a string literal, whatever comes after it. -/
theorem StringTail.read {quote : Char} {own text : List Char} (h : StringTail quote own text)
    (hq : quote ≠ '\n') (hs : quote ≠ '\\') (rest : List Char) :
    stringBody quote (own ++ rest) = (.ok text, own.length) := by
  induction h with
  | closing => 
    unfold stringBody
    simp [hq]
  | plain hn hc hb _ ih =>
    unfold stringBody
    simp [hn, hc, hb, ih, consRead, Except.map]
  | escaped hu hn _ ih =>
    unfold stringBody
    simp [Ne.symm hs, ih, consRead, Except.map, hu, hn]
  | continued _ ih =>
    unfold stringBody
    simp [Ne.symm hs, ih, consRead, Except.map]
  | @code code own text c hc _ ih => 
    unfold stringBody
    simp [Ne.symm hs, ih, consRead, Except.map, unicodeEscape_append hc]
    omega

/-- What the scanner has read as a string literal is the tail of one. -/
theorem stringTail_of_read {quote : Char} {cs text : List Char} {n : Nat} (h : stringBody quote cs = (.ok text, n)) :
    n ≤ cs.length ∧ StringTail quote (cs.take n) text := by
  fun_induction stringBody quote cs generalizing text n with
  | case1 | case2 | case4 | case5 => simp at h
  | case3 cs hn =>
    obtain ⟨ht, rfl⟩ := Prod.mk.inj h
    obtain rfl := Except.ok.inj ht
    exact ⟨Nat.le_add_left _ _, .closing⟩
  | case6 cs c k he hn hq ih =>
    obtain ⟨tail, m, hread, rfl, rfl⟩ := consRead_eq_ok h
    obtain ⟨hm, htail⟩ := ih hread
    rw [List.length_drop] at hm
    have hpos := htail.length_pos
    rw [List.length_take, List.length_drop] at hpos
    refine ⟨by simp only [List.length_cons]; omega, ?_⟩
    have hcode : ReadsCode (cs.take k) c := readsCode_take he (by omega)
    rw [show m + (k + 2) = k + m + 1 + 1 by omega, List.take_succ_cons, List.take_succ_cons, List.take_add]
    exact .code hcode htail
  | case7 cs hn hq hu ih =>
    obtain ⟨tail, m, hread, rfl, rfl⟩ := consRead_eq_ok h
    obtain ⟨hm, htail⟩ := ih hread
    exact ⟨Nat.add_le_add_right hm 2, .continued htail⟩
  | case8 e cs hu he hn hq ih =>
    obtain ⟨tail, m, hread, rfl, rfl⟩ := consRead_eq_ok h
    obtain ⟨hm, htail⟩ := ih hread
    exact ⟨Nat.add_le_add_right hm 2, .escaped hu he htail⟩
  | case9 c cs hn hq hb ih =>
    obtain ⟨tail, m, hread, rfl, rfl⟩ := consRead_eq_ok h
    obtain ⟨hm, htail⟩ := ih hread
    exact ⟨Nat.succ_le_succ hm, .plain hn hq hb htail⟩

end ScriptModules.Script
