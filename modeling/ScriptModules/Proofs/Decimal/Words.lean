import ScriptModules.Decimal.Word

/-!
# Numerals of words

A number has one canonical numeral, and others with zeros before it and a plus before those (`Decimal.Writes`).  The
reader of words takes exactly these, if the number is a word (`Decimal.word?_eq_some_iff`).
-/

namespace ScriptModules.Decimal

/-- The text is a numeral of the number: the canonical one, with any number of zeros before it, and with or without a
plus before those. -/
def Writes (text : String) (n : Nat) : Prop :=
  ∃ (sign : List Char) (zeros : Nat), (sign = [] ∨ sign = ['+']) ∧
    text.toList = sign ++ (List.replicate zeros '0' ++ (toString n).toList)

/-- Has the text no plus and no zero before something else? -/
def isPlain (text : String) : Bool :=
  match text.toList with
  | '+' :: _ | '0' :: _ :: _ => false
  | _ => true

/-! ## Digits -/

private theorem ofDigits_eq (digits : List Char) : ofDigits digits = Nat.ofDigitChars 10 digits 0 := rfl

private theorem toList_toString (n : Nat) : (toString n).toList = Nat.toDigits 10 n := by
  rw [Nat.toString_eq_repr, Nat.toList_repr]

theorem isDigit_of_mem_toString {n : Nat} {c : Char} (h : c ∈ (toString n).toList) : c.isDigit = true := by
  rw [toList_toString] at h
  exact Nat.isDigit_of_mem_toDigits (by decide) (by decide) h

private theorem isDigit_iff {c : Char} : c.isDigit = true ↔ 48 ≤ c.toNat ∧ c.toNat ≤ 57 := by
  rw [Char.isDigit, Bool.and_eq_true, decide_eq_true_iff, decide_eq_true_iff]
  rfl

private theorem digitChar_digitValue {c : Char} (h : c.isDigit = true) : Nat.digitChar (c.toNat - 48) = c := by
  obtain ⟨hlo, hhi⟩ := isDigit_iff.1 h
  refine Char.toNat_inj.1 ?_
  rw [Nat.toNat_digitChar_of_lt_ten (by omega)]
  omega

/-- Digits that go on with a number continue its canonical numeral. -/
private theorem toDigits_ofDigitChars {digits : List Char} (h : ∀ c ∈ digits, c.isDigit = true) {n : Nat} (hn : 0 < n) :
    Nat.toDigits 10 (Nat.ofDigitChars 10 digits n) = Nat.toDigits 10 n ++ digits := by
  induction digits generalizing n with
  | nil => simp
  | cons c cs ih =>
    obtain ⟨hc, hcs⟩ := List.forall_mem_cons.1 h
    have hlt : c.toNat - 48 < 10 := by
      obtain ⟨_, hhi⟩ := isDigit_iff.1 hc
      omega
    have hfirst : Nat.toDigits 10 (10 * n + (c.toNat - 48)) = Nat.toDigits 10 n ++ [c] := by
      rw [← Nat.toDigits_append_toDigits (by decide) hn hlt, Nat.toDigits_of_lt_base hlt, digitChar_digitValue hc]
    rw [Nat.ofDigitChars_cons, show '0'.toNat = 48 from rfl, ih hcs (by omega), hfirst, List.append_assoc]
    rfl

/-- Digits are the canonical numeral of their number with zeros before it. -/
private theorem exists_zeros {digits : List Char} (hne : digits ≠ []) (h : ∀ c ∈ digits, c.isDigit = true) :
    ∃ zeros, digits = List.replicate zeros '0' ++ Nat.toDigits 10 (ofDigits digits) := by
  induction digits with
  | nil => contradiction
  | cons c cs ih =>
    obtain ⟨hc, hcs⟩ := List.forall_mem_cons.1 h
    rw [ofDigits_eq, Nat.ofDigitChars_cons, Nat.mul_zero, Nat.zero_add, show '0'.toNat = 48 from rfl]
    by_cases hzero : c = '0'
    · subst hzero
      cases cs with
      | nil => exact ⟨0, rfl⟩
      | cons d ds =>
        obtain ⟨zeros, hz⟩ := ih (List.cons_ne_nil d ds) hcs
        exact ⟨zeros + 1, congrArg ('0' :: ·) hz⟩
    · have hpos : 0 < c.toNat - 48 := by
        obtain ⟨hlo, _⟩ := isDigit_iff.1 hc
        have hne : c.toNat ≠ 48 := fun he => hzero (Char.toNat_inj.1 he)
        omega
      have hlt : c.toNat - 48 < 10 := by
        obtain ⟨_, hhi⟩ := isDigit_iff.1 hc
        omega
      refine ⟨0, ?_⟩
      rw [toDigits_ofDigitChars hcs hpos, Nat.toDigits_of_lt_base hlt, digitChar_digitValue hc]
      rfl

private theorem ofDigits_zeros (zeros n : Nat) : ofDigits (List.replicate zeros '0' ++ Nat.toDigits 10 n) = n := by
  rw [ofDigits_eq, Nat.ofDigitChars_append, Nat.ofDigitChars_replicate_zero, Nat.mul_zero,
    Nat.ofDigitChars_toDigits (by decide) (by decide)]

private theorem isDigit_of_mem_zeros {zeros n : Nat} {c : Char}
    (h : c ∈ List.replicate zeros '0' ++ Nat.toDigits 10 n) : c.isDigit = true := by
  rcases List.mem_append.1 h with h | h
  · rw [List.eq_of_mem_replicate h]
    rfl
  · exact Nat.isDigit_of_mem_toDigits (by decide) (by decide) h

/-! ## Words -/

private theorem exists_sign (text : String) : ∃ sign digits, (sign = [] ∨ sign = ['+']) ∧ text.toList = sign ++ digits ∧
    (sign = [] → digits.head? ≠ some '+') := by
  cases h : text.toList with
  | nil => exact ⟨[], [], .inl rfl, rfl, fun _ => nofun⟩
  | cons c cs =>
    by_cases hc : c = '+'
    · exact ⟨['+'], cs, .inr rfl, by rw [hc]; rfl, fun he => absurd he (List.cons_ne_nil _ _)⟩
    · exact ⟨[], c :: cs, .inl rfl, rfl, fun _ he => hc (Option.some.inj he)⟩

/-- Behind an optional plus, the reader of words takes digits. -/
private theorem word?_eq_some_iff_digits {text : String} {sign digits : List Char} {n : Nat}
    (hs : sign = [] ∨ sign = ['+']) (ht : text.toList = sign ++ digits) (hd : sign = [] → digits.head? ≠ some '+') :
    word? text = some n ↔ digits ≠ [] ∧ (∀ c ∈ digits, c.isDigit = true) ∧ ofDigits digits = n ∧ n < wordCount := by
  have hread : word? text = if digits.isEmpty || !digits.all Char.isDigit then none
      else if ofDigits digits < wordCount then some (ofDigits digits) else none := by
    unfold word?
    rw [ht]
    rcases hs with rfl | rfl
    · rw [List.nil_append]
      split
      · next rest => exact absurd rfl (hd rfl)
      · rfl
    · rfl
  rw [hread]
  split
  · next h =>
    refine iff_of_false nofun fun ⟨hne, hall, _⟩ => ?_
    simp only [Bool.or_eq_true, List.isEmpty_iff, Bool.not_eq_true', List.all_eq_false] at h
    obtain hempty | ⟨c, hc, hdigit⟩ := h
    · exact hne hempty
    · exact hdigit (hall c hc)
  · next h =>
    simp only [Bool.or_eq_true, List.isEmpty_iff, Bool.not_eq_true', not_or, Bool.not_eq_false, List.all_eq_true] at h
    rw [Option.ite_none_right_eq_some, Option.some_inj]
    constructor
    · rintro ⟨hlt, rfl⟩
      exact ⟨h.1, h.2, rfl, hlt⟩
    · rintro ⟨_, _, rfl, hlt⟩
      exact ⟨hlt, rfl⟩

/-- What is read as a word are the numerals of that word. -/
theorem word?_eq_some_iff {text : String} {n : Nat} : word? text = some n ↔ Writes text n ∧ n < wordCount := by
  constructor
  · intro h
    obtain ⟨sign, digits, hs, ht, hd⟩ := exists_sign text
    obtain ⟨hne, hall, rfl, hlt⟩ := (word?_eq_some_iff_digits hs ht hd).1 h
    obtain ⟨zeros, hz⟩ := exists_zeros hne hall
    exact ⟨⟨sign, zeros, hs, by rw [toList_toString, ← hz, ht]⟩, hlt⟩
  · rintro ⟨⟨sign, zeros, hs, ht⟩, hlt⟩
    rw [toList_toString] at ht
    refine (word?_eq_some_iff_digits hs ht fun _ he => ?_).2
      ⟨?_, fun c hc => isDigit_of_mem_zeros hc, ofDigits_zeros zeros n, hlt⟩
    · have hplus := isDigit_of_mem_zeros (List.mem_of_head? he)
      contradiction
    · exact List.append_ne_nil_of_right_ne_nil _ Nat.toDigits_ne_nil

/-- The text of a number is a numeral of the number. -/
theorem writes_toString (n : Nat) : Writes (toString n) n := ⟨[], 0, .inl rfl, rfl⟩

/-- A word is read back from its text. -/
theorem word?_toString {n : Nat} (h : n < wordCount) : word? (toString n) = some n :=
  word?_eq_some_iff.2 ⟨writes_toString n, h⟩

/-- A number that is no word is not read from its text. -/
theorem word?_toString_of_le {n : Nat} (h : wordCount ≤ n) : word? (toString n) = none := by
  refine Option.eq_none_iff_forall_ne_some.2 fun m hm => ?_
  have hplus : (toString n).toList.head? ≠ some '+' := fun he => by
    have hdigit := isDigit_of_mem_toString (List.mem_of_head? he)
    contradiction
  obtain ⟨_, _, hvalue, hlt⟩ := (word?_eq_some_iff_digits (.inl rfl) (List.nil_append _).symm fun _ => hplus).1 hm
  rw [toList_toString] at hvalue
  obtain rfl : n = m := (ofDigits_zeros 0 n).symm.trans hvalue
  exact absurd hlt (Nat.not_lt.2 h)

/-- Without a plus and without zeros before it a numeral is the canonical one. -/
theorem Writes.eq_toString {text : String} {n : Nat} (h : Writes text n) (hp : isPlain text = true) :
    text = toString n := by
  obtain ⟨sign, zeros, hs, ht⟩ := h
  unfold isPlain at hp
  rw [ht] at hp
  rcases hs with rfl | rfl
  · cases zeros with
    | zero => exact String.toList_inj.1 ht
    | succ zeros =>
      -- Behind the zero there are at least the digits of the number.
      obtain ⟨d, ds, hrest⟩ := List.exists_cons_of_ne_nil
        (List.append_ne_nil_of_right_ne_nil (List.replicate zeros '0') (toList_toString n ▸ Nat.toDigits_ne_nil))
      rw [List.replicate_succ, List.nil_append, List.cons_append, hrest] at hp
      contradiction
  · contradiction

end ScriptModules.Decimal
