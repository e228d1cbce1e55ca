import ScriptModules.Proofs.Scanning.Strings

/-!
# Exact string literals

What a string literal should be, told without the scanner: closed by its own quote (`ClosedBy`), with escapes whose
codes are exactly four hexadecimal digits, or one or more between braces, that name a character (`IsExactCode`).  The
tail of a literal that the scanner reads is closed (`StringTail.closedBy`), and its codes are exact but for a sign that
may stand where the digits should begin (`StringTail.isExactCode_iff`).
-/

namespace ScriptModules.Script

/-- The first quote that stands behind no backslash comes last. -/
inductive ClosedBy (quote : Char) : List Char → Prop
  | last : ClosedBy quote [quote]
  | plain {c : Char} {own : List Char} : c ≠ quote → c ≠ '\\' → ClosedBy quote own → ClosedBy quote (c :: own)
  | escape {c : Char} {own : List Char} : ClosedBy quote own → ClosedBy quote ('\\' :: c :: own)

/-- What belongs to an escape behind `\u`: all from one brace to the other, or four characters. -/
def escapeCode (cs : List Char) : List Char :=
  if cs.head? = some '\x7b' then cs.take ((cs.takeWhile (· ≠ '\x7d')).length + 1) else cs.take 4

/-- The codes of all escapes `\u` in a text. -/
def escapeCodes : List Char → List (List Char)
  | [] => []
  | [_] => []
  | c :: e :: cs =>
    if c = '\\' then
      if e = 'u' then escapeCode cs :: escapeCodes (cs.drop (escapeCode cs).length) else escapeCodes cs
    else escapeCodes (e :: cs)
  termination_by cs => cs.length
  decreasing_by all_goals (simp only [List.length_drop, List.length_cons]; omega)

/-- The code is exactly four hexadecimal digits, or one or more between braces, and names a character. -/
def IsExactCode (code : List Char) : Prop :=
  ∃ digits n, (code = digits ∧ digits.length = 4 ∨ code = '\x7b' :: (digits ++ ['\x7d']) ∧ digits ≠ []) ∧
    (∀ c ∈ digits, (hexDigit? c).isSome = true) ∧ hexNumber? digits = some n ∧ n.isValidChar

/-- Does a sign stand where the digits of the code should begin? -/
def isSignedCode (code : List Char) : Bool :=
  code.head? == some '+' || (code.head? == some '\x7b' && code.tail.head? == some '+')

private theorem isSome_of_foldlM {digits : List Char} {m n : Nat}
    (h : digits.foldlM (fun n c => (hexDigit? c).map (16 * n + ·)) m = some n) :
    ∀ c ∈ digits, (hexDigit? c).isSome = true := by
  induction digits generalizing m with
  | nil => simp
  | cons c digits ih =>
    rw [List.foldlM_cons] at h
    obtain ⟨k, hk, h⟩ := Option.bind_eq_some_iff.1 h
    obtain ⟨d, hd, _⟩ := Option.map_eq_some_iff.1 hk
    exact List.forall_mem_cons.2 ⟨by rw [hd]; rfl, ih h⟩

private theorem isSome_hexDigit?_of_hexNumber? {digits : List Char} {n : Nat} (h : hexNumber? digits = some n) :
    digits ≠ [] ∧ ∀ c ∈ digits, (hexDigit? c).isSome = true := by
  unfold hexNumber? at h
  split at h
  · contradiction
  · next hne => exact ⟨by simpa using hne, isSome_of_foldlM h⟩

/-- Only a sign may stand before the digits, of which the number is that of a character. -/
private theorem codePoint?_eq_some {digits : List Char} {c : Char} (h : codePoint? digits = some c) :
    ∃ sign own n, (sign = [] ∨ sign = ['+']) ∧ digits = sign ++ own ∧ hexNumber? own = some n ∧ n.isValidChar := by
  have named {own : List Char} (hown : (hexNumber? own).bind
      (fun n => if n.isValidChar then some (Char.ofNat n) else none) = some c) :
      ∃ n, hexNumber? own = some n ∧ n.isValidChar := by
    obtain ⟨n, hn, hc⟩ := Option.bind_eq_some_iff.1 hown
    split at hc
    · exact ⟨n, hn, ‹_›⟩
    · contradiction
  unfold codePoint? at h
  split at h
  · next own =>
    obtain ⟨n, hn⟩ := named h
    exact ⟨['+'], own, n, .inr rfl, rfl, hn⟩
  · obtain ⟨n, hn⟩ := named h
    exact ⟨[], digits, n, .inl rfl, rfl, hn⟩

/-- A text that ends where the first closing brace would be is closed by one. -/
private theorem eq_append_brace (inner : List Char) (h : (inner.takeWhile (· ≠ '\x7d')).length + 1 = inner.length) :
    inner = inner.takeWhile (· ≠ '\x7d') ++ ['\x7d'] := by
  have hparts : inner.takeWhile (· ≠ '\x7d') ++ inner.dropWhile (· ≠ '\x7d') = inner :=
    List.takeWhile_append_dropWhile
  have hlen : (inner.dropWhile (· ≠ '\x7d')).length = 1 := by
    have := congrArg List.length hparts
    rw [List.length_append] at this
    omega
  obtain ⟨d, hd⟩ := List.length_eq_one_iff.1 hlen
  have hfirst := List.head?_dropWhile_not (· ≠ '\x7d') inner
  rw [hd] at hfirst hparts
  obtain rfl : d = '\x7d' := by simpa using hfirst
  exact hparts.symm

private theorem readsCode_cases {code : List Char} {c : Char} (h : ReadsCode code c) :
    ∃ sign own n, (sign = [] ∨ sign = ['+']) ∧ (hexNumber? own = some n ∧ n.isValidChar) ∧
      (code = sign ++ own ∧ code.length = 4 ∨ code = '\x7b' :: (sign ++ own ++ ['\x7d'])) := by
  unfold ReadsCode unicodeEscape at h
  split at h
  · next inner =>
    obtain ⟨hc, hlen⟩ := Prod.mk.inj h
    obtain ⟨sign, own, n, hsign, hdigits, hn⟩ := codePoint?_eq_some hc
    have hinner := eq_append_brace inner (by simpa using hlen)
    rw [hdigits] at hinner
    exact ⟨sign, own, n, hsign, hn, .inr (by rw [← hinner])⟩
  · split at h
    · simp at h
    · obtain ⟨hc, hlen⟩ := Prod.mk.inj h
      rw [List.take_of_length_le (by omega)] at hc
      obtain ⟨sign, own, n, hsign, hdigits, hn⟩ := codePoint?_eq_some hc
      exact ⟨sign, own, n, hsign, hn, .inl ⟨hdigits, hlen.symm⟩⟩

/-- Nothing but digits and a sign stands in a code, between the braces. -/
private theorem ne_of_mem_signed {sign own : List Char} {n : Nat} (hsign : sign = [] ∨ sign = ['+'])
    (hn : hexNumber? own = some n) {d e : Char} (hd : d ∈ sign ++ own) (he : hexDigit? e = none) (hplus : e ≠ '+') :
    d ≠ e := by
  rintro rfl
  obtain hd | hd := List.mem_append.1 hd
  · obtain rfl | rfl := hsign
    · contradiction
    · exact hplus (List.mem_singleton.1 hd)
  · have hsome := (isSome_hexDigit?_of_hexNumber? hn).2 d hd
    rw [he] at hsome
    contradiction

private theorem ReadsCode.isExactCode_iff {code : List Char} {c : Char} (h : ReadsCode code c) :
    IsExactCode code ↔ isSignedCode code = false := by
  constructor
  · rintro ⟨digits, n, hshape, hhex, _⟩
    have hne {d : Char} (hd : hexDigit? d = none) : digits.head? ≠ some d := fun hhead => by
      have hsome := hhex d (List.mem_of_head? hhead)
      rw [hd] at hsome
      contradiction
    have hplus := hne (d := '+') (by decide)
    obtain ⟨rfl, _⟩ | ⟨rfl, hdigits⟩ := hshape
    · simp [isSignedCode, hplus, hne (d := '\x7b') (by decide)]
    · obtain ⟨d, digits, rfl⟩ := List.exists_cons_of_ne_nil hdigits
      simpa [isSignedCode] using hplus
  · intro hsigned
    obtain ⟨sign, own, n, rfl | rfl, hn, hcode⟩ := readsCode_cases h
    · obtain ⟨hne, hhex⟩ := isSome_hexDigit?_of_hexNumber? hn.1
      refine ⟨own, n, ?_, hhex, hn⟩
      obtain ⟨rfl, hlen⟩ | rfl := hcode
      · exact .inl ⟨rfl, hlen⟩
      · exact .inr ⟨rfl, hne⟩
    · obtain ⟨rfl, _⟩ | rfl := hcode <;> contradiction

private theorem ReadsCode.escapeCode_append {code : List Char} {c : Char} (h : ReadsCode code c) (rest : List Char) :
    escapeCode (code ++ rest) = code := by
  obtain ⟨sign, own, n, hsign, hn, ⟨hcode, hlen⟩ | hcode⟩ := readsCode_cases h
  · cases code with
    | nil => contradiction
    | cons d code =>
      have hd : d ≠ '\x7b' :=
        ne_of_mem_signed hsign hn.1 (hcode ▸ List.mem_cons_self) (by decide) (by decide)
      rw [escapeCode, if_neg (by simpa using hd), ← hlen, List.take_left]
  · have hdigits : ∀ d ∈ '\x7b' :: (sign ++ own), decide (d ≠ '\x7d') = true := by
      refine List.forall_mem_cons.2 ⟨by decide, fun d hd => decide_eq_true ?_⟩
      exact ne_of_mem_signed hsign hn.1 hd (by decide) (by decide)
    have hwhole : code ++ rest = '\x7b' :: (sign ++ own) ++ '\x7d' :: rest := by simp [hcode]
    have hlen : (('\x7b' :: (sign ++ own)).length + 1) = code.length := by simp [hcode, Nat.add_assoc]
    rw [escapeCode, if_pos (by rw [hcode]; rfl), hwhole, List.takeWhile_append_of_pos hdigits,
      List.takeWhile_cons_of_neg (by decide), List.append_nil, hlen, ← hwhole, List.take_left]

private theorem ClosedBy.append {quote : Char} {front own : List Char} (h : ClosedBy quote own)
    (hfront : ∀ c ∈ front, c ≠ quote ∧ c ≠ '\\') : ClosedBy quote (front ++ own) := by
  induction front with
  | nil => exact h
  | cons c front ih =>
    obtain ⟨hc, hfront⟩ := List.forall_mem_cons.1 hfront
    exact .plain hc.1 hc.2 (ih hfront)

/-- Nothing but digits, signs and braces belongs to a code. -/
theorem ReadsCode.not_mem {code : List Char} {c e : Char} (h : ReadsCode code c) (he : hexDigit? e = none)
    (hmarks : e ∉ ['+', '\x7b', '\x7d']) : e ∉ code := by
  simp only [List.mem_cons, List.not_mem_nil, or_false, not_or] at hmarks
  obtain ⟨sign, own, n, hsign, hn, hcode⟩ := readsCode_cases h
  have hdigits : e ∉ sign ++ own := fun hm => ne_of_mem_signed hsign hn.1 hm he hmarks.1 rfl
  obtain ⟨rfl, _⟩ | rfl := hcode
  · exact hdigits
  · intro hm
    obtain rfl | hm := List.mem_cons.1 hm
    · exact hmarks.2.1 rfl
    · exact (List.mem_append.1 hm).elim hdigits fun hm => hmarks.2.2 (List.mem_singleton.1 hm)

/-- Neither quotes nor backslashes belong to a code. -/
theorem ReadsCode.ne_of_mem {code : List Char} {c quote : Char} (h : ReadsCode code c) (hq : isQuote quote = true) :
    ∀ d ∈ code, d ≠ quote ∧ d ≠ '\\' := by
  have hquote : quote ∉ code := by
    obtain rfl | rfl : quote = '"' ∨ quote = '\'' := by simpa [isQuote] using hq
    all_goals exact h.not_mem (by decide) (by decide)
  have hbackslash : '\\' ∉ code := h.not_mem (by decide) (by decide)
  exact fun d hd => ⟨fun heq => hquote (heq ▸ hd), fun heq => hbackslash (heq ▸ hd)⟩

/-! ## What the scanner reads -/

section

variable {quote : Char} {own text : List Char}

/-- Of what stands behind an opening quote, only the last character closes the literal. -/
theorem StringTail.closedBy (h : StringTail quote own text) (hq : isQuote quote = true) : ClosedBy quote own := by
  induction h with
  | closing => exact .last
  | plain _ hc hb _ ih => exact .plain hc hb ih
  | escaped _ _ _ ih => exact .escape ih
  | continued _ ih => exact .escape ih
  | code hcode _ ih => exact .escape (ih.append (hcode.ne_of_mem hq))

private theorem escapeCodes_cons {c : Char} (hc : c ≠ '\\') (cs : List Char) :
    escapeCodes (c :: cs) = escapeCodes cs := by
  cases cs with
  | nil => simp [escapeCodes]
  | cons e cs => rw [escapeCodes, if_neg hc]

private theorem escapeCodes_escape {c : Char} (hc : c ≠ 'u') (cs : List Char) :
    escapeCodes ('\\' :: c :: cs) = escapeCodes cs := by
  rw [escapeCodes, if_pos rfl, if_neg hc]

private theorem escapeCodes_code {code : List Char} {c : Char} (h : ReadsCode code c) (cs : List Char) :
    escapeCodes ('\\' :: 'u' :: (code ++ cs)) = code :: escapeCodes cs := by
  rw [escapeCodes, if_pos rfl, if_pos rfl, h.escapeCode_append, List.drop_left]

/-- The codes in the tail of a literal are those that the scanner reads. -/
theorem StringTail.readsCode (h : StringTail quote own text) :
    ∀ code ∈ escapeCodes own, ∃ c, ReadsCode code c := by
  induction h with
  | closing => simp [escapeCodes]
  | plain _ _ hb _ ih => rwa [escapeCodes_cons hb]
  | escaped hu _ _ ih => rwa [escapeCodes_escape hu]
  | continued _ ih => rwa [escapeCodes_escape (by decide)]
  | code hcode _ ih =>
    rw [escapeCodes_code hcode]
    exact List.forall_mem_cons.2 ⟨⟨_, hcode⟩, ih⟩

/-- The codes are exact but for a sign. -/
theorem StringTail.isExactCode_iff (h : StringTail quote own text) {code : List Char} (hm : code ∈ escapeCodes own) :
    IsExactCode code ↔ isSignedCode code = false := by
  obtain ⟨c, hcode⟩ := h.readsCode code hm
  exact hcode.isExactCode_iff

end

end ScriptModules.Script
