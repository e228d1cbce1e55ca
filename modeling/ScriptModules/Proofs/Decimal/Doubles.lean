import Mathlib.Algebra.Group.Nat.Defs
import ScriptModules.Decimal.Read
import ScriptModules.Decimal.Binary

/-!
# The parts of doubles

Two readings of a double.  `Binary.ofFloat` takes sign, mantissa and exponent off its bits, and the arithmetic of
doubles takes it apart and puts it together (`Float.Model.unpack`, `Float.Model.pack`).  They agree
(`Binary.ofFloat_eq`), so that what the arithmetic gives can be read off the bits: which results are finite, and that
finite doubles with the same parts are equal (`Binary.beq_of_ofFloat`).
-/

namespace ScriptModules.Decimal.Binary

open Float.Model Float.Model.UnpackedFloat

/-! ## The parts of a double -/

/-- Is it the sign of negative numbers? -/
def isNegative : Sign → Bool
  | .negative => true
  | .positive => false

/-- What a double stands for that is taken apart. -/
def ofUnpacked : UnpackedFloat → Binary
  | .notANumber => .nan
  | .infinity sign => .infinite (isNegative sign)
  | .zero sign => .finite (isNegative sign) 0 leastExponent
  | .finite sign m q _ => .finite (isNegative sign) m q

section Bits

variable (bits : BitVec Format.binary64.numBits)

private theorem toNat_unpackMantissa : (unpackMantissa bits).toNat = bits.toNat % 2 ^ 52 := by
  simp [unpackMantissa]

private theorem toNat_unpackExponent : (unpackExponent bits).toNat = bits.toNat / 2 ^ 52 % 2 ^ 11 := by
  simp [unpackExponent, Nat.shiftRight_eq_div_pow]

private theorem isNegative_unpackSign :
    isNegative (Sign.ofBitVec (unpackSign bits)) = decide (2 ^ 63 ≤ bits.toNat) := by
  have hlt : bits.toNat < 2 ^ 64 := bits.isLt
  have hsign : (unpackSign bits).toNat = bits.toNat / 2 ^ 63 := by
    unfold unpackSign
    simp [Nat.shiftRight_eq_div_pow]
    omega
  by_cases h : 2 ^ 63 ≤ bits.toNat
  · have hne : unpackSign bits ≠ 0#1 := fun heq => by
      rw [heq] at hsign
      simp at hsign
      omega
    rw [decide_eq_true h]
    simp [Sign.ofBitVec, hne, isNegative]
  · have heq : unpackSign bits = 0#1 := BitVec.eq_of_toNat_eq (by rw [hsign]; simp; omega)
    rw [decide_eq_false h]
    simp [Sign.ofBitVec, heq, isNegative]

/-- The leading digit of a mantissa is left out of the bits. -/
private theorem toNat_one_append (mantissa : BitVec 52) : (1#1 ++ mantissa).toNat = 2 ^ 52 + mantissa.toNat := by
  rw [BitVec.toNat_append, ← Nat.shiftLeft_add_eq_or_of_lt mantissa.isLt]
  rfl

end Bits

/-- The bits are read as the parts that the double is taken apart into. -/
theorem ofFloat_eq (x : Float) : ofFloat x = ofUnpacked x.toModel.unpack := by
  let bits : BitVec Format.binary64.numBits := x.toModel.toBits.toBitVec
  have hbits : x.toBits.toNat = bits.toNat := rfl
  have hmantissa := toNat_unpackMantissa bits
  have hexponent := toNat_unpackExponent bits
  have hall : unpackExponent bits = -1#_ ↔ bits.toNat / 2 ^ 52 % 2 ^ 11 = 2047 := by
    rw [← hexponent, ← BitVec.toNat_inj]
    rfl
  have hnone : unpackExponent bits = 0#_ ↔ bits.toNat / 2 ^ 52 % 2 ^ 11 = 0 := by
    rw [← hexponent, ← BitVec.toNat_inj]
    rfl
  have hzero : unpackMantissa bits = 0#_ ↔ bits.toNat % 2 ^ 52 = 0 := by
    rw [← hmantissa, ← BitVec.toNat_inj]
    rfl
  have hbias : (Format.binary64.exponentBias : Int) + Format.binary64.mantissaBitsWithoutImplicit = 1075 := rfl
  change ofFloat x = ofUnpacked (UnpackedFloat.unpack Format.binary64 bits)
  unfold ofFloat
  simp only [hbits, Nat.pow_eq, ← isNegative_unpackSign]
  unfold UnpackedFloat.unpack
  dsimp only
  by_cases hinfinite : bits.toNat / 2 ^ 52 % 2 ^ 11 = 2047
  · rw [if_pos hinfinite, if_pos (hall.2 hinfinite)]
    by_cases hfraction : bits.toNat % 2 ^ 52 = 0
    · rw [if_pos hfraction, if_pos (hzero.2 hfraction)]
      rfl
    · rw [if_neg hfraction, if_neg (mt hzero.1 hfraction)]
      rfl
  · rw [if_neg hinfinite, if_neg (mt hall.1 hinfinite)]
    by_cases hshort : bits.toNat / 2 ^ 52 % 2 ^ 11 = 0
    · rw [if_pos hshort, if_pos (hnone.2 hshort)]
      by_cases hfraction : bits.toNat % 2 ^ 52 = 0
      · rw [dif_pos (hzero.2 hfraction), hfraction]
        rfl
      · rw [dif_neg (mt hzero.1 hfraction)]
        refine (finite.injEq ..).mpr ⟨rfl, hmantissa.symm, ?_⟩
        rw [hexponent, hshort, hbias]
        rfl
    · rw [if_neg hshort, if_neg (mt hnone.1 hshort)]
      refine (finite.injEq ..).mpr ⟨rfl, ((toNat_one_append _).trans (congrArg _ hmantissa)).symm, ?_⟩
      rw [hexponent, hbias]

/-- The mantissas and exponents of finite doubles. -/
structure Canonical (m : Nat) (q : Int) : Prop where
  mantissa_lt : m < 2 ^ 53
  least_le : leastExponent ≤ q
  le_greatest : q ≤ 971
  /-- Only with the least exponent the mantissa may be short. -/
  normal : 2 ^ 52 ≤ m ∨ q = leastExponent

/-- A finite double has a mantissa and an exponent in canonical form. -/
theorem canonical_of_ofFloat {x : Float} {negative : Bool} {m : Nat} {q : Int}
    (h : ofFloat x = .finite negative m q) : Canonical m q := by
  unfold ofFloat at h
  have hfraction := Nat.mod_lt x.toBits.toNat (Nat.two_pow_pos 52)
  have hbiased := Nat.mod_lt (x.toBits.toNat / 2 ^ 52) (Nat.two_pow_pos 11)
  simp only [Nat.pow_eq] at h
  generalize x.toBits.toNat % 2 ^ 52 = fraction at *
  generalize x.toBits.toNat / 2 ^ 52 % 2 ^ 11 = biased at *
  split at h
  · split at h <;> contradiction
  · split at h
    · obtain ⟨-, rfl, rfl⟩ := finite.inj h
      exact ⟨by omega, Int.le_refl _, by decide, .inr rfl⟩
    · obtain ⟨-, rfl, rfl⟩ := finite.inj h
      exact ⟨by omega, by unfold leastExponent; omega, by omega, .inl (by omega)⟩

/-! ## Doubles that are put together -/

private theorem ofBitVec_unpackSign_packComponents (sign : Sign) (exponent : BitVec Format.binary64.exponentBits)
    (mantissa : BitVec Format.binary64.mantissaBitsWithoutImplicit) :
    Sign.ofBitVec (unpackSign (packComponents Format.binary64 sign exponent mantissa)) = sign := by
  have hbit : unpackSign (packComponents Format.binary64 sign exponent mantissa) = sign.toBitVec := by
    refine BitVec.eq_of_getLsbD_eq fun i hi => ?_
    obtain rfl : i = 0 := by omega
    unfold unpackSign packComponents
    simp only [BitVec.extractLsb, BitVec.getLsbD_cast, BitVec.getLsbD_extractLsb']
    rw [BitVec.getLsbD_append, if_neg (by decide), BitVec.getLsbD_append, if_neg (by decide)]
    simp
  rw [hbit]
  cases sign <;> rfl

/-- Behind the leading digit of a full mantissa there are 52 more. -/
theorem log2_eq {m : Nat} (hlo : 2 ^ 52 ≤ m) (hhi : m < 2 ^ 53) : m.log2 = 52 :=
  (Nat.log2_eq_iff (by omega)).2 ⟨hlo, hhi⟩

/-- A double that is put together of parts with the leading digit is taken apart into them. -/
theorem unpack_pack {sign : Sign} {m : Nat} {q : Int} (hm : 0 < m) (h : Canonical m q) (hnormal : 2 ^ 52 ≤ m) :
    (Float.Model.pack (.finite sign m q hm)).unpack = .finite sign m q hm := by
  obtain ⟨hlt, hleast, hgreatest, -⟩ := h
  unfold leastExponent at hleast
  obtain ⟨biased, rfl⟩ : ∃ biased : Nat, q = biased - 1075 := ⟨(q + 1075).toNat, by omega⟩
  have hbiased : ((biased - 1075 : Int) + Format.binary64.exponentBias +
      Format.binary64.mantissaBitsWithoutImplicit).toNat = biased := by
    have hbias : (Format.binary64.exponentBias : Int) = 1023 := rfl
    have hbits : (Format.binary64.mantissaBitsWithoutImplicit : Int) = 52 := rfl
    omega
  have hpack : UnpackedFloat.pack Format.binary64 (.finite sign m (biased - 1075) hm) =
      packComponents Format.binary64 sign (BitVec.ofNat _ biased) (BitVec.ofNat _ m) := by
    unfold UnpackedFloat.pack
    dsimp only
    rw [hbiased, if_neg, if_pos]
    · rw [log2_eq hnormal hlt]
      rfl
    · omega
  have hexponent : (BitVec.ofNat Format.binary64.exponentBits biased).toNat = biased := by
    rw [BitVec.toNat_ofNat]
    exact Nat.mod_eq_of_lt (show biased < 2 ^ 11 by omega)
  have hall : BitVec.ofNat Format.binary64.exponentBits biased ≠ -1#_ := fun heq => by
    have hone : biased = 2047 := hexponent ▸ congrArg BitVec.toNat heq
    omega
  have hnone : BitVec.ofNat Format.binary64.exponentBits biased ≠ 0#_ := fun heq => by
    have hzero : biased = 0 := hexponent ▸ congrArg BitVec.toNat heq
    omega
  change UnpackedFloat.unpack Format.binary64 (UnpackedFloat.pack Format.binary64 _) = _
  rw [hpack]
  unfold UnpackedFloat.unpack
  dsimp only
  rw [if_neg (unpackExponent_packComponents ▸ hall), if_neg (unpackExponent_packComponents ▸ hnone)]
  refine (UnpackedFloat.finite.injEq ..).mpr ⟨ofBitVec_unpackSign_packComponents .., ?_, ?_⟩
  · rw [unpackMantissa_packComponents]
    refine (toNat_one_append (BitVec.ofNat 52 m)).trans ?_
    rw [BitVec.toNat_ofNat]
    omega
  · rw [unpackExponent_packComponents, hexponent]
    rfl

/-! ## Finite doubles -/

variable {x y : Float} {negative negative' : Bool} {m : Nat} {q : Int}

theorem isFinite_iff : x.isFinite = true ↔ ∃ negative m q, ofFloat x = .finite negative m q := by
  rw [ofFloat_eq]
  change x.toModel.unpack.isFinite = true ↔ _
  cases x.toModel.unpack with
  | finite sign m q hm => exact ⟨fun _ => ⟨_, _, _, rfl⟩, fun _ => rfl⟩
  | zero sign => exact ⟨fun _ => ⟨_, _, _, rfl⟩, fun _ => rfl⟩
  | infinity | notANumber =>
    refine ⟨fun h => absurd h Bool.false_ne_true, ?_⟩
    rintro ⟨_, _, _, h⟩
    cases h

private theorem isFinite_unpack {bits : BitVec Format.binary64.numBits} (h : unpackExponent bits ≠ -1#_) :
    (UnpackedFloat.unpack Format.binary64 bits).isFinite = true := by
  unfold UnpackedFloat.unpack
  dsimp only
  rw [if_neg h]
  by_cases hnone : unpackExponent bits = 0#_
  · rw [if_pos hnone]
    by_cases hzero : unpackMantissa bits = 0#_
    · rw [dif_pos hzero]
      rfl
    · rw [dif_neg hzero]
      rfl
  · rw [if_neg hnone]
    rfl

/-- What is put together is finite, if its exponent is not too great. -/
theorem isFinite_pack {sign : Sign} (hm : 0 < m) (hq : q ≤ 971) :
    (Float.ofModel (Float.Model.pack (.finite sign m q hm))).isFinite = true := by
  have hexponent : unpackExponent (UnpackedFloat.pack Format.binary64 (.finite sign m q hm)) ≠ -1#_ := by
    have hbias : (Format.binary64.exponentBias : Int) = 1023 := rfl
    have hbits : (Format.binary64.mantissaBitsWithoutImplicit : Int) = 52 := rfl
    unfold UnpackedFloat.pack
    dsimp only
    split
    · next h =>
      change 2 ^ 11 ≤ _ at h
      omega
    · next h =>
      split
      · rw [unpackExponent_packComponents]
        intro heq
        have htoNat := congrArg BitVec.toNat heq
        rw [BitVec.toNat_ofNat] at htoNat
        change _ % 2 ^ 11 = 2047 at htoNat
        change ¬2 ^ 11 ≤ _ at h
        omega
      · rw [unpackExponent_packComponents]
        decide
  exact isFinite_unpack hexponent

/-- What a finite double is taken apart into. -/
theorem unpack_of_ofFloat (h : ofFloat x = .finite negative m q) :
    (m = 0 ∧ ∃ sign, x.toModel.unpack = .zero sign) ∨
      ∃ sign hm, isNegative sign = negative ∧ x.toModel.unpack = .finite sign m q hm := by
  rw [ofFloat_eq] at h
  cases hunpack : x.toModel.unpack with
  | infinity | notANumber =>
    rw [hunpack] at h
    contradiction
  | zero sign =>
    rw [hunpack] at h
    exact .inl ⟨(finite.inj h).2.1.symm, sign, rfl⟩
  | finite sign m' q' hm =>
    rw [hunpack] at h
    obtain ⟨hsign, rfl, rfl⟩ := finite.inj h
    exact .inr ⟨sign, hm, hsign, rfl⟩

theorem isFinite_neg (h : x.isFinite = true) : (-x).isFinite = true := by
  obtain ⟨negative, m, q, hx⟩ := isFinite_iff.1 h
  change (Float.ofModel (Float.Model.pack x.toModel.unpack.neg)).isFinite = true
  obtain ⟨-, sign, hunpack⟩ | ⟨sign, hm, -, hunpack⟩ := unpack_of_ofFloat hx
  · rw [hunpack]
    cases sign <;> rfl
  · rw [hunpack]
    exact isFinite_pack hm (canonical_of_ofFloat hx).le_greatest

/-- Finite doubles are equal if they have the same size and, unless it is zero, the same sign. -/
theorem beq_of_ofFloat (hx : ofFloat x = .finite negative m q) (hy : ofFloat y = .finite negative' m q)
    (h : m = 0 ∨ negative = negative') : (x == y) = true := by
  change x.toModel.unpack.beq y.toModel.unpack = true
  obtain ⟨hm, sign, hunpack⟩ | ⟨sign, hm, hsign, hunpack⟩ := unpack_of_ofFloat hx
  · obtain ⟨_, sign', hunpack'⟩ | ⟨_, hm', _⟩ := unpack_of_ofFloat hy
    · rw [hunpack, hunpack']
      rfl
    · exact absurd hm (Nat.ne_of_gt hm')
  · obtain ⟨hm', _⟩ | ⟨sign', _, hsign', hunpack'⟩ := unpack_of_ofFloat hy
    · exact absurd hm' (Nat.ne_of_gt hm)
    · have heq : isNegative sign = isNegative sign' :=
        hsign.trans ((h.resolve_left (Nat.ne_of_gt hm)).trans hsign'.symm)
      rw [hunpack, hunpack']
      change (UnpackedFloat.compare _ _ == some .eq) = true
      unfold UnpackedFloat.compare
      cases sign <;> cases sign' <;> first | contradiction | (dsimp only; simp)

/-- A finite number is equal to itself, as all numbers but NaN are. -/
theorem beq_self (h : x.isFinite = true) : (x == x) = true := by
  obtain ⟨negative, m, q, hx⟩ := isFinite_iff.1 h
  exact beq_of_ofFloat hx hx (.inr rfl)

/-! ## Order -/

private theorem compare_swap (a b : UnpackedFloat) : b.compare a = (a.compare b).map Ordering.swap := by
  have hints (q r : Int) : compare r q = (compare q r).swap := (Std.OrientedOrd.eq_swap : compare r q = _)
  have hnats (m n : Nat) : compare n m = (compare m n).swap := (Std.OrientedOrd.eq_swap : compare n m = _)
  cases a with
  | notANumber => cases b <;> rfl
  | infinity sign =>
    cases b with
    | infinity sign' => cases sign <;> cases sign' <;> rfl
    | _ => cases sign <;> rfl
  | zero sign =>
    cases b with
    | infinity sign' | finite sign' m' q' hm' => cases sign' <;> rfl
    | _ => rfl
  | finite sign m q hm =>
    cases b with
    | finite sign' m' q' hm' =>
      unfold UnpackedFloat.compare
      cases sign <;> cases sign' <;> dsimp only <;> simp [hints q, hnats m, Ordering.swap_then]
    | infinity sign' => cases sign' <;> rfl
    | notANumber => rfl
    | zero sign' => cases sign <;> rfl

/-- Which of two doubles comes first does not matter for their equality. -/
theorem beq_comm (x y : Float) : (x == y) = (y == x) := by
  change (x.toModel.unpack.compare y.toModel.unpack == some .eq) = (y.toModel.unpack.compare x.toModel.unpack == some .eq)
  rw [compare_swap x.toModel.unpack]
  cases x.toModel.unpack.compare y.toModel.unpack with
  | none => rfl
  | some order => cases order <;> rfl

end ScriptModules.Decimal.Binary
