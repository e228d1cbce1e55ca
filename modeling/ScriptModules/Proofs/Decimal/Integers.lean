import ScriptModules.Proofs.Decimal.Doubles

/-!
# Integers as doubles

Up to `2 ^ 53` each integer is a double, whose mantissa is the integer with zeros behind it (`Binary.ofFloat_ofInt`).
No step of the conversion rounds it: the rounding only drops zeros (`Binary.roundWithAccuracy_eq`).  So the integer that
such a double is cut off to is the one it was made of (`Binary.truncate?_ofInt`), and the other way round
(`Binary.truncate_beq_ofInt`), and the double of a sum is the sum of the doubles (`Binary.ofInt_add`).  Words beyond are
rounded, but finite (`Binary.isFinite_ofInt`).
-/

namespace ScriptModules.Decimal.Binary

open Float.Model Float.Model.UnpackedFloat

/-! ## Exact rounding -/

private theorem targetExponent_eq (m : Nat) (q : Int) :
    Format.binary64.targetExponent (totalExponent m q) = max (m.log2 + 1 + q - 53) (-1074) := rfl

private theorem log2_mul_pow {m : Nat} (hm : 0 < m) (k : Nat) : (m * 2 ^ k).log2 = m.log2 + k := by
  have hpow := Nat.two_pow_pos k
  refine (Nat.log2_eq_iff (Nat.ne_of_gt (Nat.mul_pos hm hpow))).2 ⟨?_, ?_⟩
  · rw [Nat.pow_add]
    exact Nat.mul_le_mul_right _ (Nat.log2_self_le (Nat.ne_of_gt hm))
  · rw [Nat.add_right_comm, Nat.pow_add]
    exact Nat.mul_lt_mul_of_pos_right Nat.lt_log2_self hpow

private theorem repeat_shiftRightOne (m k : Nat) :
    k.repeat ExtendedMantissa.shiftRightOne ⟨m * 2 ^ k, false, false⟩ = ⟨m, false, false⟩ := by
  induction k generalizing m with
  | zero => simp [Nat.repeat]
  | succ k ih =>
    have hmul : m * 2 ^ (k + 1) = 2 * m * 2 ^ k := by rw [Nat.pow_succ]; ac_rfl
    rw [Nat.repeat, hmul, ih]
    simp [ExtendedMantissa.shiftRightOne]

private theorem shiftToTargetExponent_eq {m : Nat} (hlo : 2 ^ 52 ≤ m) (hhi : m < 2 ^ 53) {q : Int}
    (hq : leastExponent ≤ q) (k : Nat) :
    shiftToTargetExponent Format.binary64 (m * 2 ^ k) (q - k) .exact = (⟨m, false, false⟩, q) := by
  have htarget : Format.binary64.targetExponent (totalExponent (m * 2 ^ k) (q - k)) = q := by
    unfold leastExponent at hq
    rw [targetExponent_eq, log2_mul_pow (by omega), log2_eq hlo hhi]
    omega
  have hshift : (q - (q - k)).toNat = k := by omega
  unfold shiftToTargetExponent shiftToExponent
  dsimp only
  rw [htarget, hshift, Int.sub_add_cancel]
  exact congrArg (·, q) (repeat_shiftRightOne m k)

/-- What has a mantissa of the right size, up to zeros behind it, is not changed when it is rounded. -/
theorem roundWithAccuracy_eq (sign : Sign) {m : Nat} (hlo : 2 ^ 52 ≤ m) (hhi : m < 2 ^ 53) {q : Int}
    (hq : leastExponent ≤ q) (k : Nat) :
    roundWithAccuracy Format.binary64 sign (m * 2 ^ k) (q - k) .exact = .finite sign m q (by omega) := by
  have hrounded : (ExtendedMantissa.mk m false false).roundedMantissa = m := rfl
  have hagain : shiftToTargetExponent Format.binary64 m q .exact = (⟨m, false, false⟩, q) := by
    simpa using shiftToTargetExponent_eq hlo hhi hq 0
  unfold roundWithAccuracy
  rw [shiftToTargetExponent_eq hlo hhi hq]
  dsimp only
  rw [hrounded, hagain]
  exact dif_neg (show ¬m = 0 by omega)

/-! ## Small integers -/

/-- The mantissa of an integer, which starts with its leading digit. -/
def mantissaOf (n : Nat) : Nat := n * 2 ^ (52 - n.log2)

/-- The exponent of an integer. -/
def exponentOf (n : Nat) : Int := n.log2 - 52

section Small

variable {n : Nat}

private theorem log2_le (h : n < 2 ^ 53) : n.log2 ≤ 52 := by
  by_cases hn : n = 0
  · rw [hn]
    decide
  · exact Nat.le_of_lt_succ ((Nat.log2_lt hn).2 h)

private theorem le_mantissaOf (hn : 0 < n) (h : n < 2 ^ 53) : 2 ^ 52 ≤ mantissaOf n := by
  have hle := log2_le h
  calc 2 ^ 52 = 2 ^ n.log2 * 2 ^ (52 - n.log2) := by rw [← Nat.pow_add]; congr 1; omega
    _ ≤ mantissaOf n := Nat.mul_le_mul_right _ (Nat.log2_self_le (Nat.ne_of_gt hn))

private theorem mantissaOf_lt (h : n < 2 ^ 53) : mantissaOf n < 2 ^ 53 := by
  have hle := log2_le h
  calc mantissaOf n < 2 ^ (n.log2 + 1) * 2 ^ (52 - n.log2) :=
        Nat.mul_lt_mul_of_pos_right Nat.lt_log2_self (Nat.two_pow_pos _)
    _ = 2 ^ 53 := by rw [← Nat.pow_add]; congr 1; omega

private theorem least_le_exponentOf (n : Nat) : leastExponent ≤ exponentOf n := by
  unfold leastExponent exponentOf
  omega

private theorem canonical_mantissaOf (hn : 0 < n) (h : n < 2 ^ 53) : Canonical (mantissaOf n) (exponentOf n) := by
  refine ⟨mantissaOf_lt h, least_le_exponentOf n, ?_, .inl (le_mantissaOf hn h)⟩
  have hle := log2_le h
  unfold exponentOf
  omega

private theorem mantissaOf_pos (hn : 0 < n) : 0 < mantissaOf n := Nat.mul_pos hn (Nat.two_pow_pos _)

/-- An integer with any number of zeros behind it is rounded to the same mantissa. -/
private theorem round_eq (sign : Sign) (hn : 0 < n) (h : n < 2 ^ 53) (k : Nat) :
    UnpackedFloat.round Format.binary64 sign (n * 2 ^ k) (-k) =
      .finite sign (mantissaOf n) (exponentOf n) (mantissaOf_pos hn) := by
  have hle := log2_le h
  obtain ⟨j, hj⟩ := Nat.le.dest (Nat.le_max_right k (52 - n.log2))
  have hshift : (-k - Format.binary64.targetExponent (totalExponent (n * 2 ^ k) (-k))).toNat = 52 - n.log2 - k := by
    rw [targetExponent_eq, log2_mul_pow hn]
    omega
  have hdecrease : decreaseExponent (n * 2 ^ k) (-k) (Format.binary64.targetExponent (totalExponent (n * 2 ^ k) (-k))) =
      (mantissaOf n * 2 ^ j, exponentOf n - j) := by
    unfold decreaseExponent
    simp only [hshift, Nat.shiftLeft_eq]
    refine Prod.ext ?_ ?_
    · change n * 2 ^ k * 2 ^ (52 - n.log2 - k) = n * 2 ^ (52 - n.log2) * 2 ^ j
      rw [Nat.mul_assoc, Nat.mul_assoc, ← Nat.pow_add, ← Nat.pow_add, hj, Nat.max_def]
      congr 2
      split <;> omega
    · change -(k : Int) - ((52 - n.log2 - k : Nat) : Int) = exponentOf n - j
      unfold exponentOf
      omega
  unfold UnpackedFloat.round
  dsimp only
  rw [hdecrease]
  exact roundWithAccuracy_eq sign (le_mantissaOf hn h) (mantissaOf_lt h) (least_le_exponentOf n) j

private theorem unpack_toFloat (hn : 0 < n) (h : n < 2 ^ 53) :
    n.toUInt64.toFloat.toModel.unpack =
      .finite .positive (mantissaOf n) (exponentOf n) (mantissaOf_pos hn) := by
  have htoNat : n.toUInt64.toNat = n := by
    rw [Nat.toUInt64_eq, UInt64.toNat_ofNat']
    omega
  have hround : UnpackedFloat.ofUInt64 Format.binary64 n.toUInt64 =
      .finite .positive (mantissaOf n) (exponentOf n) (mantissaOf_pos hn) := by
    unfold UnpackedFloat.ofUInt64 UnpackedFloat.ofNat UnpackedFloat.ofInt UnpackedFloat.normalize
    rw [htoNat, Int.compare_eq_gt.2 (Int.natCast_pos.2 hn)]
    have hround := round_eq .positive hn h 0
    rw [Nat.pow_zero, Nat.mul_one] at hround
    exact hround
  change (Float.Model.pack (UnpackedFloat.ofUInt64 Format.binary64 n.toUInt64)).unpack = _
  rw [hround]
  exact unpack_pack _ (canonical_mantissaOf hn h) (le_mantissaOf hn h)

private theorem unpack_one : (Float.ofBits 0x3FF0000000000000).toModel.unpack =
    .finite .positive (2 ^ 52) (-52) (Nat.two_pow_pos 52) := rfl

private theorem nearest_eq (hn : 0 < n) (h : n < 2 ^ 64) : nearest n 0 = Float.ofScientific n false 0 := by
  have hdigits : (Nat.toDigits 10 n).length ≤ 20 :=
    (Nat.length_toDigits_le_iff (by decide) (by decide)).2 (Nat.lt_trans h (by decide))
  unfold nearest
  rw [if_neg, if_neg]
  · rfl
  · omega
  · simp [Nat.ne_of_gt hn]

private theorem nearest_eq_pack (hn : 0 < n) (h : n < 2 ^ 53) : nearest n 0 =
    .ofModel (.pack (.finite .positive (mantissaOf n) (exponentOf n) (mantissaOf_pos hn))) := by
  have hmul : UnpackedFloat.mul Format.binary64 (.finite .positive (mantissaOf n) (exponentOf n) (mantissaOf_pos hn))
      (.finite .positive (2 ^ 52) (-52) (Nat.two_pow_pos 52)) =
        .finite .positive (mantissaOf n) (exponentOf n) (mantissaOf_pos hn) :=
    roundWithAccuracy_eq .positive (le_mantissaOf hn h) (mantissaOf_lt h) (least_le_exponentOf n) 52
  rw [nearest_eq hn (Nat.lt_trans h (by decide))]
  unfold Float.ofScientific
  rw [dif_pos ⟨h, by decide⟩]
  change Float.ofModel (Float.Model.pack (UnpackedFloat.mul Format.binary64 n.toUInt64.toFloat.toModel.unpack
    (Float.ofBits 0x3FF0000000000000).toModel.unpack)) = _
  rw [unpack_toFloat hn h, unpack_one, hmul]

private theorem unpack_nearest (hn : 0 < n) (h : n < 2 ^ 53) :
    (nearest n 0).toModel.unpack = .finite .positive (mantissaOf n) (exponentOf n) (mantissaOf_pos hn) := by
  rw [nearest_eq_pack hn h]
  exact unpack_pack _ (canonical_mantissaOf hn h) (le_mantissaOf hn h)

end Small

private theorem ofFloat_ofInt {n : Int} (hn : n ≠ 0) (h : n.natAbs < 2 ^ 53) :
    ofFloat (ofInt n) = .finite (decide (n < 0)) (mantissaOf n.natAbs) (exponentOf n.natAbs) := by
  have hpos := Int.natAbs_pos.2 hn
  have hcanonical := canonical_mantissaOf hpos h
  rw [ofFloat_eq, ofInt]
  by_cases hneg : n < 0
  · rw [if_pos hneg, decide_eq_true hneg]
    change ofUnpacked (Float.Model.pack (nearest n.natAbs 0).toModel.unpack.neg).unpack = _
    rw [unpack_nearest hpos h]
    change ofUnpacked (Float.Model.pack (.finite .negative _ _ _)).unpack = _
    rw [unpack_pack _ hcanonical (le_mantissaOf hpos h)]
    rfl
  · rw [if_neg hneg, decide_eq_false hneg, unpack_nearest hpos h]
    rfl

private theorem ofFloat_ofInt_zero : ofFloat (ofInt 0) = .finite false 0 leastExponent := by
  rfl

/-! ## Sums of small integers -/

private theorem ofInt_natCast (n : Nat) : ofInt n = nearest n 0 := if_neg (Int.not_lt.2 (Int.natCast_nonneg n))

private theorem decreaseExponent_mantissaOf {n k : Nat} (h : n < 2 ^ 53) (hk : -(k : Int) ≤ exponentOf n) :
    decreaseExponent (mantissaOf n) (exponentOf n) (-k) = (n * 2 ^ k, -(k : Int)) := by
  have hle := log2_le h
  have hshift : (exponentOf n - -k).toNat = k - (52 - n.log2) := by
    unfold exponentOf
    omega
  unfold exponentOf at hk
  unfold decreaseExponent
  simp only [hshift, Nat.shiftLeft_eq]
  refine Prod.ext ?_ ?_
  · change n * 2 ^ (52 - n.log2) * 2 ^ (k - (52 - n.log2)) = n * 2 ^ k
    rw [Nat.mul_assoc, ← Nat.pow_add]
    congr 2
    omega
  · change exponentOf n - ((k - (52 - n.log2) : Nat) : Int) = -k
    unfold exponentOf
    omega

private theorem add_eq {a b : Nat} (ha : 0 < a) (hb : 0 < b) (h : a + b < 2 ^ 53) :
    UnpackedFloat.add Format.binary64 (.finite .positive (mantissaOf a) (exponentOf a) (mantissaOf_pos ha))
        (.finite .positive (mantissaOf b) (exponentOf b) (mantissaOf_pos hb)) =
      .finite .positive (mantissaOf (a + b)) (exponentOf (a + b)) (mantissaOf_pos (Nat.add_pos_left ha b)) := by
  have hla := log2_le (show a < 2 ^ 53 by omega)
  have hlb := log2_le (show b < 2 ^ 53 by omega)
  -- The lesser exponent of the two.
  obtain ⟨k, hk⟩ : ∃ k : Nat, min (exponentOf a) (exponentOf b) = -k :=
    ⟨52 - min a.log2 b.log2, by unfold exponentOf; omega⟩
  have hsum : 0 < (a + b) * 2 ^ k := Nat.mul_pos (Nat.add_pos_left ha b) (Nat.two_pow_pos k)
  unfold UnpackedFloat.add
  dsimp only
  rw [hk, decreaseExponent_mantissaOf (by omega) (by omega), decreaseExponent_mantissaOf (by omega) (by omega)]
  change UnpackedFloat.normalize Format.binary64 (((a * 2 ^ k : Nat) : Int) + ((b * 2 ^ k : Nat) : Int)) (-k)
    .positive = _
  rw [← Int.natCast_add, ← Nat.add_mul]
  unfold UnpackedFloat.normalize
  rw [Int.compare_eq_gt.2 (Int.natCast_pos.2 hsum)]
  exact round_eq .positive (Nat.add_pos_left ha b) h k

/-- Doubles add integers of less than 53 digits exactly. -/
theorem ofInt_add {a b : Nat} (h : a + b < 2 ^ 53) : ofInt a + ofInt b = ofInt ((a + b : Nat) : Int) := by
  rw [ofInt_natCast, ofInt_natCast, ofInt_natCast]
  change Float.ofModel (Float.Model.pack (UnpackedFloat.add Format.binary64 (nearest a 0).toModel.unpack
    (nearest b 0).toModel.unpack)) = nearest (a + b) 0
  rcases Nat.eq_zero_or_pos a with rfl | ha
  · rcases Nat.eq_zero_or_pos b with rfl | hb
    · rfl
    · rw [Nat.zero_add, unpack_nearest hb (by omega), nearest_eq_pack hb (by omega)]
      rfl
  · rcases Nat.eq_zero_or_pos b with rfl | hb
    · rw [Nat.add_zero, unpack_nearest ha (by omega), nearest_eq_pack ha (by omega)]
      rfl
    · rw [unpack_nearest ha (by omega), unpack_nearest hb (by omega), add_eq ha hb h,
        nearest_eq_pack (Nat.add_pos_left ha b) h]

/-! ## Large integers -/

private theorem mantissa_repeat_le (mantissa : ExtendedMantissa) (k : Nat) :
    (k.repeat ExtendedMantissa.shiftRightOne mantissa).mantissa ≤ mantissa.mantissa := by
  induction k with
  | zero => exact Nat.le_refl _
  | succ k ih => exact Nat.le_trans (Nat.div_le_self _ 2) ih

private theorem roundedMantissa_le (mantissa : ExtendedMantissa) :
    mantissa.roundedMantissa ≤ mantissa.mantissa + 1 := by
  obtain ⟨m, round, sticky⟩ := mantissa
  have hmod := Nat.mod_lt m (Nat.two_pos)
  cases round <;> cases sticky <;>
    simp only [ExtendedMantissa.roundedMantissa, ExtendedMantissa.accuracy, Accuracy.roundToNearestEven] <;> omega

private theorem log2_le_of_lt {m k : Nat} (h : m < 2 ^ k) : m.log2 ≤ k := by
  by_cases hm : m = 0
  · rw [hm]
    exact Nat.zero_le k
  · exact Nat.le_of_lt ((Nat.log2_lt hm).2 h)

/-- Rounding moves the exponent up by no more than the digits of the mantissa. -/
private theorem shiftToTargetExponent_le {m k : Nat} (hm : m < 2 ^ k) (q : Int) (hq : leastExponent ≤ q) :
    (shiftToTargetExponent Format.binary64 m q .exact).1.roundedMantissa ≤ m + 1 ∧
      leastExponent ≤ (shiftToTargetExponent Format.binary64 m q .exact).2 ∧
      (shiftToTargetExponent Format.binary64 m q .exact).2 ≤ q + k := by
  have hlog := log2_le_of_lt hm
  unfold leastExponent at *
  refine ⟨?_, ?_, ?_⟩
  · refine Nat.le_trans (roundedMantissa_le _) (Nat.succ_le_succ ?_)
    exact mantissa_repeat_le ⟨m, false, false⟩ _
  · change -1074 ≤ q + ((Format.binary64.targetExponent (totalExponent m q) - q).toNat : Int)
    omega
  · change q + ((Format.binary64.targetExponent (totalExponent m q) - q).toNat : Int) ≤ q + k
    rw [targetExponent_eq]
    omega

/-- What is rounded is finite, if neither its mantissa nor its exponent is great. -/
private theorem isFinite_roundWithAccuracy {m k : Nat} (hm : m < 2 ^ k) (sign : Sign) {q : Int}
    (hleast : leastExponent ≤ q) (hgreatest : q + (2 * k + 1) ≤ 971) :
    (Float.ofModel (Float.Model.pack (roundWithAccuracy Format.binary64 sign m q .exact))).isFinite = true := by
  obtain ⟨hrounded, hleast', hle⟩ := shiftToTargetExponent_le hm q hleast
  unfold roundWithAccuracy
  generalize shiftToTargetExponent Format.binary64 m q .exact = shifted at *
  have hlt : shifted.1.roundedMantissa < 2 ^ (k + 1) := by
    rw [Nat.pow_succ]
    omega
  obtain ⟨-, -, hle'⟩ := shiftToTargetExponent_le hlt shifted.2 hleast'
  dsimp only
  by_cases hzero : (shiftToTargetExponent Format.binary64 shifted.1.roundedMantissa shifted.2 .exact).1.mantissa = 0
  · rw [dif_pos hzero]
    cases sign <;> rfl
  · rw [dif_neg hzero]
    exact isFinite_pack _ (by omega)

private theorem isFinite_nearest {n : Nat} (h : n < 2 ^ 64) : (nearest n 0).isFinite = true := by
  by_cases hzero : n = 0
  · subst hzero
    rfl
  have hn := Nat.pos_of_ne_zero hzero
  by_cases hsmall : n < 2 ^ 53
  · change UnpackedFloat.isFinite (nearest n 0).toModel.unpack = true
    rw [unpack_nearest hn hsmall]
    rfl
  · rw [nearest_eq hn h]
    unfold Float.ofScientific
    rw [dif_neg fun hexact => hsmall hexact.1]
    have hscaled : n <<< 53 * 1 < 2 ^ 117 := by
      rw [Nat.shiftLeft_eq]
      omega
    have hmodel : UnpackedFloat.ofScientific Format.binary64 n 0 =
        roundWithAccuracy Format.binary64 .positive (n <<< 53 * 1) (-53) .exact := by
      unfold UnpackedFloat.ofScientific
      rw [dif_neg hzero, if_neg (by decide), if_neg, if_pos (by decide)]
      · rfl
      · change ¬(0 : Int) < -(2 ^ 11 + (n.log2 : Int))
        omega
    change (Float.ofModel (Float.Model.pack (UnpackedFloat.ofScientific Format.binary64 n 0))).isFinite = true
    rw [hmodel]
    exact isFinite_roundWithAccuracy hscaled .positive (by decide) (by decide)

/-- The double next to a word is finite. -/
theorem isFinite_ofInt {n : Int} (h : n.natAbs < 2 ^ 64) : (ofInt n).isFinite = true := by
  unfold ofInt
  split
  · exact isFinite_neg (isFinite_nearest h)
  · exact isFinite_nearest h

/-! ## Doubles that are integers -/

private theorem ratio_eq {n : Nat} (h : n < 2 ^ 53) :
    ratio (mantissaOf n) (exponentOf n) = (n * 2 ^ (52 - n.log2), 2 ^ (52 - n.log2)) := by
  have hle := log2_le h
  have hup : (exponentOf n).toNat = 0 := by unfold exponentOf; omega
  have hdown : (-exponentOf n).toNat = 52 - n.log2 := by unfold exponentOf; omega
  unfold ratio mantissaOf
  simp [hup, hdown]

/-- An integer of at most 53 bits is a double without a fraction. -/
theorem isIntegral_ofInt {n : Int} (h : n.natAbs < 2 ^ 53) : isIntegral (ofInt n) = true := by
  by_cases hn : n = 0
  · simp [isIntegral, hn, ofFloat_ofInt_zero, ratio]
  · simp [isIntegral, ofFloat_ofInt hn h, ratio_eq h]

/-- An integer of at most 53 bits is got back from its double. -/
theorem truncate?_ofInt {n : Int} (h : n.natAbs < 2 ^ 53) : truncate? (ofInt n) = some n := by
  by_cases hn : n = 0
  · simp [truncate?, hn, ofFloat_ofInt_zero, ratio]
  · have hquotient : n.natAbs * 2 ^ (52 - n.natAbs.log2) / 2 ^ (52 - n.natAbs.log2) = n.natAbs :=
      Nat.mul_div_cancel _ (Nat.two_pow_pos _)
    simp only [truncate?, ofFloat_ofInt hn h, ratio_eq h, hquotient, decide_eq_true_eq]
    split <;> congr 1 <;> omega

/-- A double that is an integer of less than 53 digits has the parts of that integer. -/
private theorem parts_eq {m k : Nat} {q : Int} (h : Canonical m q) (hk : 0 < k) (hlt : k < 2 ^ 53)
    (heq : m * 2 ^ q.toNat = k * 2 ^ (-q).toNat) : m = mantissaOf k ∧ q = exponentOf k := by
  have hnormal : 2 ^ 52 ≤ m := by
    refine h.normal.resolve_right fun hq => ?_
    have hup : q.toNat = 0 := by rw [hq]; rfl
    have hdown : 53 ≤ (-q).toNat := by rw [hq]; decide
    have hpow : 2 ^ 53 ≤ 2 ^ (-q).toNat := Nat.pow_le_pow_right (by decide) hdown
    have hle : 2 ^ (-q).toNat ≤ k * 2 ^ (-q).toNat := Nat.le_mul_of_pos_left _ hk
    rw [hup, Nat.pow_zero, Nat.mul_one] at heq
    exact absurd (heq ▸ h.mantissa_lt) (Nat.not_lt.2 (Nat.le_trans hpow hle))
  have hlog : 52 + q.toNat = k.log2 + (-q).toNat := by
    rw [← log2_eq hnormal h.mantissa_lt, ← log2_mul_pow (by omega), heq, log2_mul_pow hk]
  have hle := log2_le hlt
  have hq : q = exponentOf k := by
    unfold exponentOf
    omega
  refine ⟨?_, hq⟩
  have hup : q.toNat = 0 := by omega
  have hdown : (-q).toNat = 52 - k.log2 := by omega
  rwa [hup, hdown, Nat.pow_zero, Nat.mul_one] at heq

/-- A double that is an integer of less than 53 digits is the double of that integer. -/
theorem truncate_beq_ofInt {x : Float} {n : Int} (hintegral : isIntegral x = true) (htruncate : truncate? x = some n)
    (hlt : n.natAbs < 2 ^ 53) : (x == ofInt n) = true := by
  cases hx : ofFloat x with
  | nan | infinite => simp [truncate?, hx] at htruncate
  | finite negative m q =>
    have hcanonical := canonical_of_ofFloat hx
    simp only [isIntegral, truncate?, hx, ratio, Nat.pow_eq, beq_iff_eq, Option.some.injEq] at hintegral htruncate
    obtain ⟨k, hk⟩ := Nat.dvd_of_mod_eq_zero hintegral
    rw [hk, Nat.mul_div_cancel_left _ (Nat.two_pow_pos _)] at htruncate
    by_cases hn : n = 0
    · have hzero : k = 0 := by split at htruncate <;> omega
      obtain rfl : m = 0 := by
        rw [hzero, Nat.mul_zero] at hk
        exact (Nat.mul_eq_zero.1 hk).resolve_right (Nat.ne_of_gt (Nat.two_pow_pos _))
      obtain rfl : q = leastExponent := hcanonical.normal.resolve_left (by decide)
      rw [hn]
      exact beq_of_ofFloat hx ofFloat_ofInt_zero (.inl rfl)
    · have habs : k = n.natAbs := by split at htruncate <;> omega
      have hsign : negative = decide (n < 0) := by
        cases negative with
        | false =>
          obtain rfl : (k : Int) = n := htruncate
          exact (decide_eq_false (by omega)).symm
        | true =>
          obtain rfl : -(k : Int) = n := htruncate
          exact (decide_eq_true (by omega)).symm
      obtain ⟨rfl, rfl⟩ := parts_eq hcanonical (Int.natAbs_pos.2 hn) hlt (by rw [hk, habs, Nat.mul_comm])
      exact beq_of_ofFloat hx (ofFloat_ofInt hn hlt) (.inr hsign)

end ScriptModules.Decimal.Binary
