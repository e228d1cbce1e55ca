import ScriptModules.Decimal.Binary

/-!
# Shortest decimals

The reals that round to a double form an interval around it.  Its shortest decimal is the point of
that interval on the coarsest decimal grid that meets the interval; of two such points the nearer one,
and at a tie the one that the caller chooses.  A grid that meets the interval does so in one of the two
points next to the number, so those two are all that is tried.
-/

namespace ScriptModules.Decimal

/-- Which of two equally near points is taken. -/
inductive Tie where
  | up
  | even
  deriving DecidableEq, Repr

/-- The number `digits * 10 ^ exponent`. -/
structure Numeral where
  digits : Nat
  exponent : Int
  deriving DecidableEq, Repr

/-- The number of decimal digits of `n`, at least one. -/
def digitCount (n : Nat) : Nat := (Nat.toDigits 10 n).length

/-- How often `num` is multiplied by ten until it reaches `den`, at most `fuel` times. -/
private def leadingZeros (den : Nat) : Nat → Nat → Nat
  | 0, _ => 0
  | fuel + 1, num => if den ≤ num then 0 else leadingZeros den fuel (num * 10) + 1

/-- The `k` with `10 ^ (k - 1) ≤ num / den < 10 ^ k`, for a quotient not below the least double. -/
def magnitude (num den : Nat) : Int :=
  if den ≤ num then digitCount (num / den) else 1 - (leadingZeros den 330 num : Int)

/-- The reals that round to a double, as multiples of one unit: its own value, the ends, and whether
the ends belong to it. -/
structure Interval where
  low : Nat
  mid : Nat
  high : Nat
  closed : Bool

/-- The interval of `m * 2 ^ q` in units of `2 ^ (q - 2)`.  Below a power of two the doubles lie half as
far apart as above it. -/
def Interval.around (m : Nat) (q : Int) : Interval :=
  { low := 4 * m - (if m = Nat.pow 2 52 ∧ Binary.leastExponent < q then 1 else 2)
    mid := 4 * m
    high := 4 * m + 2
    closed := m % 2 == 0 }

/-- Does `x` lie in the interval whose ends are scaled by `scale`? -/
def Interval.holds (i : Interval) (scale x : Nat) : Bool :=
  if i.closed then i.low * scale ≤ x && x ≤ i.high * scale
  else i.low * scale < x && x < i.high * scale

/-- The multiple of `step` that stands for the interval, if one of the two next to its middle does. -/
def Interval.pick? (i : Interval) (tie : Tie) (scale step : Nat) : Option Nat :=
  let mid := i.mid * scale
  let below := mid / step
  let above := below + 1
  match i.holds scale (below * step), i.holds scale (above * step) with
  | false, false => none
  | true, false => some below
  | false, true => some above
  | true, true =>
    let toBelow := mid - below * step
    let toAbove := above * step - mid
    if toBelow < toAbove then some below
    else if toAbove < toBelow then some above
    else match tie with
      | .up => some above
      | .even => some (if below % 2 = 0 then below else above)

/-- Tries the grids of `n`, `n + 1`, … digits for an interval with unit `num / den` and magnitude `k`. -/
private def search (i : Interval) (tie : Tie) (num den : Nat) (k : Int) : Nat → Nat → Numeral
  | 0, _ => ⟨0, 0⟩
  | fuel + 1, n =>
    let e := k - n
    match i.pick? tie (num * Nat.pow 10 (-e).toNat) (den * Nat.pow 10 e.toNat) with
    | some digits => ⟨digits, e⟩
    | none => search i tie num den k fuel (n + 1)

/-- The shortest decimal of the double `m * 2 ^ q`; seventeen digits are always enough. -/
def shortest (tie : Tie) (m : Nat) (q : Int) : Numeral :=
  if m = 0 then ⟨0, 0⟩
  else
    let (num, den) := Binary.ratio m q
    let (unitNum, unitDen) := Binary.ratio 1 (q - 2)
    search (Interval.around m q) tie unitNum unitDen (magnitude num den) 17 1

example : shortest .up 0x1999999999999a (-56) = ⟨1, -1⟩ := by decide +kernel
example : shortest .up 1 (-1074) = ⟨5, -324⟩ := by decide +kernel

end ScriptModules.Decimal
