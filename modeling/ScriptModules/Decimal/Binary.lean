/-!
# Floating-point numbers as sign, mantissa and exponent

A finite double is `± m * 2 ^ q`.  `Binary.ofFloat` reads the three off its bits; what is computed
exactly, such as the digits of a number or a remainder, is computed on them with natural numbers.
-/

namespace ScriptModules.Decimal

/-- What a double stands for. -/
inductive Binary where
  | nan
  | infinite (negative : Bool)
  | finite (negative : Bool) (mantissa : Nat) (exponent : Int)
  deriving DecidableEq, Repr

namespace Binary

/-- The least exponent of a double, that of zero and of the subnormal numbers. -/
def leastExponent : Int := -1074

/-- Reads a double off its bits. -/
def ofFloat (x : Float) : Binary :=
  let bits := x.toBits.toNat
  let negative := decide (Nat.pow 2 63 ≤ bits)
  let biased : Nat := bits / Nat.pow 2 52 % Nat.pow 2 11
  let fraction := bits % Nat.pow 2 52
  if biased = 2047 then if fraction = 0 then .infinite negative else .nan
  else if biased = 0 then .finite negative fraction leastExponent
  else .finite negative (Nat.pow 2 52 + fraction) (biased - 1075)

/-- The double with this sign that is nearest to `m * 2 ^ q`; for `q < 0` that is
`m * 5 ^ -q / 10 ^ -q`. -/
def toFloat (negative : Bool) (m : Nat) (q : Int) : Float :=
  let size := Float.ofScientific (m * Nat.pow 2 q.toNat * Nat.pow 5 (-q).toNat) true (-q).toNat
  if negative then -size else size

/-- `m * 2 ^ q` as a quotient of natural numbers. -/
def ratio (m : Nat) (q : Int) : Nat × Nat := (m * Nat.pow 2 q.toNat, Nat.pow 2 (-q).toNat)

end Binary

/-- Is the number an integer? -/
def isIntegral (x : Float) : Bool :=
  match Binary.ofFloat x with
  | .finite _ m q => let (n, d) := Binary.ratio m q; n % d == 0
  | _ => false

/-- The integer that the number is cut off to, if it is finite. -/
def truncate? (x : Float) : Option Int :=
  match Binary.ofFloat x with
  | .finite negative m q =>
    let (n, d) := Binary.ratio m q
    some (if negative then -(n / d : Nat) else (n / d : Nat))
  | _ => none

end ScriptModules.Decimal
