import ScriptModules.Decimal.Shortest

/-!
# Writing numbers

A `Layout` says how the digits of a number are set out: which exponents are written positionally, and
how the special numbers are spelled.
-/

namespace ScriptModules.Decimal

/-- The decisions of one way to write numbers. -/
structure Layout where
  /-- Is a number with this exponent of its first digit written without an exponent? -/
  positional : Int → Bool
  /-- What follows an integer that is written positionally. -/
  integerEnd : String
  /-- What stands before a positive exponent. -/
  exponentSign : String
  /-- Is the sign of zero written? -/
  signedZero : Bool
  infinity : String
  nan : String
  tie : Tie

private def zeros (n : Nat) : String := String.ofList (List.replicate n '0')

/-- The digits of a decimal without the zeros at their end, and the exponent of the first one. -/
def Numeral.leading (d : Numeral) : List Char × Int :=
  let all := Nat.toDigits 10 d.digits
  let kept := (all.reverse.dropWhile (· = '0')).reverse
  (if kept.isEmpty then ['0'] else kept, d.exponent + all.length - 1)

/-- Sets out digits whose first one has exponent `e` around a point. -/
def Layout.atPoint (l : Layout) (digits : List Char) (e : Int) : String :=
  if e < 0 then "0." ++ zeros (-e - 1).toNat ++ String.ofList digits
  else
    let whole := e.toNat + 1
    if digits.length ≤ whole then
      String.ofList digits ++ zeros (whole - digits.length) ++ l.integerEnd
    else String.ofList (digits.take whole) ++ "." ++ String.ofList (digits.drop whole)

/-- Sets out digits whose first one has exponent `e` with an exponent. -/
def Layout.withExponent (l : Layout) (digits : List Char) (e : Int) : String :=
  let fraction := digits.drop 1
  String.ofList (digits.take 1) ++ (if fraction.isEmpty then "" else "." ++ String.ofList fraction)
    ++ "e" ++ (if 0 ≤ e then l.exponentSign else "") ++ toString e

/-- Writes a number. -/
def Layout.write (l : Layout) (x : Float) : String :=
  match Binary.ofFloat x with
  | .nan => l.nan
  | .infinite negative => (if negative then "-" else "") ++ l.infinity
  | .finite negative m q =>
    let (digits, e) := (shortest l.tie m q).leading
    let sign := if negative && (m != 0 || l.signedZero) then "-" else ""
    sign ++ if l.positional e then l.atPoint digits e else l.withExponent digits e

/-- All digits and no exponent: how a number is shown for inspection. -/
def plain : Layout :=
  { positional := fun _ => true
    integerEnd := ""
    exponentSign := ""
    signedZero := true
    infinity := "inf"
    nan := "NaN"
    tie := .up }

/-- How scripts see a number as text: zero has no sign. -/
def script : Layout :=
  { plain with signedZero := false, infinity := "Infinity" }

/-- How a number token is quoted in a message: at least one decimal, an exponent below `1e-4` and from
`1e16` on. -/
def quoted : Layout :=
  { plain with positional := fun e => -4 ≤ e && e < 16, integerEnd := ".0" }

/-- How JSON documents hold a number that is not written as an integer. -/
def json : Layout :=
  { positional := fun e => -5 ≤ e && e < 16
    integerEnd := ".0"
    exponentSign := "+"
    signedZero := true
    infinity := "null"
    nan := "null"
    tie := .even }

end ScriptModules.Decimal
