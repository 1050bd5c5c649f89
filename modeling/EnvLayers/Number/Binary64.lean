/-
Module: EnvLayers.Number.Binary64
Purpose: Binary floating point numbers of 64 bits as exact integers: reading a decimal to the
  nearest number, and writing a number by the fewest decimal digits that read back to it.
Main exports: Binary64, Binary64.ofDecimal, Binary64.same, Binary64.render
-/

namespace EnvLayers.Number

/-- A binary floating point number: not a number, an infinity, or `mantissa * 2 ^ exponent` with a
sign. A finite number has its mantissa below `2 ^ 53` and its exponent between `-1074` and `971`,
and unless the exponent is `-1074` its mantissa is at least `2 ^ 52`. -/
inductive Binary64 where
  | nan
  | infinite (negative : Bool)
  | finite (negative : Bool) (mantissa : Nat) (exponent : Int)
deriving Repr, DecidableEq, Inhabited

/-- A positive rational number as a fraction of natural numbers. -/
structure Ratio where
  num : Nat
  den : Nat

namespace Ratio

/-- The fraction times `base ^ power`. -/
def scale (r : Ratio) (base : Nat) (power : Int) : Ratio :=
  if 0 ≤ power then ⟨r.num * base.pow power.toNat, r.den⟩
  else ⟨r.num, r.den * base.pow (-power).toNat⟩

def le (a b : Ratio) : Bool := a.num * b.den ≤ b.num * a.den

def lt (a b : Ratio) : Bool := a.num * b.den < b.num * a.den

/-- The largest natural number that is not above the fraction. -/
def floor (r : Ratio) : Nat := r.num / r.den

/-- The nearest natural number, and of two the even one. -/
def roundEven (r : Ratio) : Nat :=
  let whole := r.floor
  let twice := 2 * (r.num - whole * r.den)
  if twice < r.den then whole
  else if r.den < twice then whole + 1
  else whole + whole % 2

/-- The whole part of the logarithm to base two. -/
def log2 (r : Ratio) : Int :=
  let estimate : Int := (r.num.log2 : Int) - r.den.log2
  if (r.scale 2 (-estimate)).floor == 0 then estimate - 1 else estimate

end Ratio

namespace Binary64

def leastExponent : Int := -1074

def greatestExponent : Int := 971

/-- The least mantissa of a number whose exponent is not the least one. -/
def leastNormal : Nat := 0x10000000000000

/-- The number nearest to a positive fraction, and of two the one with the even mantissa. -/
def ofRatio (negative : Bool) (r : Ratio) : Binary64 :=
  let exponent := max leastExponent (r.log2 - 52)
  let mantissa := (r.scale 2 (-exponent)).roundEven
  let (mantissa, exponent) :=
    if mantissa == 2 * leastNormal then (leastNormal, exponent + 1) else (mantissa, exponent)
  if greatestExponent < exponent then .infinite negative
  else .finite negative mantissa exponent

/-- The number nearest to `digits * 10 ^ power`. Beyond the limits on the order of magnitude the
answer is known without the power of ten. -/
def ofDecimal (negative : Bool) (digits : Nat) (power : Int) : Binary64 :=
  let magnitude : Int := ((Nat.toDigits 10 digits).length : Int) + power
  if digits == 0 || magnitude < -330 then .finite negative 0 leastExponent
  else if 310 < magnitude then .infinite negative
  else ofRatio negative (Ratio.scale ⟨digits, 1⟩ 10 power)

def isFinite : Binary64 → Bool
  | .finite .. => true
  | _ => false

/-- Equality of numbers: both zeros are one number, and a number that is none equals itself. -/
def same : Binary64 → Binary64 → Bool
  | .nan, .nan => true
  | .infinite s, .infinite t => s == t
  | .finite _ 0 _, .finite _ 0 _ => true
  | .finite s m e, .finite t n f => s == t && m == n && e == f
  | _, _ => false

/-- The interval of fractions that round to `mantissa * 2 ^ exponent`. Its ends belong to it when
the mantissa is even. -/
def neighbourhood (mantissa : Nat) (exponent : Int) : Ratio × Ratio :=
  let high := Ratio.scale ⟨2 * mantissa + 1, 2⟩ 2 exponent
  let low :=
    if mantissa == leastNormal && leastExponent < exponent then
      Ratio.scale ⟨4 * mantissa - 1, 4⟩ 2 exponent
    else Ratio.scale ⟨2 * mantissa - 1, 2⟩ 2 exponent
  (low, high)

/-- The point of the grid of multiples of `10 ^ power` nearest to the number among its two
neighbours that read back to it, the upper one of two that are as near. -/
def onGrid? (mantissa : Nat) (exponent power : Int) : Option Nat :=
  let value := Ratio.scale ⟨mantissa, 1⟩ 2 exponent
  let (low, high) := neighbourhood mantissa exponent
  let within (n : Nat) : Bool :=
    let point := Ratio.scale ⟨n, 1⟩ 10 power
    if mantissa % 2 == 0 then low.le point && point.le high else low.lt point && point.lt high
  let cell := value.scale 10 (-power)
  let lower := cell.floor
  let nearLower := 2 * (cell.num - lower * cell.den) < cell.den
  match within lower, within (lower + 1) with
  | true, true => some (if nearLower then lower else lower + 1)
  | true, false => some lower
  | false, true => some (lower + 1)
  | false, false => none

/-- The first grid with a hit, from the coarsest of `count` grids that end at `10 ^ power`. -/
def firstGrid (mantissa : Nat) (exponent : Int) : Nat → Int → Nat × Int
  | 0, power => ((Ratio.scale ⟨mantissa, 1⟩ 2 exponent).scale 10 (-power) |>.roundEven, power)
  | count + 1, power =>
    match onGrid? mantissa exponent power with
    | some n => (n, power)
    | none => firstGrid mantissa exponent count (power - 1)

/-- The fewest digits that read back, as `digits * 10 ^ power`. Every number below `10 ^ 309` has at
most 17 digits, so the search that starts at `10 ^ 309` ends within the grids tried. -/
def shortest (mantissa : Nat) (exponent : Int) : Nat × Int :=
  firstGrid mantissa exponent 700 309

/-- Digits that end at a power of ten, with a decimal point and without an exponent. -/
def positional (digits : List Char) (power : Int) : List Char :=
  if 0 ≤ power then digits ++ List.replicate power.toNat '0' ++ ['.', '0']
  else
    let places := (-power).toNat
    let padded := List.replicate (places + 1 - digits.length) '0' ++ digits
    padded.take (padded.length - places) ++ '.' :: padded.drop (padded.length - places)

/-- Digits of which the first stands at a power of ten, with a point behind it if there are more,
and an exponent with its sign. -/
def scientific (digits : List Char) (order : Int) : List Char :=
  let rest := digits.drop 1
  digits.take 1 ++ (if rest.isEmpty then [] else '.' :: rest)
    ++ 'e' :: (if order < 0 then '-' else '+') :: Nat.toDigits 10 order.natAbs

/-- The decimal with the fewest digits that reads back, or the name of a number that has none. The
test on the power of ten of the first digit tells which numbers are written without an exponent. -/
def render (isPositional : Int → Bool) : Binary64 → String
  | .nan => "NaN"
  | .infinite negative => if negative then "-inf" else "inf"
  | .finite negative 0 _ => if negative then "-0.0" else "0.0"
  | .finite negative mantissa exponent =>
    let (value, power) := shortest mantissa exponent
    let digits := Nat.toDigits 10 value
    let order := power + digits.length - 1
    let body := if isPositional order then positional digits power else scientific digits order
    String.ofList (if negative then '-' :: body else body)

end Binary64

end EnvLayers.Number
