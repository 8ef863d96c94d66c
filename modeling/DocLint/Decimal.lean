import DocLint.Text.Basic

/-!
# Numbers as text

The text of a floating-point number has the fewest digits that read back as the same number, and of
those the nearest to it. It is written positionally while the point is not far from the digits, and
with an exponent of at least two digits otherwise.

All digits are found by exact arithmetic. A finite number is `m * 2 ^ q`; the numbers that read back
as it lie within half a unit of `m` on both sides, or a quarter below where the numbers get denser, and
the bounds themselves read back if `m` is even.
-/

namespace DocLint.Decimal

/-- A positive fraction and the numbers around it that read back as it: `low`, `value` and `high` are
multiples of one unit, of which `one` make up the number one. -/
structure Interval where
  /-- The least number that rounds to the value, or its bound. -/
  low : Nat
  /-- The value. -/
  value : Nat
  /-- The greatest number that rounds to the value, or its bound. -/
  high : Nat
  /-- The number one. -/
  one : Nat
  /-- Do the bounds round to the value? -/
  closed : Bool

/-- The interval of `mantissa * 2 ^ exponent`; `dense` says that numbers are denser below it. -/
def Interval.ofBinary (mantissa : Nat) (exponent : Int) (dense : Bool) : Interval :=
  let unit := Nat.pow 2 exponent.toNat
  let value := 4 * mantissa * unit
  { low := value - (if dense then 1 else 2) * unit
    value
    high := value + 2 * unit
    one := 4 * Nat.pow 2 (-exponent).toNat
    closed := mantissa % 2 == 0 }

/-- The interval in units that are smaller by the factor `10 ^ -power`, where `power` is not positive,
or with the number one larger by `10 ^ power`. -/
def Interval.scale (interval : Interval) (power : Int) : Interval :=
  let factor := Nat.pow 10 (-power).toNat
  { interval with
    low := interval.low * factor
    value := interval.value * factor
    high := interval.high * factor
    one := interval.one * Nat.pow 10 power.toNat }

/-- Does a multiple of the number one read back as the value? -/
def Interval.has (interval : Interval) (count : Nat) : Bool :=
  let n := count * interval.one
  if interval.closed then interval.low ≤ n && n ≤ interval.high
  else interval.low < n && n < interval.high

/-- The multiple of the number one nearest to the value that reads back as it, if one does. Of two
that are as near the even one is taken. -/
def Interval.nearest? (interval : Interval) : Option Nat :=
  let down := interval.value / interval.one
  let up := down + 1
  let below := interval.value - down * interval.one
  let above := up * interval.one - interval.value
  let nearer := if below < above || (below == above && down % 2 == 0) then down else up
  [nearer, down, up].find? interval.has

/-- The power of ten that is just greater than the value, looked for among `fuel` ones from `power`
downwards. -/
def Interval.magnitude (interval : Interval) : (fuel : Nat) → (power : Int) → Int
  | 0, power => power
  | fuel + 1, power =>
    let scaled := interval.scale (power - 1)
    if scaled.one ≤ scaled.value then power else interval.magnitude fuel (power - 1)

/-- The fewest digits that read back, and the power of ten of their last place. `places` counts the
digits that are tried. -/
def Interval.shortest (interval : Interval) (magnitude : Int) : (places : List Nat) → Nat × Int
  | [] => (0, 0)
  | count :: rest =>
    let power := magnitude - count
    match (interval.scale power).nearest? with
    | some digits => (digits, power)
    | none => interval.shortest magnitude rest

/-- The exponent of a decimal, with its sign and at least two digits. -/
def exponentText (exponent : Int) : Text :=
  let digits := Nat.toDigits 10 exponent.natAbs
  (if exponent < 0 then '-' else '+') :: ((if digits.length < 2 then ['0'] else []) ++ digits)

/-- The text of `digits`, which have no zero at the end, with the point behind the first `point` of
them. -/
def render (digits : Text) (point : Int) : Text :=
  if -4 < point ∧ point ≤ 16 then
    if point ≤ 0 then "0.".toList ++ Text.fill (-point) '0' ++ digits
    else
      let whole := digits.take point.toNat
      let fraction := digits.drop point.toNat
      whole ++ Text.fill (point - whole.length) '0' ++ ['.'] ++
        (if fraction.isEmpty then ['0'] else fraction)
  else
    let fraction := digits.drop 1
    digits.take 1 ++ (if fraction.isEmpty then [] else '.' :: fraction) ++ ['e'] ++
      exponentText (point - 1)

/-- The text of a positive finite number `mantissa * 2 ^ exponent`. -/
def positiveText (mantissa : Nat) (exponent : Int) (dense : Bool) : Text :=
  let interval := Interval.ofBinary mantissa exponent dense
  let (value, power) := interval.shortest (interval.magnitude 700 310) (List.range' 1 17)
  let digits := Nat.toDigits 10 value
  render (Text.dropEndWhile (· == '0') digits) (power + digits.length)

/-- The text of a floating-point number. -/
def ofFloat (x : Float) : Text :=
  let bits := x.toBits.toNat
  let sign := if bits / Nat.pow 2 63 = 1 then ['-'] else []
  let exponent : Nat := bits / Nat.pow 2 52 % Nat.pow 2 11
  let fraction : Nat := bits % Nat.pow 2 52
  if exponent = 2047 then (if fraction = 0 then sign ++ "inf".toList else "nan".toList)
  else if exponent = 0 ∧ fraction = 0 then sign ++ "0.0".toList
  else if exponent = 0 then sign ++ positiveText fraction (-1074) false
  else
    sign ++ positiveText (Nat.pow 2 52 + fraction) ((exponent : Int) - 1075)
      (fraction = 0 ∧ 1 < exponent)

/-- The floating-point number nearest to `mantissa * 10 ^ exponent`. Far beyond the range of such
numbers the exponent does not matter any more. -/
def toFloat (mantissa : Nat) (exponent : Int) : Float :=
  let size : Int := (Nat.toDigits 10 mantissa).length
  if mantissa = 0 ∨ exponent + size < -400 then 0
  else if 400 < exponent + size then Float.ofScientific 1 false 400
  else Float.ofScientific mantissa (exponent < 0) exponent.natAbs

end DocLint.Decimal
