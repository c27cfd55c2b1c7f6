/-
The shortest decimal for a floating-point number: the fewest digits that lie in
the interval of reals which round to the number, and of those the nearest to it.
-/

namespace TextGrammar.Decimal

/-- A finite number above zero as `mantissa * 2 ^ exponent`. -/
structure Binary where
  mantissa : Nat
  exponent : Int
  /-- The number below is nearer than the number above: the mantissa is a power of two and the
  exponent not the least one. -/
  narrowBelow : Bool

/-- Digits and the place of the point: `0.d₁d₂… * 10 ^ point`. -/
structure Digits where
  digits : List Char
  point : Int

namespace Binary

/-- The number in quarters of a unit of its last binary place. The ends of its interval are whole
numbers of quarters. -/
def quarters (b : Binary) : Nat := 4 * b.mantissa

/-- Lower end of the interval of reals that round to the number, in quarters. -/
def lower (b : Binary) : Nat := b.quarters - (if b.narrowBelow then 1 else 2)

/-- Upper end of that interval. -/
def upper (b : Binary) : Nat := b.quarters + 2

/-- Scale factors `(a, c)` with `x` quarters at least `d` units of `10 ^ grid` exactly when
`d * c ≤ x * a`. -/
def scales (b : Binary) (grid : Int) : Nat × Nat :=
  let q := b.exponent - 2
  (Nat.pow 2 q.toNat * Nat.pow 10 (-grid).toNat, Nat.pow 2 (-q).toNat * Nat.pow 10 grid.toNat)

/-- The decimal `d * 10 ^ grid` rounds to the number. The ends of the interval do so when the
mantissa is even. -/
def roundsTo (b : Binary) (grid : Int) (d : Nat) : Bool :=
  let (a, c) := b.scales grid
  if b.mantissa % 2 == 0 then b.lower * a ≤ d * c && d * c ≤ b.upper * a
  else b.lower * a < d * c && d * c < b.upper * a

/-- The multiple of `10 ^ grid` nearest to the number among those that round to it; the greater
one when two are equally near. -/
def nearest? (b : Binary) (grid : Int) : Option Nat :=
  let (a, c) := b.scales grid
  let below := b.quarters * a / c
  let above := below + 1
  match b.roundsTo grid below, b.roundsTo grid above with
  | true, true =>
    if b.quarters * a - below * c < above * c - b.quarters * a then some below else some above
  | true, false => some below
  | false, true => some above
  | false, false => none

/-- The number is below `10 ^ place`. -/
def below (b : Binary) (place : Int) : Bool :=
  let (a, c) := b.scales place
  b.quarters * a < c

/-- The least place `p` from `place` on, within `steps`, with the number below `10 ^ p`. -/
def pointFrom (b : Binary) : (steps : Nat) → (place : Int) → Int
  | 0, place => place
  | steps + 1, place => if b.below place then place else pointFrom b steps (place + 1)

/-- Tries `n` digits, then one more, up to `left` times. -/
def digitsFrom (b : Binary) (point : Int) : (left n : Nat) → Option (Nat × Int)
  | 0, _ => none
  | left + 1, n =>
    let grid := point - n
    match b.nearest? grid with
    | some d => some (d, grid)
    | none => digitsFrom b point left (n + 1)

/-- The shortest decimal. Seventeen digits always suffice for 53 bits. -/
def shortest (b : Binary) : Digits :=
  match b.digitsFrom (b.pointFrom 640 (-330)) 17 1 with
  | none => ⟨[], 0⟩
  | some (d, grid) =>
    let all := Nat.toDigits 10 d
    let kept := (all.reverse.dropWhile (· == '0')).reverse
    ⟨kept, grid + all.length⟩

end Binary

/-! ## Floating-point numbers -/

/-- What a 64-bit pattern stands for. -/
inductive Kind where
  | nan
  | infinite
  | zero
  | finite (b : Binary)

/-- Sign and kind of a number, from its bits. -/
def classify (bits : Nat) : Bool × Kind :=
  let fraction : Nat := bits % Nat.pow 2 52
  let exponent : Nat := bits / Nat.pow 2 52 % Nat.pow 2 11
  let kind :=
    if exponent == 2047 then if fraction == 0 then .infinite else .nan
    else if exponent == 0 then
      if fraction == 0 then .zero else .finite ⟨fraction, -1074, false⟩
    else .finite ⟨Nat.pow 2 52 + fraction, exponent - 1075, fraction == 0 && exponent != 1⟩
  (bits / Nat.pow 2 63 == 1, kind)

/-- Digits around a point, without an exponent, and with at least `places` digits after the point. -/
def positional (n : Digits) (places : Nat) : String :=
  let whole :=
    if n.point ≤ 0 then ['0']
    else n.digits.take n.point.toNat
      ++ List.replicate (n.point.toNat - n.digits.length) '0'
  let fraction :=
    if n.point ≤ 0 then List.replicate (-n.point).toNat '0' ++ n.digits
    else n.digits.drop n.point.toNat
  let fraction := fraction ++ List.replicate (places - fraction.length) '0'
  if fraction.isEmpty then String.ofList whole
  else String.ofList (whole ++ '.' :: fraction)

/-- One digit before the point, and a power of ten. -/
def scientific (n : Digits) : String :=
  let mantissa := match n.digits with
    | [] => "0"
    | [d] => d.toString
    | d :: ds => String.ofList (d :: '.' :: ds)
  mantissa ++ "e" ++ toString (n.point - 1)

/-- A number with the form of its digits left open. -/
def write (x : Float) (zero : String) (finite : Digits → String) : String :=
  match classify x.toBits.toNat with
  | (_, .nan) => "NaN"
  | (negative, kind) =>
    let body := match kind with
      | .nan => "NaN"
      | .infinite => "inf"
      | .zero => zero
      | .finite b => finite b.shortest
    if negative then "-" ++ body else body

/-- A number in its shortest positional form, a whole number without a point. -/
def plain (x : Float) : String := write x "0" (positional · 0)

/-- A number that shows to be one: with a point, or with a power of ten from `10 ^ 16` on and below
`10 ^ -4`. -/
def marked (x : Float) : String :=
  write x "0.0" fun n => if n.point < -3 || 16 < n.point then scientific n else positional n 1

end TextGrammar.Decimal
