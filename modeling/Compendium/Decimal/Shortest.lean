/-!
# Shortest decimals

A finite float is a mantissa times a power of two. Its shortest decimal is the one with the fewest
digits among those that round to the float; of two such decimals the nearer one is taken, and a
`Tie` decides between two equally near. The digits are selected by exact arithmetic on natural
numbers.
-/

namespace Compendium.Decimal

/-- Which of two equally near decimals is taken: the larger, or the one with an even last digit. -/
inductive Tie where
  | up
  | even
  deriving Repr, DecidableEq

/-- A positive decimal: the digits as a number without trailing zeros, and the power of ten by which
it is scaled. -/
structure Digits where
  value : Nat
  exponent : Int
  deriving Repr, DecidableEq

/-- A positive binary fraction `mantissa * 2 ^ exponent`, and whether its mantissa is the smallest
of its binade, so that the gap below is half the gap above. -/
structure Binary where
  mantissa : Nat
  exponent : Int
  narrowBelow : Bool
  deriving Repr, DecidableEq

/-- The parts of a finite float's magnitude; zero gives mantissa zero. -/
def Binary.ofBits (bits : UInt64) : Binary :=
  let fraction : Nat := bits.toNat % Nat.pow 2 52
  let biased : Nat := bits.toNat / Nat.pow 2 52 % Nat.pow 2 11
  if biased = 0 then ⟨fraction, -1074, false⟩
  else ⟨Nat.pow 2 52 + fraction, (biased : Int) - 1075, fraction = 0 && 1 < biased⟩

/-- The value and the ends of the interval of reals that round to it, as multiples of `1 /
scale`. -/
structure Interval where
  low : Nat
  center : Nat
  high : Nat
  scale : Nat
  closed : Bool

/-- The rounding interval of a positive binary fraction. Its ends belong to it when the mantissa is
even. -/
def Binary.interval (b : Binary) : Interval :=
  let m := b.mantissa
  let below := if b.narrowBelow then 1 else 2
  let closed := m % 2 = 0
  if 0 ≤ b.exponent then
    let p := Nat.pow 2 b.exponent.toNat
    ⟨(4 * m - below) * p, 4 * m * p, (4 * m + 2) * p, 4, closed⟩
  else
    ⟨4 * m - below, 4 * m, 4 * m + 2, 4 * Nat.pow 2 (-b.exponent).toNat, closed⟩

/-- Whether the fraction `num / den`, in the interval's own units of `1 / scale`, lies in it. -/
def Interval.holds (iv : Interval) (num den : Nat) : Bool :=
  let x := num * iv.scale
  if iv.closed then iv.low * den ≤ x && x ≤ iv.high * den
  else iv.low * den < x && x < iv.high * den

/-- The candidate on the grid `10 ^ exponent` that lies in the interval, if any: the grid neighbours
of the center, the nearer of two, and of two equally near the one the tie rule takes. -/
def Interval.onGrid? (iv : Interval) (tie : Tie) (exponent : Int) : Option Nat :=
  let up := if 0 ≤ exponent then Nat.pow 10 exponent.toNat else 1
  let down := if 0 ≤ exponent then 1 else Nat.pow 10 (-exponent).toNat
  let floor := iv.center * down / (iv.scale * up)
  let holdsFloor := iv.holds (floor * up) down
  let holdsNext := iv.holds ((floor + 1) * up) down
  if holdsFloor && holdsNext then
    let fromFloor := iv.center * down - floor * up * iv.scale
    let toNext := (floor + 1) * up * iv.scale - iv.center * down
    if fromFloor < toNext then some floor
    else if fromFloor = toNext && tie = .even && floor % 2 = 0 then some floor
    else some (floor + 1)
  else if holdsFloor then some floor
  else if holdsNext then some (floor + 1)
  else none

/-- A number without its trailing zeros, which move to the exponent. The count bounds the steps. -/
def stripZeros : Nat → Nat → Int → Digits
  | 0, n, e => ⟨n, e⟩
  | steps + 1, n, e => if n % 10 = 0 then stripZeros steps (n / 10) (e + 1) else ⟨n, e⟩

/-- Tries the grids from coarse to fine, each a tenth of the one before. -/
def Interval.firstGrid (iv : Interval) (tie : Tie) : Nat → Int → Digits
  | 0, e => ⟨iv.center / iv.scale, e⟩
  | grids + 1, e =>
    match iv.onGrid? tie e with
    | some (n + 1) => stripZeros 20 (n + 1) e
    | _ => iv.firstGrid tie grids (e - 1)

/-- The largest power of ten that does not exceed `num / den`, searched downwards from a start. -/
def magnitude (num den : Nat) : Nat → Int → Int
  | 0, e => e
  | steps + 1, e =>
    let fits :=
      if 0 ≤ e then Nat.pow 10 e.toNat * den ≤ num else den ≤ num * Nat.pow 10 (-e).toNat
    if fits then e else magnitude num den steps (e - 1)

def Binary.shortest (b : Binary) (tie : Tie) : Digits :=
  let iv := b.interval
  iv.firstGrid tie 18 (magnitude iv.center iv.scale 640 309 + 1)

end Compendium.Decimal
