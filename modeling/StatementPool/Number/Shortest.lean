import StatementPool.Number.Binary
import StatementPool.Number.Numeral
/-!
# Shortest decimals

The shortest decimal that stands for a binary number is the one with the fewest digits among the
decimals that round to it, and the nearest of those. The numbers that round to `m · 2^e` form an
interval whose ends belong to it exactly when `m` is even. On the grid of the multiples of `10^k`
only the two neighbours of the number itself need a test: if any point of the grid lies in the
interval, one of these two does.
-/

namespace StatementPool

/-- The decimal `d₀.d₁d₂… · 10^exponent`; `digits` holds no zero at its end. -/
structure Decimal where
  digits : List Char
  exponent : Int

/-- Which neighbour is chosen when both are equally near. -/
inductive Tie where
  | up
  | even

/-- The interval of the numbers that round to `middle`, all in units of one power of two. -/
structure Rounding where
  low : Nat
  middle : Nat
  high : Nat
  /-- Whether the ends round to the middle as well. -/
  closed : Bool
  /-- The unit is `2^unit`. -/
  unit : Int

namespace Rounding

/-- The interval of `m · 2^e`. Below a power of two the neighbour is only half as far away, unless
the number has the least exponent. -/
def ofBinary (f : Format) (m : Nat) (e : Int) : Rounding :=
  let near := m == Nat.pow 2 f.fraction && f.minExponent < e
  ⟨if near then 4 * m - 1 else 4 * m - 2, 4 * m, 4 * m + 2, m % 2 == 0, e - 2⟩

/-- Whether `n / d` units lie in the interval. -/
def contains (r : Rounding) (n d : Nat) : Bool :=
  if r.closed then r.low * d ≤ n && n ≤ r.high * d else r.low * d < n && n < r.high * d

/-- The multiple of `10^k` that stands for the middle on that grid, if the grid has a point in the
interval: the nearer of the two neighbours, or the only one that lies inside. -/
def onGrid (r : Rounding) (tie : Tie) (k : Int) : Option Nat :=
  -- `n / d` is the size of a unit, and `c · 10^k` is `c · t / u`
  let (n, d) := scaledRatio 1 1 r.unit
  let (t, u) := match k with
    | .ofNat j => (Nat.pow 10 j, 1)
    | .negSucc j => (1, Nat.pow 10 (j + 1))
  let step := t * d
  let value := r.middle * n * u
  let c := value / step
  let inside (c : Nat) : Bool := r.contains (c * step) (n * u)
  let below := value - c * step
  let above := (c + 1) * step - value
  match inside c, inside (c + 1) with
  | false, false => none
  | true, false => some c
  | false, true => some (c + 1)
  | true, true =>
    if below < above then some c
    else if above < below then some (c + 1)
    else match tie with
      | .up => some (c + 1)
      | .even => some (if c % 2 = 0 then c else c + 1)

end Rounding

/-- How many decimal digits `n` has; zero has none. -/
def digitCount (n : Nat) : Nat := if n = 0 then 0 else digitCount (n / 10) + 1
termination_by n

/-- The greatest `k` with `10^k ≤ n / d`, for positive `n` and `d`. -/
def floorLog10 (n d : Nat) : Int :=
  if d ≤ n then (digitCount (n / d) : Int) - 1 else -(digitCount ((d - 1) / n) : Int)

namespace Decimal

/-- The decimal `c · 10^k`, without the zeros at the end of `c`. -/
def ofGrid (c : Nat) (k : Int) : Decimal :=
  let ds := Numeral.ofNat c
  ⟨(ds.reverse.dropWhile (· == '0')).reverse, k + (ds.length - 1 : Nat)⟩

/-- The first grid with a hit among those that have `count` digits or fewer, coarsest first. -/
def search (r : Rounding) (tie : Tie) (top : Int) : Nat → Nat → Option Decimal
  | 0, _ => none
  | left + 1, used =>
    let k := top - used
    match r.onGrid tie k with
    | some c => if c = 0 then search r tie top left (used + 1) else some (ofGrid c k)
    | none => search r tie top left (used + 1)

/-- The most digits that any number of the two formats needs. -/
def enough : Nat := 17

/-- The shortest decimal of the positive number `m · 2^e`. -/
def shortest (f : Format) (tie : Tie) (m : Nat) (e : Int) : Decimal :=
  let (n, d) := scaledRatio m 1 e
  let top := floorLog10 n d
  match search (Rounding.ofBinary f m e) tie top enough 0 with
  | some x => x
  | none => ⟨[], 0⟩

end Decimal

end StatementPool
