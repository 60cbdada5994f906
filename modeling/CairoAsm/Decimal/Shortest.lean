import CairoAsm.Decimal.Binary64

namespace CairoAsm

-- As for binary64, the core library's powers.
attribute [local instance (high)] instPowNat

structure Decimal where
  digits : Nat
  exponent : Int
  deriving DecidableEq

namespace Decimal

def trim (digits : Nat) (exponent : Int) : Decimal :=
  if digits ≠ 0 ∧ digits % 10 = 0 then trim (digits / 10) (exponent + 1) else ⟨digits, exponent⟩
termination_by digits
decreasing_by omega

/-- The numbers that round to one number, from `low` to `high` in units of `2 ^ unit`. Its own value
is `value`, and the ends belong to it if `closed`. -/
structure Interval where
  low : Nat
  value : Nat
  high : Nat
  unit : Int
  closed : Bool

namespace Interval

/-- The interval of `m * 2 ^ q`. Below a power of two the next number is half as far away. -/
def of (m : Nat) (q : Int) : Interval where
  low := if m = 2 ^ (Binary64.precision - 1) ∧ Binary64.leastExponent < q then 4 * m - 1
    else 4 * m - 2
  value := 4 * m
  high := 4 * m + 2
  unit := q - 2
  closed := m % 2 = 0

/- A count of units, in the measure in which `step` is `10 ^ e`. -/
def scaled (i : Interval) (e : Int) (n : Nat) : Nat :=
  n * 2 ^ i.unit.toNat * 10 ^ (-e).toNat

def step (i : Interval) (e : Int) : Nat :=
  2 ^ (-i.unit).toNat * 10 ^ e.toNat

def contains (i : Interval) (e : Int) (k : Nat) : Bool :=
  let point := k * i.step e
  if i.closed then i.scaled e i.low ≤ point ∧ point ≤ i.scaled e i.high
  else i.scaled e i.low < point ∧ point < i.scaled e i.high

/-- The multiple of `10 ^ e` in the interval that is nearest to its value, the even one of two at
equal distance. -/
def nearest? (i : Interval) (e : Int) : Option Decimal :=
  let value := i.scaled e i.value
  let below := value / i.step e
  let above := below + 1
  let toBelow := value - below * i.step e
  let toAbove := above * i.step e - value
  match i.contains e below, i.contains e above with
  | false, false => none
  | true, false => some ⟨below, e⟩
  | false, true => some ⟨above, e⟩
  | true, true =>
    if toBelow < toAbove ∨ toBelow = toAbove ∧ below % 2 = 0 then some ⟨below, e⟩
    else some ⟨above, e⟩

end Interval

/-- The whole `e` with `10 ^ e ≤ m * 2 ^ q < 10 ^ (e + 1)`, for a positive binary64 number. -/
def leadingExponent (m : Nat) (q : Int) : Int :=
  let reach := Binary64.decimalReach
  let n := m * 2 ^ q.toNat * 10 ^ reach / 2 ^ (-q).toNat
  n.repr.length - 1 - (reach : Int)

def exact (m : Nat) (q : Int) : Decimal :=
  ⟨m * 2 ^ q.toNat * 5 ^ (-q).toNat, min q 0⟩

def shortest (m : Nat) (q : Int) : Decimal :=
  let found := (List.range 17).findSome? fun (n : Nat) =>
    (Interval.of m q).nearest? (leadingExponent m q - n)
  let d := found.getD (exact m q)
  trim d.digits d.exponent

end Decimal
end CairoAsm
