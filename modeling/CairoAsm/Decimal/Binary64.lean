namespace CairoAsm

-- The core library's powers, whichever others are in scope.
attribute [local instance (high)] instPowNat

/-- `finite s m q` is `m * 2 ^ q`, with a minus sign if `s`; zero has a sign too. -/
inductive Binary64 where
  | finite (negative : Bool) (significand : Nat) (exponent : Int)
  | infinite (negative : Bool)
  | nan
  deriving DecidableEq

namespace Binary64

def precision : Nat := 53

def leastExponent : Int := -1074

def greatestExponent : Int := 971

/-- The quotient rounded to the nearest whole number, a half to the even one. -/
def roundDiv (num den : Nat) : Nat :=
  let q := num / den
  let twice := 2 * (num % den)
  if twice < den then q
  else if den < twice then q + 1
  else if q % 2 = 0 then q else q + 1

/- `num / den * 2 ^ -e`, as a fraction. -/
def shifted (num den : Nat) (e : Int) : Nat × Nat :=
  (num * 2 ^ (-e).toNat, den * 2 ^ e.toNat)

/-- The whole `e` with `2 ^ e ≤ num / den < 2 ^ (e + 1)`, for positive numbers. -/
def leadingExponent (num den : Nat) : Int :=
  let e : Int := num.log2 - den.log2
  let (n, d) := shifted num den e
  if d ≤ n then e else e - 1

def ofRatio (negative : Bool) (num den : Nat) : Binary64 :=
  if num = 0 then finite negative 0 leastExponent else
    let q := max leastExponent (leadingExponent num den - (precision - 1 : Nat))
    let (n, d) := shifted num den q
    let m := roundDiv n d
    let (m, q) := if m = 2 ^ precision then (2 ^ (precision - 1), q + 1) else (m, q)
    if greatestExponent < q then infinite negative else finite negative m q

/-- Decimal exponents beyond which every number is infinite, or zero. -/
def decimalReach : Nat := 400

def ofDecimal (negative : Bool) (digits : Nat) (exponent : Int) : Binary64 :=
  let leading : Int := digits.repr.length + exponent
  if digits = 0 ∨ leading < -decimalReach then finite negative 0 leastExponent
  else if (decimalReach : Int) < leading then infinite negative
  else ofRatio negative (digits * 10 ^ exponent.toNat) (10 ^ (-exponent).toNat)

end Binary64
end CairoAsm
