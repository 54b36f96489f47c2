/-!
Numbers of 64 bits with a binary point, and the decimal numbers that stand for them.

A number has 53 binary digits at most and a power of two between bounds. A decimal number stands for
the nearest of them, and for the one with an even last digit if it lies in the middle of two.
-/

namespace TopologyAssist

/-- A number of 64 bits. -/
inductive Binary64 where
  /-- The number `m · 2 ^ q`, or the one below zero. -/
  | finite (minus : Bool) (m : Nat) (q : Int)
  /-- Beyond all numbers. -/
  | infinite (minus : Bool)
  /-- No number. -/
  | nan
  deriving DecidableEq, Repr

namespace Binary64

/-! ### Bounds -/

/-- The least number with more binary digits than a number has. -/
def digitLimit : Nat := 9007199254740992

/-- The least number with as many binary digits as a number has. -/
def fullDigits : Nat := 4503599627370496

/-- The least power of two. -/
def leastPower : Int := -1074

/-- The greatest power of two. -/
def greatestPower : Int := 971

/-- Zero, with a sign. -/
def zero (minus : Bool) : Binary64 := finite minus 0 leastPower

/-- The number is zero, whatever its sign. -/
def isZero : Binary64 → Bool
  | finite _ m _ => m == 0
  | _ => false

/-! ### Rounding -/

/-- A quotient rounded to the nearest whole number, from the middle to the even one. -/
def roundDiv (num den : Nat) : Nat :=
  let k := num / den
  let r := num % den
  if 2 * r < den then k
  else if den < 2 * r then k + 1
  else k + k % 2

/-- A quotient measured in a power of two, as a quotient. -/
def inPower (num den : Nat) (q : Int) : Nat × Nat :=
  (num * Nat.pow 2 (-q).toNat, den * Nat.pow 2 q.toNat)

/-- The power of two in which a quotient has all binary digits of a number, or the least one. The
quotient has one digit more than the difference of the digits says, or as many. -/
def powerOf (num den : Nat) : Int :=
  let q : Int := (num.log2 : Int) - (den.log2 : Int) - 53
  let (n, d) := inPower num den q
  max leastPower (if n / d < digitLimit then q else q + 1)

/-- The number nearest to a quotient that is not zero. -/
def ofQuotient (minus : Bool) (num den : Nat) : Binary64 :=
  let q := powerOf num den
  let (n, d) := inPower num den q
  let m := roundDiv n d
  let (m, q) := if m < digitLimit then (m, q) else (fullDigits, q + 1)
  if q ≤ greatestPower then finite minus m q else infinite minus

/-- The number nearest to `d · 10 ^ e`. The place of the first digit tells what lies beyond all
numbers, and what is nearer to zero than to any other number. -/
def ofDecimal (minus : Bool) (d : Nat) (e : Int) : Binary64 :=
  let place : Int := (Nat.toDigits 10 d).length + e
  if d = 0 ∨ place < -323 then zero minus
  else if 309 < place then infinite minus
  else ofQuotient minus (d * Nat.pow 10 e.toNat) (Nat.pow 10 (-e).toNat)

end Binary64

end TopologyAssist
