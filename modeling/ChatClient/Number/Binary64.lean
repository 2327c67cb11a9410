/-!
# Binary64 numbers

A finite number is a sign, a significand below 2 ^ 53 and a binary exponent of
at least -1074; numbers are kept in the form that IEEE 754 stores, so equal
numbers of one sign are equal as data. No machine floating point is involved:
a ratio of naturals is rounded once, to the nearest number, and a tie goes to
the even significand.
-/

namespace ChatClient

/-- A binary64 number. All NaNs are one value; the two zeros differ. -/
inductive Binary64 where
  | nan
  | infinite (negative : Bool)
  | finite (negative : Bool) (significand : Nat) (exponent : Int)
  deriving DecidableEq, Repr, Inhabited

namespace Binary64

/-- The binary exponent of the least positive number. -/
def leastExponent : Int := -1074

/-- The binary exponent of the greatest finite numbers. -/
def greatestExponent : Int := 971

/-- The zero of a sign. -/
def zero (negative : Bool) : Binary64 := .finite negative 0 leastExponent

/-- The number is neither infinite nor NaN. -/
def isFinite : Binary64 → Bool
  | .finite .. => true
  | _ => false

/-- The number lies below zero. -/
def isNegative : Binary64 → Bool
  | .nan => false
  | .infinite negative => negative
  | .finite negative m _ => negative && m ≠ 0

/-- A power of two. -/
def powerOfTwo (n : Nat) : Nat := Nat.pow 2 n

/-- A power of ten. -/
def powerOfTen (n : Nat) : Nat := Nat.pow 10 n

/-- The ratio `num / den` divided by `2 ^ e`, as a new ratio. -/
def scaleDown (num den : Nat) (e : Int) : Nat × Nat :=
  if 0 ≤ e then (num, den * powerOfTwo e.toNat)
  else (num * powerOfTwo (-e).toNat, den)

/-- The integer nearest to `num / den`; a half goes to the even neighbour. -/
def roundHalfEven (num den : Nat) : Nat :=
  let q := num / den
  let r := num % den
  if 2 * r > den ∨ (2 * r = den ∧ q % 2 = 1) then q + 1 else q

/-- The exponent at which the significand of `num / den` has 53 bits, or the
least exponent if that one is lower. -/
def exponentOf (num den : Nat) : Int :=
  let guess : Int := (num.log2 : Int) - den.log2 - 53
  let (n, d) := scaleDown num den guess
  max leastExponent (if n / d < powerOfTwo 53 then guess else guess + 1)

/-- The number nearest to `num / den` for a positive `den`. -/
def ofRatio (negative : Bool) (num den : Nat) : Binary64 :=
  if num = 0 then zero negative
  else
    let e := exponentOf num den
    let (n, d) := scaleDown num den e
    let m := roundHalfEven n d
    let (m, e) := if m = powerOfTwo 53 then (powerOfTwo 52, e + 1) else (m, e)
    if greatestExponent < e then .infinite negative else .finite negative m e

/-- The number nearest to an integer. -/
def ofInt (n : Int) : Binary64 := ofRatio (n < 0) n.natAbs 1

/-- The number nearest to `digits * 10 ^ scale`. A magnitude beyond 10 ^ 309 or
below 10 ^ -323 is settled by its decimal exponent alone. -/
def ofDecimal (negative : Bool) (digits : Nat) (scale : Int) : Binary64 :=
  if digits = 0 then zero negative
  else
    let magnitude := (Nat.toDigits 10 digits).length + scale
    if 309 < magnitude then .infinite negative
    else if magnitude < -323 then zero negative
    else if 0 ≤ scale then ofRatio negative (digits * powerOfTen scale.toNat) 1
    else ofRatio negative digits (powerOfTen (-scale).toNat)

/-- The integer that a number equals, if it is one. -/
def toInt? : Binary64 → Option Int
  | .finite negative m e =>
    let signed (n : Nat) : Int := if negative then -n else n
    if 0 ≤ e then some (signed (m * powerOfTwo e.toNat))
    else if m % powerOfTwo (-e).toNat = 0 then some (signed (m / powerOfTwo (-e).toNat))
    else none
  | _ => none

end Binary64

end ChatClient
