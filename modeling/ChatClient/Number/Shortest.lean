import ChatClient.Number.Binary64

/-!
# Shortest decimal digits

The digits of a binary64 number are the fewest that read back as the number,
and among those the nearest to it. The reals that read back as `m * 2 ^ e` form
an interval around it, closed if `m` is even. For one digit, two digits and so
on, the two neighbours of the number on that decimal grid are tested in exact
arithmetic; the first grid with a hit wins.
-/

namespace ChatClient

/-- The decimal `d.ddd * 10 ^ exponent` whose significant digits are `digits`,
without trailing zeros. -/
structure Decimal where
  digits : List Char
  exponent : Int
  deriving DecidableEq, Repr

namespace Decimal

open Binary64 (powerOfTwo powerOfTen)

/-- `x * 2 ^ q` and `d * 10 ^ k` compare as `x * binary` and `d * decimal`. -/
structure Scales where
  binary : Nat
  decimal : Nat

/-- The scales for a pair of exponents. -/
def scales (q k : Int) : Scales :=
  { binary := powerOfTwo q.toNat * powerOfTen (-k).toNat
    decimal := powerOfTen k.toNat * powerOfTwo (-q).toNat }

/-- The largest `k` with `10 ^ k ≤ m * 2 ^ e`, from an estimate that is at most
one off: 1233 / 4096 approximates the logarithm of 2. -/
def magnitude (m : Nat) (e : Int) : Int :=
  let estimate := ((m.log2 : Int) + e) * 1233 / 4096
  let reaches (k : Int) : Bool :=
    let s := scales e k
    s.decimal ≤ m * s.binary
  if reaches (estimate + 1) then estimate + 1
  else if reaches estimate then estimate
  else estimate - 1

/-- The better of the two neighbours of `m * 2 ^ e` among the multiples of
`10 ^ k`, if one of them reads back as `m * 2 ^ e`. Ends are in quarters of the
unit `2 ^ e`, since below a power of two the next number is half a unit away. -/
def onGrid (m : Nat) (e k : Int) : Option Nat :=
  let s := scales (e - 2) k
  let value := 4 * m * s.binary
  let halved := m = powerOfTwo 52 ∧ Binary64.leastExponent < e
  let low := (if halved then 4 * m - 1 else 4 * m - 2) * s.binary
  let high := (4 * m + 2) * s.binary
  let inside (d : Nat) : Bool :=
    if m % 2 = 0 then low ≤ d * s.decimal ∧ d * s.decimal ≤ high
    else low < d * s.decimal ∧ d * s.decimal < high
  let below := value / s.decimal
  let above := below + 1
  match inside below, inside above with
  | false, false => none
  | true, false => some below
  | false, true => some above
  | true, true =>
    let down := value - below * s.decimal
    let up := above * s.decimal - value
    some (if down < up ∨ (down = up ∧ below % 2 = 0) then below else above)

/-- The decimal `d * 10 ^ k` of a positive `d`. -/
def ofGrid (d : Nat) (k : Int) : Decimal :=
  let digits := Nat.toDigits 10 d
  { digits := (digits.reverse.dropWhile (· = '0')).reverse
    exponent := k + digits.length - 1 }

/-- The shortest decimal that reads back as the positive number `m * 2 ^ e`;
seventeen digits always suffice. -/
def shortest (m : Nat) (e : Int) : Decimal :=
  let top := magnitude m e
  let grids := (List.range 17).map fun (i : Nat) => top - i
  match grids.findSome? fun k => (onGrid m e k).map (ofGrid · k) with
  | some decimal => decimal
  | none => ofGrid m e

end Decimal

end ChatClient
