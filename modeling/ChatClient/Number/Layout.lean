import ChatClient.Number.Shortest

/-!
# Layout of decimal numbers

A layout says from which decimal exponents on a number is written with an
exponent, and how wide that exponent is. The digits themselves are always the
shortest ones. Every number keeps a mark of being a float: a fraction, if only
`.0`, or an exponent.
-/

namespace ChatClient

/-- Where positional writing begins and ends, and the least width of exponents. -/
structure Layout where
  leastPositional : Int
  leastExponential : Int
  exponentWidth : Nat
  deriving DecidableEq, Repr

namespace Layout

/-- In messages: positional from 10 ^ -4 up to below 10 ^ 16, and exponents of
two digits or more. -/
def display : Layout := ⟨-4, 16, 2⟩

/-- In compact JSON: positional from 10 ^ -5 up to below 10 ^ 16, and exponents
of any length. -/
def compact : Layout := ⟨-5, 16, 1⟩

/-- A decimal without exponent. -/
def positional (d : Decimal) : List Char :=
  if d.exponent < 0 then
    '0' :: '.' :: (List.replicate (-d.exponent - 1).toNat '0' ++ d.digits)
  else
    let whole := d.exponent.toNat + 1
    let fraction := d.digits.drop whole
    d.digits.take whole ++ List.replicate (whole - d.digits.length) '0' ++
      '.' :: (if fraction.isEmpty then ['0'] else fraction)

/-- A decimal with an exponent, whose sign is always written. -/
def exponential (width : Nat) (d : Decimal) : List Char :=
  let mantissa := d.digits.take 1 ++
    (if d.digits.length ≤ 1 then [] else '.' :: d.digits.drop 1)
  let exponent := Nat.toDigits 10 d.exponent.natAbs
  mantissa ++ 'e' :: (if d.exponent < 0 then '-' else '+') ::
    (List.replicate (width - exponent.length) '0' ++ exponent)

/-- A decimal, written in the way that its exponent calls for. -/
def decimal (layout : Layout) (d : Decimal) : List Char :=
  if layout.leastPositional ≤ d.exponent ∧ d.exponent < layout.leastExponential then
    positional d
  else exponential layout.exponentWidth d

/-- A binary64 number. Zeros keep their sign; the other values that are no
ratios have names. -/
def number (layout : Layout) : Binary64 → List Char
  | .nan => ['n', 'a', 'n']
  | .infinite negative => (if negative then ['-'] else []) ++ ['i', 'n', 'f']
  | .finite negative m e =>
    (if negative then ['-'] else []) ++
      (if m = 0 then ['0', '.', '0'] else layout.decimal (Decimal.shortest m e))

end Layout

end ChatClient
