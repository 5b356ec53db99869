import PushGateway.Decimal.Digits

namespace PushGateway.Decimal

/-- A positive finite binary floating-point number `m * 2 ^ q`. `narrow` says that its lower neighbour is
only half as far away as its upper one. -/
structure Binary where
  m : Nat
  q : Int
  narrow : Bool
  deriving Repr, DecidableEq

/-- How many values the 52 bits of a fraction have. -/
def fractions : Nat := 4503599627370496

/-- Reads the 64 bits of a number: a sign, which is left out, 11 bits of exponent and the fraction. -/
def Binary.ofBits (bits : UInt64) : Binary :=
  let fraction : Nat := bits.toNat % fractions
  let exponent : Nat := bits.toNat / fractions % 2048
  if exponent = 0 then ⟨fraction, -1074, false⟩
  else ⟨fractions + fraction, (exponent : Int) - 1075, fraction = 0 && exponent > 1⟩

/-- `a * 2 ^ q` and `d * 10 ^ e` over a common denominator. -/
def overCommon (a : Nat) (q : Int) (d : Nat) (e : Int) : Nat × Nat :=
  (a * Nat.pow 2 q.toNat * Nat.pow 10 (-e).toNat, d * Nat.pow 10 e.toNat * Nat.pow 2 (-q).toNat)

namespace Binary

/-- Whether `d * 10 ^ e` reads back as this number: it lies between the midpoints to the two
neighbours, and the midpoints themselves belong to a number with even `m`. -/
def readsBack (b : Binary) (d : Nat) (e : Int) : Bool :=
  let low := overCommon (4 * b.m - if b.narrow then 1 else 2) b.q (4 * d) e
  let high := overCommon (4 * b.m + 2) b.q (4 * d) e
  if b.m % 2 = 0 then low.1 ≤ low.2 && high.2 ≤ high.1 else low.1 < low.2 && high.2 < high.1

/-- Of the two multiples of `10 ^ e` around the number, the nearest that reads back, if any.
Of two equally near the even one is taken. -/
def onGrid? (b : Binary) (e : Int) : Option Nat :=
  let (whole, unit) := overCommon b.m b.q 1 e
  let below := whole / unit
  let above := below + 1
  match b.readsBack below e, b.readsBack above e with
  | true, true =>
    let twice := 2 * (whole % unit)
    if twice < unit || (twice = unit && below % 2 = 0) then some below else some above
  | true, false => some below
  | false, true => some above
  | false, false => none

/-- The multiple of a power of ten that reads back, for the largest such power. The search begins at
`10 ^ e` and tries `tries` powers. -/
def coarsest (b : Binary) (e : Int) : (tries : Nat) → Nat × Int
  | 0 => (0, 0)
  | tries + 1 =>
    match b.onGrid? e with
    | some d => (d, e)
    | none => b.coarsest (e - 1) tries

/-- The fewest digits that read back, and the power of ten by which to multiply them. -/
def shortest (b : Binary) : Nat × Int := b.coarsest 309 680

end Binary

/-- Which numbers are written with a point alone, and which with an exponent. -/
structure Style where
  /-- The smallest exponent of a leading digit that is written with a point alone. -/
  least : Int
  /-- The largest such exponent. -/
  greatest : Int

/-- The text of `d * 10 ^ e`, where `d` has no zero at its end. There is always a point or an exponent,
and every exponent has a sign. -/
def Style.write (style : Style) (d : Nat) (e : Int) : List Char :=
  let ds := digits d
  let leading := e + ds.length - 1
  if style.least ≤ leading && leading ≤ style.greatest then
    if 0 ≤ e then ds ++ List.replicate e.toNat '0' ++ ['.', '0']
    else if 0 ≤ leading then ds.take (leading.toNat + 1) ++ '.' :: ds.drop (leading.toNat + 1)
    else ['0', '.'] ++ List.replicate (-leading - 1).toNat '0' ++ ds
  else
    let tail := if ds.length ≤ 1 then [] else '.' :: ds.drop 1
    ds.take 1 ++ tail ++ 'e' :: (if leading < 0 then '-' else '+') :: digits leading.natAbs

end PushGateway.Decimal
