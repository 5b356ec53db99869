namespace PushGateway.Decimal

/-- The largest power of ten that is multiplied or divided by at once. -/
def largestPower : Nat := 308

def power (exponent : Nat) : Float := Float.ofScientific 1 false exponent

/-- `x` divided by a power of ten, which is done in steps where the power itself would be too large. -/
def shrink (x : Float) (exponent : Nat) : Float :=
  if exponent ≤ largestPower then x / power exponent
  else if x == 0 then x
  else shrink (x / power largestPower) (exponent - largestPower)
termination_by exponent
decreasing_by simp only [largestPower] at *; omega

/-- A number times a power of ten: the number is rounded first, then the product or quotient. There is
no answer where that leaves the range of floating-point numbers. -/
def scaled (significand : Nat) (exponent : Int) : Option Float :=
  let x := Float.ofNat significand
  match exponent with
  | .negSucc n => some (shrink x (n + 1))
  | .ofNat n =>
    if n ≤ largestPower then
      let product := x * power n
      if product.isInf then none else some product
    else if x == 0 then some x
    else none

end PushGateway.Decimal
