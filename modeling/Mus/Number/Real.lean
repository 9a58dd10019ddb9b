/-! Exact views of binary floating-point numbers. A finite number is a sign and
`mantissa * 2 ^ exponent`; what is computed exactly there is rounded once, to
the nearest representable number and to the even one of two equally near. -/
namespace Mus.Real

/-- The absolute value of a finite number, `mantissa * 2 ^ exponent`, and its sign. -/
structure Parts where
  negative : Bool
  mantissa : Nat
  exponent : Int
  deriving DecidableEq, Repr

inductive View where
  | finite (parts : Parts)
  | infinite (negative : Bool)
  | undefined
  deriving DecidableEq, Repr

/-- Splits a number at the borders of its 64-bit form. -/
def view (x : Float) : View :=
  let bits := x.toBits.toNat
  let negative := decide (Nat.pow 2 63 ≤ bits)
  let field : Nat := bits / Nat.pow 2 52 % Nat.pow 2 11
  let fraction : Nat := bits % Nat.pow 2 52
  if field = 2047 then
    if fraction = 0 then .infinite negative else .undefined
  else if field = 0 then .finite ⟨negative, fraction, -1074⟩
  else .finite ⟨negative, Nat.pow 2 52 + fraction, (field : Int) - 1075⟩

/-- Quotient rounded to the nearest whole number, a half to the even one. -/
def roundDiv (num den : Nat) : Nat :=
  let low := num / den
  let rest := num % den
  if 2 * rest < den ∨ 2 * rest = den ∧ low % 2 = 0 then low else low + 1

/-- The number `num * 2 ^ shift` as a quotient of whole numbers. -/
def scaled (num den : Nat) (shift : Int) : Nat × Nat :=
  if 0 ≤ shift then (num * Nat.pow 2 shift.toNat, den) else (num, den * Nat.pow 2 (-shift).toNat)

/-- The largest `e` with `2 ^ e ≤ num / den`. -/
def binaryExponent (num den : Nat) : Int :=
  let guess := (Nat.log2 num : Int) - Nat.log2 den
  let at' := scaled num den (-guess)
  if at'.2 ≤ at'.1 then guess else guess - 1

/-- The floating-point number nearest to a quotient of whole numbers; none when
that is beyond the largest one. -/
def ofRatio (negative : Bool) (num den : Nat) : Option Float :=
  let sign : Nat := if negative then Nat.pow 2 63 else 0
  if num = 0 then some (Float.ofBits (UInt64.ofNat sign))
  else
    let shift := max (binaryExponent num den - 52) (-1074)
    let unit := scaled num den (-shift)
    let mantissa := roundDiv unit.1 unit.2
    let bits :=
      if mantissa < Nat.pow 2 52 then mantissa
      else (shift + 1075).toNat * Nat.pow 2 52 + (mantissa - Nat.pow 2 52)
    if bits < 2047 * Nat.pow 2 52 then some (Float.ofBits (UInt64.ofNat (sign + bits))) else none

def ofInt (n : Int) : Option Float :=
  ofRatio (decide (n < 0)) n.natAbs 1

def Parts.truncate (parts : Parts) : Int :=
  let size := parts.mantissa * Nat.pow 2 parts.exponent.toNat / Nat.pow 2 (-parts.exponent).toNat
  if parts.negative then -(size : Int) else size

def compareInt (n : Int) (parts : Parts) : Ordering :=
  let size : Int := parts.mantissa * Nat.pow 2 parts.exponent.toNat
  compare (n * Nat.pow 2 (-parts.exponent).toNat) (if parts.negative then -size else size)

/-- The remainder of division towards zero. It has the sign of the dividend. -/
def truncatedRemainder (x y : Float) : Float :=
  match view x, view y with
  | .finite a, .finite b =>
      if b.mantissa = 0 then 0.0 / 0.0
      else
        let low := min a.exponent b.exponent
        let size := a.mantissa * Nat.pow 2 (a.exponent - low).toNat %
          (b.mantissa * Nat.pow 2 (b.exponent - low).toNat)
        let unit := scaled size 1 low
        (ofRatio a.negative unit.1 unit.2).getD (0.0 / 0.0)
  | .finite _, .infinite _ => x
  | _, _ => 0.0 / 0.0

def isNegative (x : Float) : Bool :=
  decide (Nat.pow 2 63 ≤ x.toBits.toNat)

/-- The remainder of division towards negative infinity. It has the sign of the
divisor, also when it is zero. -/
def flooredRemainder (x y : Float) : Float :=
  let rest := truncatedRemainder x y
  if rest == 0.0 then (if isNegative y then -0.0 else 0.0)
  else if (y < 0.0) != (rest < 0.0) then rest + y
  else rest

end Mus.Real
