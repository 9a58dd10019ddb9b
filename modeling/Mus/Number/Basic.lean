import Mus.Number.Real

/-! Numbers are whole, of any size, or floating-point. An operation on two whole
numbers is exact; when one operand is a floating-point number, the other is
converted first. -/
namespace Mus

inductive Number where
  | int (n : Int)
  | float (x : Float)

namespace Number

/-- Why an operation on numbers has no result. -/
inductive Fault where
  | operandTooLarge
  | quotientTooLarge
  deriving DecidableEq, Repr

/-- Compares two numbers exactly. None if one of them is undefined. -/
def compare? : Number → Number → Option Ordering
  | .int m, .int n => some (compare m n)
  | .float x, .float y =>
      if x < y then some .lt else if y < x then some .gt
      else if x == y then some .eq else none
  | .int n, .float x => intFloat n x
  | .float x, .int n => (intFloat n x).map Ordering.swap
where
  /-- Compares a whole number with a floating-point one. -/
  intFloat (n : Int) (x : Float) : Option Ordering :=
    match Real.view x with
    | .undefined => none
    | .infinite negative => some (if negative then .gt else .lt)
    | .finite parts => some (Real.compareInt n parts)

def isZero (number : Number) : Bool :=
  number.compare? (.int 0) == some .eq

def toFloat : Number → Except Fault Float
  | .int n =>
      match Real.ofInt n with
      | some x => .ok x
      | none => .error .operandTooLarge
  | .float x => .ok x

/-- Applies one operation to two whole numbers and another to any others. -/
def combine (exact : Int → Int → Int) (rounded : Float → Float → Float) :
    Number → Number → Except Fault Number
  | .int m, .int n => .ok (.int (exact m n))
  | a, b => do
      let x ← a.toFloat
      let y ← b.toFloat
      return .float (rounded x y)

def add : Number → Number → Except Fault Number := combine (· + ·) (· + ·)

def sub : Number → Number → Except Fault Number := combine (· - ·) (· - ·)

def mul : Number → Number → Except Fault Number := combine (· * ·) (· * ·)

/-- Remainder of division towards negative infinity. The divisor is not zero. -/
def mod : Number → Number → Except Fault Number := combine Int.fmod Real.flooredRemainder

/-- Quotient, always a floating-point number, rounded once. The divisor is not
zero. -/
def div : Number → Number → Except Fault Number
  | .int m, .int n =>
      match Real.ofRatio (decide (m < 0) != decide (n < 0)) m.natAbs n.natAbs with
      | some x => .ok (.float x)
      | none => .error .quotientTooLarge
  | a, b => do
      let x ← a.toFloat
      let y ← b.toFloat
      return .float (x / y)

def neg : Number → Number
  | .int n => .int (-n)
  | .float x => .float (-x)

end Number

end Mus
