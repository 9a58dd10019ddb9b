import Mus.Number.Real

/-! Text of floating-point numbers: the fewest decimal digits that read back as
the same number and, of those, the nearest. -/
namespace Mus.Real

def belowPower (num den : Nat) (k : Int) : Bool :=
  decide (num * Nat.pow 10 (-k).toNat < den * Nat.pow 10 k.toNat)

/-- The `k` with `10 ^ (k - 1) ≤ num / den < 10 ^ k`, for a positive quotient. -/
def decimalExponent (num den : Nat) : Int :=
  let guess := ((Nat.log2 num : Int) - Nat.log2 den) * 30103 / 100000
  if belowPower num den (guess - 1) then guess - 1
  else if belowPower num den guess then guess
  else if belowPower num den (guess + 1) then guess + 1
  else guess + 2

/-- The reals that round to one positive number, times four and a power of two:
the number itself, the two ends, and whether the ends belong to it. -/
structure Interval where
  value : Nat
  low : Nat
  high : Nat
  closed : Bool
  exponent : Int

/-- The rounding interval of `mantissa * 2 ^ exponent`. Below a power of two the
neighbours are half as far apart. -/
def interval (mantissa : Nat) (exponent : Int) : Interval where
  value := 4 * mantissa
  low := if mantissa = Nat.pow 2 52 ∧ -1074 < exponent then 4 * mantissa - 1 else 4 * mantissa - 2
  high := 4 * mantissa + 2
  closed := decide (mantissa % 2 = 0)
  exponent := exponent - 2

/-- Is `digits * 10 ^ grid` in the interval? -/
def Interval.holds (i : Interval) (digits : Nat) (grid : Int) : Bool :=
  let point := digits * Nat.pow 10 grid.toNat * Nat.pow 2 (-i.exponent).toNat
  let unit := Nat.pow 10 (-grid).toNat * Nat.pow 2 i.exponent.toNat
  if i.closed then decide (i.low * unit ≤ point) && decide (point ≤ i.high * unit)
  else decide (i.low * unit < point) && decide (point < i.high * unit)

/-- The multiple of `10 ^ grid` nearest to the value that lies in the interval. -/
def Interval.nearest? (i : Interval) (grid : Int) : Option Nat :=
  let num := i.value * Nat.pow 2 i.exponent.toNat * Nat.pow 10 (-grid).toNat
  let den := Nat.pow 2 (-i.exponent).toNat * Nat.pow 10 grid.toNat
  let near := roundDiv num den
  let far := if near = num / den then near + 1 else near - 1
  if i.holds near grid then some near
  else if i.holds far grid then some far
  else none

/-- Shortest digits of a positive number and the position of its decimal point:
`(d, k)` stands for `0.d * 10 ^ k`. -/
def shortest (mantissa : Nat) (exponent : Int) : List Char × Int :=
  let i := interval mantissa exponent
  let num := i.value * Nat.pow 2 i.exponent.toNat
  let den := Nat.pow 2 (-i.exponent).toNat
  let k := decimalExponent num den
  let hit? := (List.range 17).findSome? fun (n : Nat) =>
    (i.nearest? (k - ((n : Int) + 1))).map fun d => (n + 1, d)
  match hit? with
  | some (n, d) =>
      let digits := Nat.toDigits 10 d
      let shown := (digits.reverse.dropWhile (· == '0')).reverse
      (shown, k + ((digits.length : Int) - n))
  | none => ([], 0)

/-- Numbers from `10 ^ -4` up to `10 ^ 16` are written positionally, with one
digit at least on either side of the point. Others have one digit before the
point and a signed exponent of two digits at least. -/
def layout (digits : List Char) (k : Int) : List Char :=
  if -4 < k ∧ k ≤ 0 then '0' :: '.' :: List.replicate (-k).toNat '0' ++ digits
  else if 0 < k ∧ k ≤ 16 then
    if k.toNat < digits.length then digits.take k.toNat ++ '.' :: digits.drop k.toNat
    else digits ++ List.replicate (k.toNat - digits.length) '0' ++ ['.', '0']
  else
    let power := Nat.toDigits 10 (k - 1).natAbs
    let tail := (if k ≤ 0 then '-' else '+') :: (if power.length < 2 then '0' :: power else power)
    match digits with
    | [] => []
    | [d] => d :: 'e' :: tail
    | d :: rest => d :: '.' :: rest ++ 'e' :: tail

def text (x : Float) : String :=
  match view x with
  | .undefined => "nan"
  | .infinite negative => if negative then "-inf" else "inf"
  | .finite parts =>
      let sign := if parts.negative then "-" else ""
      if parts.mantissa = 0 then sign ++ "0.0"
      else
        let (digits, k) := shortest parts.mantissa parts.exponent
        sign ++ String.ofList (layout digits k)

end Mus.Real
