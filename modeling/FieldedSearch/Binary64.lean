import FieldedSearch.Text.Digits

namespace FieldedSearch

-- `mantissa * 2 ^ exponent`, with the full 53 bits, or with the least exponent where there are fewer.
structure Binary64 where
  mantissa : Nat
  exponent : Int
  deriving DecidableEq, Repr

namespace Binary64

def leastExponent : Int := -1074
def greatestExponent : Int := 971
def hidden : Nat := Nat.pow 2 52

def zero : Binary64 := ⟨0,leastExponent⟩

def isZero (x : Binary64) : Bool := x.mantissa = 0

-- Ties go to the even quotient.
def roundDiv (num den : Nat) : Nat :=
  let quotient := num / den
  let twice := 2 * (num % den)
  if twice < den || (twice = den && quotient % 2 = 0) then quotient else quotient + 1

-- `num / den` in units of `2 ^ exponent`, as a quotient of integers.
def inUnits (num den : Nat) (exponent : Int) : Nat × Nat :=
  (num * Nat.pow 2 (-exponent).toNat,den * Nat.pow 2 exponent.toNat)

def ofQuotient? (num den : Nat) : Option Binary64 :=
  if num = 0 then some zero
  else
    let guess := max ((num.log2 : Int) - den.log2 - 53) leastExponent
    let (n,d) := inUnits num den guess
    let exponent := if n / d < 2 * hidden then guess else guess + 1
    let (n,d) := inUnits num den exponent
    let mantissa := roundDiv n d
    let (mantissa,exponent) := if mantissa = 2 * hidden then (hidden,exponent + 1) else (mantissa,exponent)
    if exponent ≤ greatestExponent then some ⟨mantissa,exponent⟩ else none

def mul? (x y : Binary64) : Option Binary64 :=
  let exponent := x.exponent + y.exponent
  ofQuotient? (x.mantissa * y.mantissa * Nat.pow 2 exponent.toNat) (Nat.pow 2 (-exponent).toNat)

def div? (x y : Binary64) : Option Binary64 :=
  let exponent := x.exponent - y.exponent
  ofQuotient? (x.mantissa * Nat.pow 2 exponent.toNat) (y.mantissa * Nat.pow 2 (-exponent).toNat)

-- Shortest decimals. A grid is the multiples of one power of ten.

-- `count * 10 ^ power` against `quarters * 2 ^ (exponent - 2)`, brought to integers.
def gridSide (x : Binary64) (power : Int) (count : Nat) : Nat :=
  count * Nat.pow 10 power.toNat * Nat.pow 2 (2 - x.exponent).toNat
def valueSide (x : Binary64) (power : Int) (quarters : Nat) : Nat :=
  quarters * Nat.pow 2 (x.exponent - 2).toNat * Nat.pow 10 (-power).toNat

-- Whether the grid point rounds to `x`. The gap below a power of two is half as wide.
def readsBack (x : Binary64) (power : Int) (count : Nat) : Bool :=
  let point := gridSide x power count
  let below := if x.mantissa = hidden && leastExponent < x.exponent then 1 else 2
  let low := valueSide x power (4 * x.mantissa - below)
  let high := valueSide x power (4 * x.mantissa + 2)
  if x.mantissa % 2 = 0 then low ≤ point && point ≤ high else low < point && point < high

-- The grid's nearest point that reads back, of the two around `x`.
def onGrid? (x : Binary64) (power : Int) : Option Nat :=
  let value := valueSide x power (4 * x.mantissa)
  let low := value / gridSide x power 1
  match readsBack x power low,readsBack x power (low + 1) with
  | true,true =>
      let below := value - gridSide x power low
      let above := gridSide x power (low + 1) - value
      if below < above || (below = above && low % 2 = 0) then some low else some (low + 1)
  | true,false => some low
  | false,true => some (low + 1)
  | false,false => none

def leadingPower (num den : Nat) : Int :=
  if den ≤ num then ((Text.decimal (num / den)).length : Int) - 1
  else -((Text.decimal ((den + num - 1) / num - 1)).length : Int)

-- The fewest digits that read back as `x`, and the power of ten of the last one. Seventeen always suffice.
def shortest (x : Binary64) : Nat × Int :=
  let leading := leadingPower (x.mantissa * Nat.pow 2 x.exponent.toNat) (Nat.pow 2 (-x.exponent).toNat)
  ((List.range 17).findSome? fun (n : Nat) =>
    let power := leading - n
    (onGrid? x power).map fun count => (count,power)).getD (x.mantissa,0)

-- Positional from 1e-5 up to, not including, 1e16, always with a decimal. Elsewhere with a signed exponent.
def text (x : Binary64) : Text :=
  if x.isZero then "0.0".toList
  else
    let (count,power) := x.shortest
    let all := Text.decimal count
    let digits := (all.reverse.dropWhile (· = '0')).reverse
    let leading := power + all.length - 1
    if leading < -5 || 16 ≤ leading then
      let point := if digits.length = 1 then [] else '.' :: digits.tail
      digits.take 1 ++ point ++ 'e' :: (if leading < 0 then '-' else '+') :: Text.decimal leading.natAbs
    else if leading < 0 then "0.".toList ++ List.replicate (-leading - 1).toNat '0' ++ digits
    else
      let whole := (leading + 1).toNat
      if digits.length ≤ whole then digits ++ List.replicate (whole - digits.length) '0' ++ ".0".toList
      else digits.take whole ++ '.' :: digits.drop whole

end Binary64
end FieldedSearch
