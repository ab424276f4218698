import FieldedSearch.Binary64
import FieldedSearch.Json.Tree

namespace FieldedSearch.Json

inductive Number where
  | integer (value : Int)
  | binary (negative : Bool) (magnitude : Binary64)
  deriving DecidableEq, Repr

namespace Number

def wordLimit : Nat := Nat.pow 2 64

-- Digits go in as long as the word holds them. Of the rest only the count matters.
def significand : Nat → Text → Nat × Text
  | n,[] => (n,[])
  | n,c :: r =>
      let next := 10 * n + (c.toNat - 48)
      if next < wordLimit then significand next r else (n,c :: r)

def powerOfTen (power : Nat) : Option Binary64 := Binary64.ofQuotient? (Nat.pow 10 power) 1

def powerStep : Nat := 308

-- Beyond one step, division goes on until nothing is left to divide.
def scaleDown (x : Binary64) (power : Nat) : Option Binary64 :=
  if power ≤ powerStep then (powerOfTen power).bind x.div?
  else if x.isZero then some x
  else ((powerOfTen powerStep).bind x.div?).bind fun y => scaleDown y (power - powerStep)
termination_by power
decreasing_by simp only [powerStep] at *; omega

def scaleUp (x : Binary64) (power : Nat) : Option Binary64 :=
  if power ≤ powerStep then (powerOfTen power).bind x.mul?
  else if x.isZero then some x
  else none

def scale (x : Binary64) (power : Int) : Option Binary64 :=
  if power < 0 then scaleDown x power.natAbs else scaleUp x power.natAbs

-- Exponents of more digits than a signed 32-bit word holds are infinite ones.
def exponentLimit : Nat := Nat.pow 2 31

def magnitude? (significand : Nat) (power : Int) (exponent : Option (Bool × Text)) : Option Binary64 :=
  let (negative,size) := match exponent with
    | some (negative,digits) => (negative,Text.number digits)
    | none => (false,0)
  if exponentLimit ≤ size then
    if significand = 0 || negative then some .zero else none
  else
    (Binary64.ofQuotient? significand 1).bind fun x => scale x (power + if negative then -(size : Int) else size)

def isInteger (literal : NumberLiteral) : Bool := literal.fraction.isEmpty && literal.exponent.isNone

-- A minus zero and everything below the signed range is binary.
def ofLiteral? (literal : NumberLiteral) : Option Number :=
  let (n,dropped) := significand 0 literal.whole
  if isInteger literal && dropped.isEmpty && (!literal.negative || (0 < n && 2 * n ≤ wordLimit)) then
    some (.integer (if literal.negative then -(n : Int) else n))
  else
    let (n,left) := significand n literal.fraction
    let power := (dropped.length : Int) - (literal.fraction.length - left.length : Nat)
    (magnitude? n power literal.exponent).map (.binary literal.negative)

def text : Number → Text
  | .integer n => (if n < 0 then ['-'] else []) ++ Text.decimal n.natAbs
  | .binary negative x => (if negative then ['-'] else []) ++ x.text

end Number
end FieldedSearch.Json
