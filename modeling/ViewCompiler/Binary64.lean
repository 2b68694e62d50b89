/-! Double-precision numbers as exact values. Reading rounds a decimal to the nearest of them; nothing
here computes with them further, so no hardware arithmetic is involved. -/
namespace ViewCompiler

/-- A finite number is ±significand · 2^exponent with significand below 2^53 and exponent at least
-1074; of the forms of one number it has the one with the least exponent. -/
inductive Binary64 where
  | nan
  | infinite (negative : Bool)
  | finite (negative : Bool) (significand : Nat) (exponent : Int)
  deriving DecidableEq, Repr

namespace Binary64

def leastExponent : Int := -1074
def greatestExponent : Int := 971

/-- Significands of full length are at least the first of these and below the second. -/
def leastFull : Nat := 0x10000000000000
def tooLong : Nat := 0x20000000000000

def powerOfTwo (n : Nat) : Nat := Nat.pow 2 n
def powerOfTen (n : Nat) : Nat := Nat.pow 10 n

def isZero : Binary64 → Bool
  | .finite _ m _ => m == 0
  | _ => false

def toInt? : Binary64 → Option Int
  | .finite negative m q =>
    let scale := powerOfTwo (-q).toNat
    if m % scale = 0 then
      let n := Int.ofNat (m / scale * powerOfTwo q.toNat)
      some (if negative then -n else n)
    else none
  | _ => none

/-- The quotient rounded to the nearest integer, a half to the even one. -/
def roundQuotient (num den : Nat) : Nat :=
  let q := num / den
  let r := num % den
  if 2 * r < den ∨ 2 * r = den ∧ q % 2 = 0 then q else q + 1

/-- The exponent of the leading binary digit of a positive quotient. -/
def leadingExponent (num den : Nat) : Int :=
  let e : Int := num.log2 - den.log2
  if num * powerOfTwo (-e).toNat < den * powerOfTwo e.toNat then e - 1 else e

/-- The number nearest to a quotient, a half going to the even significand. -/
def ofQuotient (negative : Bool) (num den : Nat) : Binary64 :=
  if num = 0 then .finite negative 0 leastExponent
  else
    let q := max (leadingExponent num den - 52) leastExponent
    let m := roundQuotient (num * powerOfTwo (-q).toNat) (den * powerOfTwo q.toNat)
    let (m, q) := if m = tooLong then (leastFull, q + 1) else (m, q)
    if q > greatestExponent then .infinite negative else .finite negative m q

/-- The number nearest to ±digits · 10^exponent. Beyond 10^±400 the answer is known without the
power of ten. -/
def ofDecimal (negative : Bool) (digits : Nat) (exponent : Int) : Binary64 :=
  let leading := exponent + (Nat.toDigits 10 digits).length
  if digits = 0 ∨ leading < -400 then .finite negative 0 leastExponent
  else if leading > 400 then .infinite negative
  else ofQuotient negative (digits * powerOfTen exponent.toNat) (powerOfTen (-exponent).toNat)

example : ofDecimal false 5 (-324) = .finite false 1 (-1074) := by decide +kernel
example : ofDecimal false 9007199254740993 0 = .finite false leastFull 1 := by decide +kernel
example : ofDecimal true 17976931348623159 292 = .infinite true := by decide +kernel
example : (ofDecimal false 3 2).toInt? = some 300 := by decide +kernel

end Binary64
end ViewCompiler
