import ViewCompiler.Binary64

/-! The shortest decimal of a double: the fewest digits that read back to it, and of the decimals with
that many digits the nearest. Every comparison is between naturals, so none is rounded. -/
namespace ViewCompiler

/-- The number digits · 10^exponent. -/
structure Decimal where
  digits : Nat
  exponent : Int
  deriving DecidableEq, Repr

namespace Decimal

open Binary64 (powerOfTwo powerOfTen)

def length (n : Nat) : Nat := (Nat.toDigits 10 n).length

/-- The exponent of the leading decimal digit of a positive quotient. -/
def leadingExponent (num den : Nat) : Int :=
  if den ≤ num then length (num / den) - 1
  else
    let c := length (den / num)
    if den = num * powerOfTen (c - 1) then 1 - c else -c

/-- The reals that round to significand · 2^exponent, in units of 2^(exponent - 2): the bounds belong
to the interval if the significand is even. The gap below a power of two is half the gap above it. -/
def roundingInterval (m : Nat) (q : Int) : Nat × Nat :=
  let below := if m = Binary64.leastFull ∧ q > Binary64.leastExponent then 1 else 2
  (4 * m - below, 4 * m + 2)

/-- The decimal of the grid 10^k that reads back to m · 2^q and is nearest to it, if one does; of two
equally near the one with the even digit. -/
def onGrid? (m : Nat) (q : Int) (k : Int) : Option Decimal :=
  let unit := q - 2
  let step := powerOfTen k.toNat * powerOfTwo (-unit).toNat
  let scale := powerOfTen (-k).toNat * powerOfTwo unit.toNat
  let (low, high) := roundingInterval m q
  let readsBack (d : Nat) : Bool :=
    if m % 2 = 0 then low * scale ≤ d * step ∧ d * step ≤ high * scale
    else low * scale < d * step ∧ d * step < high * scale
  let value := 4 * m * scale
  let d := value / step
  let rest := value % step
  let lower := readsBack d
  let upper := readsBack (d + 1)
  let nearerBelow := 2 * rest < step ∨ 2 * rest = step ∧ d % 2 = 0
  if lower ∧ (¬ upper ∨ nearerBelow) then some ⟨d, k⟩
  else if upper then some ⟨d + 1, k⟩
  else none

/-- Seventeen digits always suffice, so the last branch only keeps the function total. -/
def shortest (m : Nat) (q : Int) : Decimal :=
  let leading := leadingExponent (m * powerOfTwo q.toNat) (powerOfTwo (-q).toNat)
  ((List.range 17).findSome? fun (n : Nat) => onGrid? m q (leading - n)).getD ⟨m, q⟩

example : shortest 1 (-1074) = ⟨5, -324⟩ := by decide +kernel
example : shortest 5404319552844595 (-54) = ⟨3, -1⟩ := by decide +kernel

end Decimal
end ViewCompiler
