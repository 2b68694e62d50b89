import ViewCompiler.Decimal.Shortest

/-! The written form of a double: its shortest decimal, positional for leading exponents from -4 to 15
and with a signed exponent of two digits or more outside. -/
namespace ViewCompiler

namespace Decimal

def digitText (n : Nat) : List Char := Nat.toDigits 10 n

def zeros (n : Nat) : List Char := List.replicate n '0'

def dropTrailingZeros (cs : List Char) : List Char := (cs.reverse.dropWhile (· == '0')).reverse

/-- The digits with a point in them, at least one digit on each side of it. -/
def positional (digits : List Char) (leading : Int) : List Char :=
  if leading < 0 then '0' :: '.' :: zeros (-leading - 1).toNat ++ digits
  else
    let whole := leading.toNat + 1
    if digits.length ≤ whole then digits ++ zeros (whole - digits.length) ++ ['.', '0']
    else digits.take whole ++ '.' :: digits.drop whole

def scientific (digits : List Char) (leading : Int) : List Char :=
  let fraction := digits.drop 1
  let power := digitText leading.natAbs
  digits.take 1 ++ (if fraction.isEmpty then [] else '.' :: fraction)
    ++ 'e' :: (if leading < 0 then '-' else '+') :: zeros (2 - power.length) ++ power

def layout (d : Decimal) : List Char :=
  let written := digitText d.digits
  let leading := d.exponent + written.length - 1
  let digits := dropTrailingZeros written
  if -4 ≤ leading ∧ leading ≤ 15 then positional digits leading else scientific digits leading

end Decimal

namespace Binary64

structure SpecialNames where
  nan : String
  infinity : String

def render (names : SpecialNames) : Binary64 → String
  | .nan => names.nan
  | .infinite negative => (if negative then "-" else "") ++ names.infinity
  | .finite negative m q =>
    let magnitude := if m = 0 then ['0', '.', '0'] else (Decimal.shortest m q).layout
    String.ofList (if negative then '-' :: magnitude else magnitude)

end Binary64
end ViewCompiler
