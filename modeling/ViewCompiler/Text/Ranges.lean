/-! Character classes given as ranges of code points. -/
namespace ViewCompiler.Text

/-- The first and the last code point of each range. -/
abbrev Ranges := List (Nat × Nat)

def Ranges.has (ranges : Ranges) (c : Char) : Bool :=
  ranges.any fun r => r.1 ≤ c.toNat && c.toNat ≤ r.2

end ViewCompiler.Text
