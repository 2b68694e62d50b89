import ViewCompiler.Text.Letter

/-! Lower case of a text. A capital sigma that ends a word has a form of its own. -/
namespace ViewCompiler.Text

/-- The next letter with case stands directly after the characters that are passed over. -/
def startsCased (cs : List Char) : Bool :=
  match cs.dropWhile isCaseIgnorable with
  | [] => false
  | c :: _ => isCased c

/-- The characters before are read backwards. -/
def isFinalSigma (before after : List Char) : Bool := startsCased before && ! startsCased after

def lowerAfter (before : List Char) : List Char → List Char
  | [] => []
  | c :: cs =>
    (if c = 'Σ' then [if isFinalSigma before cs then 'ς' else 'σ'] else lowerChar c)
      ++ lowerAfter (c :: before) cs

def lower (cs : List Char) : List Char := lowerAfter [] cs

example : lower "ΑΣ Σ".toList = "ας σ".toList := by decide +kernel
example : lower "İD".toList = "i̇d".toList := by decide +kernel

end ViewCompiler.Text
