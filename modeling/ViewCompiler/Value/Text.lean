import ViewCompiler.Value
import ViewCompiler.Decimal.Notation
import ViewCompiler.Text.Quoted

/-! The text of a value in messages. A text stands for itself, inside a list or dictionary it is
quoted. -/
namespace ViewCompiler.Value

def numberNames : Binary64.SpecialNames := ⟨"nan", "inf"⟩

mutual
/-- The value as it is written inside another. Every integer has a text here: the bound that the
reader sets on digits, `Json.longestInteger`, is not set again on the way out. -/
def literal : Value → String
  | .null => "None"
  | .bool b => if b then "True" else "False"
  | .int n => toString n
  | .float x => x.render numberNames
  | .str s => Text.quoted s
  | .list xs => "[" ++ ", ".intercalate (itemLiterals xs) ++ "]"
  | .dict fs => "\x7b" ++ ", ".intercalate (fieldLiterals fs) ++ "\x7d"

def itemLiterals : List Value → List String
  | [] => []
  | v :: vs => literal v :: itemLiterals vs

def fieldLiterals : List (String × Value) → List String
  | [] => []
  | (k, v) :: fs => (Text.quoted k ++ ": " ++ literal v) :: fieldLiterals fs
end

def text : Value → String
  | .str s => s
  | v => v.literal

end ViewCompiler.Value
