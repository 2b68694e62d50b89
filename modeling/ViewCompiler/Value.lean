import ViewCompiler.Binary64
import ViewCompiler.Entries

/-! Document values: what a reader of documents hands over, and what a node holds wherever no form is
imposed on it. -/
namespace ViewCompiler

/-- The fields of a dictionary are in insertion order; readers give no key twice. -/
inductive Value where
  | null
  | bool (b : Bool)
  | int (n : Int)
  | float (x : Binary64)
  | str (s : String)
  | list (items : List Value)
  | dict (fields : List (String × Value))

abbrev Fields := Entries String Value

instance : Inhabited Value := ⟨.null⟩

namespace Value

def typeName : Value → String
  | .null => "NoneType"
  | .bool _ => "bool"
  | .int _ => "int"
  | .float _ => "float"
  | .str _ => "str"
  | .list _ => "list"
  | .dict _ => "dict"

/-- Nothing, zero and the empty count as false. -/
def truthy : Value → Bool
  | .null => false
  | .bool b => b
  | .int n => n != 0
  | .float x => ! x.isZero
  | .str s => s != ""
  | .list xs => ! xs.isEmpty
  | .dict fs => ! fs.isEmpty

def isNull : Value → Bool
  | .null => true
  | _ => false

def orElse (v w : Value) : Value := if v.truthy then v else w

end Value

namespace Fields

def getD (fs : Fields) (key : String) : Value := (Entries.get? fs key).getD .null

end Fields

/-- A value found in a dictionary is smaller than the dictionary. -/
theorem Fields.sizeOf_lt_of_get? {fs : Fields} {key : String} {v : Value}
    (h : Entries.get? fs key = some v) : sizeOf v < sizeOf fs := by
  have hv := List.sizeOf_lt_of_mem (Entries.mem_of_get? h)
  simp at hv
  omega

end ViewCompiler
