import ViewCompiler.Value.Key
import ViewCompiler.Fault

/-! Access to values of any shape. What a value cannot answer is a fault that names the cause. -/
namespace ViewCompiler

def Text.hasPart (piece : List Char) : List Char → Bool
  | [] => piece.isEmpty
  | c :: cs => piece.isPrefixOf (c :: cs) || Text.hasPart piece cs

namespace Value

/-- The members in order: items of a list, characters of a text, keys of a dictionary. -/
def members : Value → Except Fault (List Value)
  | .list xs => .ok xs
  | .str s => .ok (s.toList.map fun c => .str (String.singleton c))
  | .dict fs => .ok (fs.map fun f => .str f.1)
  | _ => .error .notSequence

def fields : Value → Except Fault Fields
  | .dict fs => .ok fs
  | _ => .error .notDict

/-- The field that a pair gives: its first member is the key, its second what stands there. -/
def asField (v : Value) : Except Fault (String × Value) := do
  match ← v.members with
  | [.str key, w] => return (key, w)
  | [_, _] => throw .notKey
  | _ => throw .notPair

/-- The fields of a dictionary, or those that the members of another value give as pairs, written
one after the other. -/
def asFields : Value → Except Fault Fields
  | .dict fs => return fs
  | v => do (← v.members).foldlM (fun (fs : Fields) w => do
      let (key, w) ← w.asField
      return fs.put key w) []

/-- The value under a key of a dictionary, null where it is absent. -/
def lookup (v : Value) (key : String) : Except Fault Value :=
  match v with
  | .dict fs => .ok (Fields.getD fs key)
  | _ => .error .notDict

/-- A key of a dictionary, an item of a list, a part of a text. -/
def contains (v : Value) (key : String) : Except Fault Bool :=
  match v with
  | .dict fs => .ok (Entries.has fs key)
  | .list xs => .ok (xs.any (·.isText key))
  | .str s => .ok (Text.hasPart key.toList s.toList)
  | _ => .error .notSearchable

/-- The value under a key that the value contains, in whatever sense. Only a dictionary can be asked
for it. -/
def field? (v : Value) (key : String) : Except Fault (Option Value) := do
  match v with
  | .dict fs => return Entries.get? fs key
  | v => if ← v.contains key then throw .notIndexable else return none

def fieldD (v : Value) (key : String) (default : Value) : Except Fault Value :=
  (·.getD default) <$> v.field? key

def key (v : Value) : Except Fault Key :=
  match v.key? with
  | some k => .ok k
  | none => .error .notKey

/-- A list of pairs says in what order its fields are written. -/
theorem asFields_pairs (fs : Fields) :
    (Value.list (fs.map fun f => .list [.str f.1, f.2])).asFields = .ok (Entries.ofPairs fs) := by
  have written (fs start : Fields) :
      (fs.map fun f => Value.list [.str f.1, f.2]).foldlM (fun (fs : Fields) w => do
        let (key, w) ← w.asField
        return fs.put key w) start = (.ok (Entries.merge start fs) : Except Fault Fields) := by
    induction fs generalizing start with
    | nil => rfl
    | cons f fs ih => exact ih (Entries.put start f.1 f.2)
  exact written fs []

end Value
end ViewCompiler
