import ViewCompiler.Value

/-! Equality of values. Numbers are equal by value whatever their type, lists item by item, and
dictionaries key by key in any order. -/
namespace ViewCompiler

/-- What a value is as a key of a table: equal scalars are one key. NaN is one key too, as it is in
a table that holds it, although compared as a number it equals nothing. -/
inductive Key where
  | null
  | int (n : Int)
  | float (x : Binary64)
  | text (s : String)
  deriving DecidableEq

namespace Value

/-- Lists and dictionaries are no keys. A number that is an integer is the key of that integer. -/
def key? : Value → Option Key
  | .null => some .null
  | .bool b => some (.int (if b then 1 else 0))
  | .int n => some (.int n)
  | .float x => some (match x.toInt? with
    | some n => .int n
    | none => .float x)
  | .str s => some (.text s)
  | .list _ => none
  | .dict _ => none

mutual
/-- NaN counts as equal to itself, as a list finds it again that holds it; two of them compared as
numbers would not be equal. The numbers of JSON have no such value. -/
def same : Value → Value → Bool
  | .list xs, .list ys => sameItems xs ys
  | .dict fs, .dict gs => fs.length == gs.length && sameFields fs gs
  | v, w =>
    match v.key?, w.key? with
    | some j, some k => j == k
    | _, _ => false

def sameItems : List Value → List Value → Bool
  | [], [] => true
  | x :: xs, y :: ys => same x y && sameItems xs ys
  | _, _ => false

/-- Every field of the first has its equal in the second. -/
def sameFields : List (String × Value) → List (String × Value) → Bool
  | [], _ => true
  | (k, x) :: fs, gs =>
    (match Entries.get? gs k with
      | some y => same x y
      | none => false) && sameFields fs gs
end

def isText (v : Value) (s : String) : Bool := v.same (.str s)

end Value
end ViewCompiler
