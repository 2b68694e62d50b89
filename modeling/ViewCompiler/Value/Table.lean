import ViewCompiler.Value.Access

/-! Tables whose keys are values. Equal keys are one; it is shown in the form in which it came first. -/
namespace ViewCompiler

abbrev Table (α : Type) := Entries Key (Value × α)

namespace Table

def get? (t : Table α) (k : Key) : Option α := (Entries.get? t k).map (·.2)

/-- A key that is there keeps its form and its place. -/
def put (t : Table α) (k : Key) (name : Value) (a : α) : Table α :=
  Entries.put t k (((Entries.get? t k).map (·.1)).getD name, a)

def names (t : Table α) : List Value := t.map (·.2.1)

def contents (t : Table α) : List α := t.map (·.2.2)

def toPairs (t : Table α) : List (Value × α) := t.map (·.2)

/-- Pairs read as successive writes; a name that cannot be a key is a fault. -/
def ofPairs (pairs : List (Value × α)) : Except Fault (Table α) :=
  pairs.foldlM (fun (t : Table α) e => do return t.put (← e.1.key) e.1 e.2) []

@[simp] theorem get?_put_self (t : Table α) (k : Key) (name : Value) (a : α) :
    (t.put k name a).get? k = some a := by simp [get?, put]

@[simp] theorem get?_put_of_ne (t : Table α) {j k : Key} (name : Value) (a : α) (h : j ≠ k) :
    (t.put j name a).get? k = t.get? k := by simp [get?, put, h]

end Table
end ViewCompiler
