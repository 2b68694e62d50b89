import ViewCompiler.Value.Table
import ViewCompiler.Widget.Catalog

/-! Registries of widget types. A type that extends another takes over its declarations when it is
registered, so a base that comes later gives it nothing. -/
namespace ViewCompiler

structure Registry where
  table : Table Schema := []

namespace Registry

def size (r : Registry) : Nat := r.table.length

def names (r : Registry) : List Value := r.table.names

def schemas (r : Registry) : List Schema := r.table.contents

def get (r : Registry) (name : Value) : Except Fault (Option Schema) := do
  return r.table.get? (← name.key)

def has (r : Registry) (name : Value) : Except Fault Bool := do
  return (r.table.get? (← name.key)).isSome

/-- The schema with what its base gives it, if the base is registered. -/
def complete (r : Registry) (s : Schema) : Except Fault Schema := do
  if s.base.truthy then
    match ← r.get s.base with
    | some base => return s.inherit base
    | none => return s
  else return s

/-- The schema as it is stored, and the registry that has it. A schema registered again replaces the
earlier one in its place. -/
def register (r : Registry) (s : Schema) : Except Fault (Schema × Registry) := do
  let s ← r.complete s
  return (s, ⟨r.table.put (← s.name.key) s.name s⟩)

/-- The documents registered in order up to the first that fails, with that fault. -/
def loadEach (r : Registry) : List Value → Registry × Except Fault Unit
  | [] => (r, .ok ())
  | document :: rest =>
    match Schema.read document >>= r.register with
    | .ok (_, r) => loadEach r rest
    | .error fault => (r, .error fault)

def load (r : Registry) (documents : Value) : Registry × Except Fault Unit :=
  match documents.members with
  | .ok documents => r.loadEach documents
  | .error fault => (r, .error fault)

def catalog : Registry :=
  ⟨Catalog.all.map fun s => (.text s.name.text, s.name, s)⟩

/-- The known widget types and those of the documents, or the first fault of a document. -/
def create (known : Registry) (documents : Value) : Except Fault Registry :=
  match documents with
  | .null => .ok known
  | documents =>
    match known.load documents with
    | (r, .ok ()) => .ok r
    | (_, .error fault) => .error fault

end Registry
end ViewCompiler
