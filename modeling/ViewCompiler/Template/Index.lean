import ViewCompiler.Slug
import ViewCompiler.Template

/-! The index of partials by key and by slug. A key always has its own partial; a slug has the first
partial that claims it. -/
namespace ViewCompiler

abbrev PartialIndex := Entries String Partial

namespace PartialIndex

def add (index : PartialIndex) (key : Value) (p : Partial) : Except Fault PartialIndex := do
  match ← key.key with
  | .text name => return (Entries.put index name p).putNew (slug name) p
  | _ => throw .notText

def ofEntries (entries : List (Value × Partial)) : Except Fault PartialIndex :=
  entries.foldlM (fun index e => add index e.1 e.2) []

/-- Partials in a list go by their names. -/
def ofList (partials : List Partial) : Except Fault PartialIndex :=
  ofEntries (partials.map fun p => (p.name, p))

end PartialIndex
end ViewCompiler
