import ViewCompiler.Node
import ViewCompiler.Value.Access

/-! Partials: named templates with parameters. -/
namespace ViewCompiler

structure Param where
  name : Value
  type : Value := .str "any"
  default : Value := .null
  hasDefault : Bool := false

structure Partial where
  name : Value
  template : Node
  params : List Param := []

namespace Partial

/-- The declared defaults by parameter; of two for one parameter the later counts. A parameter whose
name is no text is never asked for. -/
def defaults (p : Partial) : Except Fault Fields :=
  (p.params.filter (·.hasDefault)).foldlM (fun (fs : Fields) param => do
    match ← param.name.key with
    | .text name => return fs.put name param.default
    | _ => return fs) []

/-- What each parameter is bound to in a call: the argument, or else the default. -/
def bindings (p : Partial) (args : Value) : Except Fault Fields := do
  let defaults ← p.defaults
  match args with
  | .dict args => return defaults.merge args
  | _ => throw .notMergeable

end Partial
end ViewCompiler
