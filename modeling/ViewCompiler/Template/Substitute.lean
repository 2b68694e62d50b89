import ViewCompiler.Node.Walk
import ViewCompiler.Template

/-! Templates with arguments filled in. Only a whole prop or binding path that is a dollar sign and a
bound name is replaced; what comes in its place is not looked at again. -/
namespace ViewCompiler

def placeholder? : Value → Option String
  | .str s =>
    match s.toList with
    | '$' :: name => some (String.ofList name)
    | _ => none
  | _ => none

def fill (args : Fields) (v : Value) : Value :=
  match placeholder? v with
  | some name => (args.get? name).getD v
  | none => v

def fillProps (args : Fields) (props : Fields) : Fields :=
  props.map fun f => (f.1, fill args f.2)

/-- A binding that is filled with anything but a text becomes a prop. -/
def Widget.fill (args : Fields) (w : Widget) : Except Fault Widget := do
  let props := fillProps args (← w.props.fields)
  match w.source with
  | .stray .null => return { w with props := .dict props }
  | .stray _ => throw (.noPart "path")
  | .proper binding =>
    match ViewCompiler.fill args binding.path with
    | .str path =>
      return { w with source := .proper { binding with path := .str path }, props := .dict props }
    | v => return { w with source := .null, props := .dict (Entries.put props "source" v) }

namespace Node

def filler (args : Fields) : Visitor (Except Fault) :=
  .only .widget fun
    | .widget w => .widget <$> w.fill args
    | n => return n

def substitute (template : Node) (args : Fields) : Except Fault Node :=
  walkChild (filler args) template

end Node
end ViewCompiler
