import ViewCompiler.Value.Access

/-! Schemas of widget types: the props and slots that a widget of the type declares. -/
namespace ViewCompiler

structure PropSchema where
  type : String
  required : Bool := false
  default : Value := .null
  values : Option (List Value) := none
  description : Value := .null

structure SlotSchema where
  description : Value := .null
  optional : Bool := false

structure Schema where
  name : Value
  category : Value := .str "custom"
  props : Entries String PropSchema := []
  slots : Entries String SlotSchema := []
  description : Value := .null
  base : Value := .null
  accessibility : Value := .null
  responsive : Value := .null
  template : Value := .null

namespace PropSchema

def needed (type : String) : PropSchema := { type, required := true }

def read (v : Value) : Except Fault PropSchema := do
  let fs ← match v with
    | .dict fs => pure fs
    | _ => throw .notDict
  let values ← match Fields.getD fs "values" with
    | .null => pure none
    | values => some <$> values.members
  return {
    type := ((Entries.get? fs "type").getD (.str "string")).text
    required := (Fields.getD fs "required").truthy
    default := Fields.getD fs "default"
    values
    description := Fields.getD fs "description" }

end PropSchema

namespace SlotSchema

def read (v : Value) : Except Fault SlotSchema := do
  return { description := ← v.lookup "description", optional := (← v.lookup "optional").truthy }

end SlotSchema

namespace Schema

def requiredProps (s : Schema) : List String :=
  (s.props.filter (·.2.required)).map Prod.fst

/-- Declarations by name; one that counts as false declares nothing in particular. -/
def readEach (read : Value → Except Fault α) (declarations : Value) :
    Except Fault (Entries String α) := do
  let fs ← (declarations.orElse (.dict [])).fields
  fs.mapM fun f => (f.1, ·) <$> read (f.2.orElse (.dict []))

def read (v : Value) : Except Fault Schema := do
  let name ← v.lookup "name"
  let fs ← v.fields
  if ! name.truthy then throw .unnamedSchema
  let props ← readEach PropSchema.read (fs.getD "props")
  let slots ← readEach SlotSchema.read (fs.getD "slots")
  return {
    name
    category := (Entries.get? fs "category").getD (.str "custom")
    props
    slots
    description := fs.getD "description"
    base := fs.getD "extends"
    accessibility := fs.getD "accessibility"
    responsive := fs.getD "responsive"
    template := fs.getD "template" }

/-- Declarations of the base come first and give way to own ones of the same name; what is not said
otherwise is as in the base. -/
def inherit (s base : Schema) : Schema :=
  let orBase (own inherited : Value) : Value := if own.isNull then inherited else own
  { s with
    props := base.props.merge s.props
    slots := base.slots.merge s.slots
    description := orBase s.description base.description
    accessibility := orBase s.accessibility base.accessibility
    responsive := orBase s.responsive base.responsive
    template := orBase s.template base.template }

end Schema
end ViewCompiler
