import ViewCompiler.Node.Kind

/-! Nodes from plain data. Fields are read in their fixed order and the first fault stands; a field
that must be present is missed only when all others have been read. Unknown fields are dropped. -/
namespace ViewCompiler

/-- Nothing stays nothing, anything else is read as a record. -/
def Loose.read (record : Value → Except Fault α) : Value → Except Fault (Loose α)
  | .null => .ok .null
  | v => .proper <$> record v

def Location.read (v : Value) : Except Fault Location :=
  return {
    file := ← v.fieldD "file" (.str "<inline>")
    line := ← v.fieldD "line" (.int 1)
    col := ← v.fieldD "col" (.int 1)
    endLine := ← v.fieldD "end_line" .null
    endCol := ← v.fieldD "end_col" .null }

def Binding.read (v : Value) : Except Fault Binding := do
  let path ← v.field? "path"
  let entityType ← v.fieldD "entity_type" .null
  let fieldType ← v.fieldD "field_type" .null
  match path with
  | some path => return ⟨path, entityType, fieldType⟩
  | none => throw (.missingField "path")

def Layout.read (v : Value) : Except Fault Layout :=
  return {
    sm := ← v.fieldD "sm" .null
    md := ← v.fieldD "md" .null
    lg := ← v.fieldD "lg" .null
    xl := ← v.fieldD "xl" .null }

def Loader.readParams : Option Value → Loose (List Value)
  | none => .proper []
  | some (.list params) => .proper params
  | some v => .stray v

def Loader.read (v : Value) : Except Fault Loader := do
  let source ← v.field? "source"
  let params ← v.field? "params"
  match source with
  | some source => return ⟨source, readParams params⟩
  | none => throw (.missingField "source")

def Accessibility.read (v : Value) : Except Fault Accessibility :=
  return {
    role := ← v.fieldD "role" .null
    ariaLabel := ← v.fieldD "aria_label" .null
    ariaLive := ← v.fieldD "aria_live" .null
    landmark := ← v.fieldD "landmark" .null
    skipNav := ← v.fieldD "skip_nav" .null
    focusTrap := ← v.fieldD "focus_trap" .null
    reduceMotion := ← v.fieldD "reduce_motion" .null }

def Responsive.read (v : Value) : Except Fault Responsive :=
  return {
    strategy := ← v.fieldD "strategy" .null
    breakpoints := ← v.fieldD "breakpoints" .null }

namespace Fields

def require (fs : Fields) (key : String) : Except Fault Value :=
  match Entries.get? fs key with
  | some v => .ok v
  | none => .error (.missingField key)

def valueD (fs : Fields) (key : String) (default : Value) : Value :=
  (Entries.get? fs key).getD default

def readRecord (fs : Fields) (key : String) (record : Value → Except Fault α) :
    Except Fault (Loose α) :=
  Loose.read record (fs.getD key)

end Fields

def Head.read (fs : Fields) : Except Fault Head := do
  let loc ← match Entries.get? fs "loc" with
    | some v => Loose.read Location.read v
    | none => pure (.proper {})
  return ⟨loc, fs.valueD "meta" (.dict [])⟩

namespace Node

mutual
def readNode (kinds : Kinds) (fs : Fields) : Except Fault Node := do
  let some nodeClass ← kinds.find? (fs.getD "kind") | throw (.unknownKind (fs.getD "kind"))
  let head ← Head.read fs
  match nodeClass with
  | .builtin .page =>
    let loader ← fs.readRecord "loader" Loader.read
    let accessibility ← fs.readRecord "accessibility" Accessibility.read
    let responsive ← fs.readRecord "responsive" Responsive.read
    let sections ← readChildren kinds fs "sections" (.proper [])
    return .page {
      toHead := head
      name := ← fs.require "name"
      type := ← fs.require "type"
      route := ← fs.require "route"
      auth := fs.valueD "auth" (.bool false)
      ssr := fs.valueD "ssr" (.bool false)
      loader
      pageMeta := fs.getD "page_meta"
      accessibility
      responsive } sections
  | .builtin .sect =>
    let layout ← fs.readRecord "layout" Layout.read
    let children ← readChildren kinds fs "children" (.proper [])
    return .sect {
      toHead := head
      name := fs.getD "name"
      layout
      tag := fs.getD "tag"
      ariaLabel := fs.getD "aria_label" } children
  | .builtin .widget =>
    let source ← fs.readRecord "source" Binding.read
    return .widget {
      toHead := head
      type := ← fs.require "widget_type"
      source
      props := fs.valueD "props" (.dict []) }
  | .builtin .ref =>
    return .ref {
      toHead := head
      target := ← fs.require "target"
      pageName := ← fs.require "page"
      sectionName := ← fs.require "section" }
  | .builtin .call =>
    return .call { toHead := head, name := ← fs.require "name", args := fs.valueD "args" (.dict []) }
  | .builtin .slot =>
    return .slot {
      toHead := head
      name := ← fs.require "name"
      description := fs.getD "description"
      optional := fs.valueD "optional" (.bool false) }
  | .builtin .cond =>
    let body ← readChildren kinds fs "then" (.proper [])
    let otherwise ← readChildren kinds fs "otherwise" .null
    return .cond { toHead := head, condition := ← fs.require "condition" } body otherwise
  | .builtin .loop =>
    let template ← readTemplate kinds fs
    return .loop {
      toHead := head
      source := ← fs.require "source"
      item := fs.valueD "as" (.str "item") } (← template)
  | .builtin .frag =>
    let children ← readChildren kinds fs "children" (.proper [])
    return .frag { toHead := head } children
  | .custom _ => return .custom { toHead := head, kind := (fs.getD "kind").text }
termination_by (sizeOf fs, 1)

def readChildren (kinds : Kinds) (fs : Fields) (key : String) (default : Loose (List Node)) :
    Except Fault (Loose (List Node)) :=
  match _h : Entries.get? fs key with
  | none => .ok default
  | some (.list items) => .proper <$> readItems kinds items
  | some v => .ok (.stray v)
termination_by (sizeOf fs, 0)
decreasing_by have := Fields.sizeOf_lt_of_get? _h; simp at this; decreasing_tactic

/-- The template of a loop; that it is absent is told last. -/
def readTemplate (kinds : Kinds) (fs : Fields) : Except Fault (Except Fault Node) :=
  match _h : Entries.get? fs "template" with
  | none => .ok (.error (.missingField "template"))
  | some v => .ok <$> readChild kinds v
termination_by (sizeOf fs, 0)
decreasing_by have := Fields.sizeOf_lt_of_get? _h; decreasing_tactic

def readItems (kinds : Kinds) : List Value → Except Fault (List Node)
  | [] => .ok []
  | v :: vs => return (← readChild kinds v) :: (← readItems kinds vs)
termination_by items => (sizeOf items, 0)

/-- A dictionary with a kind is a node, anything else stays a plain value. -/
def readChild (kinds : Kinds) (v : Value) : Except Fault Node :=
  match v with
  | .dict fs => if Entries.has fs "kind" then readNode kinds fs else .ok (.stray (.dict fs))
  | v => .ok (.stray v)
termination_by (sizeOf v, 0)
end

def ofValue (kinds : Kinds) (v : Value) : Except Fault Node := do
  let some kind ← v.field? "kind" | throw .noKind
  if (← kinds.find? kind).isSome then readNode kinds (← v.fields)
  else throw (.notKind kind kinds.names)

end Node
end ViewCompiler
