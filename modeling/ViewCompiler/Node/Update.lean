import ViewCompiler.Node.Kind

/-! Nodes with some fields replaced by plain values, and nodes put into new containers. -/
namespace ViewCompiler

namespace Head

def set? (h : Head) (field : String) (v : Value) : Option Head :=
  match field with
  | "loc" => some { h with loc := .stray v }
  | "meta" => some { h with metadata := v }
  | _ => none

end Head

namespace Page

def set? (p : Page) (field : String) (v : Value) : Option Page :=
  match field with
  | "name" => some { p with name := v }
  | "type" => some { p with type := v }
  | "route" => some { p with route := v }
  | "auth" => some { p with auth := v }
  | "ssr" => some { p with ssr := v }
  | "loader" => some { p with loader := .stray v }
  | "page_meta" => some { p with pageMeta := v }
  | "accessibility" => some { p with accessibility := .stray v }
  | "responsive" => some { p with responsive := .stray v }
  | _ => (p.toHead.set? field v).map fun h => { p with toHead := h }

end Page

namespace Section

def set? (s : Section) (field : String) (v : Value) : Option Section :=
  match field with
  | "name" => some { s with name := v }
  | "layout" => some { s with layout := .stray v }
  | "tag" => some { s with tag := v }
  | "aria_label" => some { s with ariaLabel := v }
  | _ => (s.toHead.set? field v).map fun h => { s with toHead := h }

end Section

namespace Widget

def set? (w : Widget) (field : String) (v : Value) : Option Widget :=
  match field with
  | "widget_type" => some { w with type := v }
  | "source" => some { w with source := .stray v }
  | "props" => some { w with props := v }
  | _ => (w.toHead.set? field v).map fun h => { w with toHead := h }

end Widget

namespace Ref

def set? (r : Ref) (field : String) (v : Value) : Option Ref :=
  match field with
  | "target" => some { r with target := v }
  | "page" => some { r with pageName := v }
  | "section" => some { r with sectionName := v }
  | _ => (r.toHead.set? field v).map fun h => { r with toHead := h }

end Ref

namespace Call

def set? (c : Call) (field : String) (v : Value) : Option Call :=
  match field with
  | "name" => some { c with name := v }
  | "args" => some { c with args := v }
  | _ => (c.toHead.set? field v).map fun h => { c with toHead := h }

end Call

namespace Slot

def set? (s : Slot) (field : String) (v : Value) : Option Slot :=
  match field with
  | "name" => some { s with name := v }
  | "description" => some { s with description := v }
  | "optional" => some { s with optional := v }
  | _ => (s.toHead.set? field v).map fun h => { s with toHead := h }

end Slot

namespace Conditional

def set? (c : Conditional) (field : String) (v : Value) : Option Conditional :=
  match field with
  | "condition" => some { c with condition := v }
  | _ => (c.toHead.set? field v).map fun h => { c with toHead := h }

end Conditional

namespace Loop

def set? (l : Loop) (field : String) (v : Value) : Option Loop :=
  match field with
  | "source" => some { l with source := v }
  | "as_" => some { l with item := v }
  | _ => (l.toHead.set? field v).map fun h => { l with toHead := h }

end Loop

namespace Node

/-- A child field takes the plain value as it is. -/
def set? (n : Node) (field : String) (v : Value) : Option Node :=
  match n with
  | .page p sections =>
    if field = "sections" then some (.page p (.stray v))
    else (p.set? field v).map (.page · sections)
  | .sect s children =>
    if field = "children" then some (.sect s (.stray v))
    else (s.set? field v).map (.sect · children)
  | .widget w => (w.set? field v).map .widget
  | .ref r => (r.set? field v).map .ref
  | .call c => (c.set? field v).map .call
  | .slot s => (s.set? field v).map .slot
  | .cond c body otherwise =>
    if field = "then" then some (.cond c (.stray v) otherwise)
    else if field = "otherwise" then some (.cond c body (.stray v))
    else (c.set? field v).map (.cond · body otherwise)
  | .loop l template =>
    if field = "template" then some (.loop l (.stray v))
    else (l.set? field v).map (.loop · template)
  | .frag f children =>
    if field = "children" then some (.frag f (.stray v))
    else (f.toHead.set? field v).map fun h => .frag { toHead := h } children
  | .custom c => (c.toHead.set? field v).map fun h => .custom { c with toHead := h }
  | .stray _ => none

def setAll (n : Node) (fields : Fields) : Except Fault Node :=
  fields.foldlM (fun n f =>
    match n.set? f.1 f.2 with
    | some n => .ok n
    | none => .error (.unknownField f.1)) n

def inFragment (n : Node) : Node := .frag {} (.proper [n])
def inSection (n : Node) : Node := .sect {} (.proper [n])
def inConditional (condition : Value) (n : Node) : Node :=
  .cond { condition } (.proper [n]) .null

end Node
end ViewCompiler
