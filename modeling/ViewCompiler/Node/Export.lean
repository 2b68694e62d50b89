import ViewCompiler.Node.Kind

/-! Nodes as plain data: location and metadata, the fields of the kind in a fixed order, and the kind
last. -/
namespace ViewCompiler

def Loose.toValue (write : α → Value) : Loose α → Value
  | .proper a => write a
  | .stray v => v

def Location.toValue (l : Location) : Value := .dict [
  ("file", l.file), ("line", l.line), ("col", l.col), ("end_line", l.endLine),
  ("end_col", l.endCol)]

def Binding.toValue (b : Binding) : Value := .dict [
  ("path", b.path), ("entity_type", b.entityType), ("field_type", b.fieldType)]

def Layout.toValue (l : Layout) : Value := .dict [
  ("sm", l.sm), ("md", l.md), ("lg", l.lg), ("xl", l.xl)]

def Loader.toValue (l : Loader) : Value := .dict [
  ("source", l.source), ("params", l.params.toValue .list)]

def Accessibility.toValue (a : Accessibility) : Value := .dict [
  ("role", a.role), ("aria_label", a.ariaLabel), ("aria_live", a.ariaLive),
  ("landmark", a.landmark), ("skip_nav", a.skipNav), ("focus_trap", a.focusTrap),
  ("reduce_motion", a.reduceMotion)]

def Responsive.toValue (r : Responsive) : Value := .dict [
  ("strategy", r.strategy), ("breakpoints", r.breakpoints)]

namespace Node

def headFields (h : Head) : Fields :=
  [("loc", h.loc.toValue Location.toValue), ("meta", h.metadata)]

/-- The fields of one node with its kind after them. -/
def record (h : Head) (own : Fields) (kind : String) : Value :=
  .dict (headFields h ++ own ++ [("kind", .str kind)])

mutual
def toValue : Node → Value
  | .page p sections => record p.toHead [
      ("name", p.name), ("type", p.type), ("route", p.route), ("auth", p.auth), ("ssr", p.ssr),
      ("loader", p.loader.toValue Loader.toValue), ("page_meta", p.pageMeta),
      ("accessibility", p.accessibility.toValue Accessibility.toValue),
      ("responsive", p.responsive.toValue Responsive.toValue),
      ("sections", childrenToValue sections)] Kind.page.name
  | .sect s children => record s.toHead [
      ("name", s.name), ("layout", s.layout.toValue Layout.toValue), ("tag", s.tag),
      ("aria_label", s.ariaLabel), ("children", childrenToValue children)] Kind.sect.name
  | .widget w => record w.toHead [
      ("widget_type", w.type), ("source", w.source.toValue Binding.toValue), ("props", w.props)]
      Kind.widget.name
  | .ref r => record r.toHead [
      ("target", r.target), ("page", r.pageName), ("section", r.sectionName)] Kind.ref.name
  | .call c => record c.toHead [("name", c.name), ("args", c.args)] Kind.call.name
  | .slot s => record s.toHead [
      ("name", s.name), ("description", s.description), ("optional", s.optional)] Kind.slot.name
  | .cond c body otherwise => record c.toHead [
      ("condition", c.condition), ("then", childrenToValue body),
      ("otherwise", childrenToValue otherwise)] Kind.cond.name
  | .loop l template => record l.toHead [
      ("source", l.source), ("template", toValue template), ("as", l.item)] Kind.loop.name
  | .frag f children => record f.toHead [("children", childrenToValue children)] Kind.frag.name
  | .custom c => record c.toHead [] c.kind
  | .stray v => v

def childrenToValue : Loose (List Node) → Value
  | .proper ns => .list (nodesToValues ns)
  | .stray v => v

def nodesToValues : List Node → List Value
  | [] => []
  | n :: ns => toValue n :: nodesToValues ns
end

/-- The key that a field is written under: underscores that keep its name apart from a reserved word
are dropped. -/
def fieldKey (field : List Char) : List Char := (field.reverse.dropWhile (· == '_')).reverse

def exported : Node → Except Fault Value
  | .stray v => .error (.notNode v.typeName)
  | n => .ok n.toValue

end Node

def Value.fieldKey : Value → Except Fault String
  | .str s => .ok (String.ofList (Node.fieldKey s.toList))
  | _ => .error .notText

end ViewCompiler
