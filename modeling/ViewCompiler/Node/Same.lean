import ViewCompiler.Node.Kind

/-! Equality of nodes: of one kind, with equal locations and fields, and with equal children in
sequence. Metadata is left out at every depth, and a sequence of children never equals a plain list. -/
namespace ViewCompiler

def Loose.same (eq : α → α → Bool) : Loose α → Loose α → Bool
  | .proper a, .proper b => eq a b
  | .stray v, .stray w => v.same w
  | _, _ => false

def Location.same (a b : Location) : Bool :=
  Value.sameItems [a.file, a.line, a.col, a.endLine, a.endCol]
    [b.file, b.line, b.col, b.endLine, b.endCol]

def Binding.same (a b : Binding) : Bool :=
  Value.sameItems [a.path, a.entityType, a.fieldType] [b.path, b.entityType, b.fieldType]

def Layout.same (a b : Layout) : Bool :=
  Value.sameItems [a.sm, a.md, a.lg, a.xl] [b.sm, b.md, b.lg, b.xl]

def Loader.same (a b : Loader) : Bool :=
  a.source.same b.source && a.params.same Value.sameItems b.params

def Accessibility.same (a b : Accessibility) : Bool :=
  Value.sameItems
    [a.role, a.ariaLabel, a.ariaLive, a.landmark, a.skipNav, a.focusTrap, a.reduceMotion]
    [b.role, b.ariaLabel, b.ariaLive, b.landmark, b.skipNav, b.focusTrap, b.reduceMotion]

def Responsive.same (a b : Responsive) : Bool :=
  Value.sameItems [a.strategy, a.breakpoints] [b.strategy, b.breakpoints]

def Head.same (a b : Head) : Bool := a.loc.same Location.same b.loc

def Page.same (a b : Page) : Bool :=
  a.toHead.same b.toHead
    && Value.sameItems [a.name, a.type, a.route, a.auth, a.ssr, a.pageMeta]
      [b.name, b.type, b.route, b.auth, b.ssr, b.pageMeta]
    && a.loader.same Loader.same b.loader
    && a.accessibility.same Accessibility.same b.accessibility
    && a.responsive.same Responsive.same b.responsive

def Section.same (a b : Section) : Bool :=
  a.toHead.same b.toHead
    && Value.sameItems [a.name, a.tag, a.ariaLabel] [b.name, b.tag, b.ariaLabel]
    && a.layout.same Layout.same b.layout

def Widget.same (a b : Widget) : Bool :=
  a.toHead.same b.toHead && Value.sameItems [a.type, a.props] [b.type, b.props]
    && a.source.same Binding.same b.source

def Ref.same (a b : Ref) : Bool :=
  a.toHead.same b.toHead
    && Value.sameItems [a.target, a.pageName, a.sectionName] [b.target, b.pageName, b.sectionName]

def Call.same (a b : Call) : Bool :=
  a.toHead.same b.toHead && Value.sameItems [a.name, a.args] [b.name, b.args]

def Slot.same (a b : Slot) : Bool :=
  a.toHead.same b.toHead
    && Value.sameItems [a.name, a.description, a.optional] [b.name, b.description, b.optional]

def Conditional.same (a b : Conditional) : Bool :=
  a.toHead.same b.toHead && a.condition.same b.condition

def Loop.same (a b : Loop) : Bool :=
  a.toHead.same b.toHead && Value.sameItems [a.source, a.item] [b.source, b.item]

namespace Node

mutual
def same : Node → Node → Bool
  | .page a xs, .page b ys => a.same b && sameChildren xs ys
  | .sect a xs, .sect b ys => a.same b && sameChildren xs ys
  | .widget a, .widget b => a.same b
  | .ref a, .ref b => a.same b
  | .call a, .call b => a.same b
  | .slot a, .slot b => a.same b
  | .cond a xs us, .cond b ys vs => a.same b && sameChildren xs ys && sameChildren us vs
  | .loop a m, .loop b n => a.same b && same m n
  | .frag a xs, .frag b ys => a.toHead.same b.toHead && sameChildren xs ys
  | .custom a, .custom b => a.kind == b.kind && a.toHead.same b.toHead
  | .stray v, .stray w => v.same w
  | _, _ => false

def sameChildren : Loose (List Node) → Loose (List Node) → Bool
  | .proper xs, .proper ys => sameNodes xs ys
  | .stray v, .stray w => v.same w
  | _, _ => false

def sameNodes : List Node → List Node → Bool
  | [], [] => true
  | x :: xs, y :: ys => same x y && sameNodes xs ys
  | _, _ => false
end

end Node
end ViewCompiler
