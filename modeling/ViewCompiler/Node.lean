import ViewCompiler.Value

/-! View trees. A field whose form is not checked holds a plain value; where a record or a sequence of
children is meant, a plain value may still stand in its place, and is kept as it is. -/
namespace ViewCompiler

/-- A field of the form that it should have, or a plain value in its place. -/
inductive Loose (α : Type) where
  | proper (a : α)
  | stray (v : Value)

namespace Loose

def null : Loose α := .stray .null

def isNull : Loose α → Bool
  | .stray .null => true
  | _ => false

def get? : Loose α → Option α
  | .proper a => some a
  | .stray _ => none

end Loose

structure Location where
  file : Value := .str "<inline>"
  line : Value := .int 1
  col : Value := .int 1
  endLine : Value := .null
  endCol : Value := .null

/-- A path into the data of the running page. -/
structure Binding where
  path : Value
  entityType : Value := .null
  fieldType : Value := .null

/-- A layout token for each width of the screen. -/
structure Layout where
  sm : Value := .null
  md : Value := .null
  lg : Value := .null
  xl : Value := .null

structure Loader where
  source : Value
  params : Loose (List Value) := .proper []

structure Accessibility where
  role : Value := .null
  ariaLabel : Value := .null
  ariaLive : Value := .null
  landmark : Value := .null
  skipNav : Value := .null
  focusTrap : Value := .null
  reduceMotion : Value := .null

structure Responsive where
  strategy : Value := .null
  breakpoints : Value := .null

/-- What every node has. Metadata does not count when nodes are compared. -/
structure Head where
  loc : Loose Location := .proper {}
  metadata : Value := .dict []

structure Page extends Head where
  name : Value
  type : Value
  route : Value
  auth : Value := .bool false
  ssr : Value := .bool false
  loader : Loose Loader := .null
  pageMeta : Value := .null
  accessibility : Loose Accessibility := .null
  responsive : Loose Responsive := .null

structure Section extends Head where
  name : Value := .null
  layout : Loose Layout := .null
  tag : Value := .null
  ariaLabel : Value := .null

structure Widget extends Head where
  type : Value
  source : Loose Binding := .null
  props : Value := .dict []

structure Ref extends Head where
  target : Value
  pageName : Value
  sectionName : Value

structure Call extends Head where
  name : Value
  args : Value := .dict []

structure Slot extends Head where
  name : Value
  description : Value := .null
  optional : Value := .bool false

structure Conditional extends Head where
  condition : Value

structure Loop extends Head where
  source : Value
  item : Value := .str "item"

/-- Siblings in a group that leaves no trace. -/
structure Fragment extends Head where

/-- A node of a kind that was defined later. -/
structure Custom extends Head where
  kind : String

inductive Node where
  | page (p : Page) (sections : Loose (List Node))
  | sect (s : Section) (children : Loose (List Node))
  | widget (w : Widget)
  | ref (r : Ref)
  | call (c : Call)
  | slot (s : Slot)
  | cond (c : Conditional) (body otherwise : Loose (List Node))
  | loop (l : Loop) (template : Node)
  | frag (f : Fragment) (children : Loose (List Node))
  | custom (c : Custom)
  /-- A plain value where a node should stand. -/
  | stray (v : Value)

abbrev Children := Loose (List Node)

namespace Node

def head? : Node → Option Head
  | .page p _ => some p.toHead
  | .sect s _ => some s.toHead
  | .widget w => some w.toHead
  | .ref r => some r.toHead
  | .call c => some c.toHead
  | .slot s => some s.toHead
  | .cond c _ _ => some c.toHead
  | .loop l _ => some l.toHead
  | .frag f _ => some f.toHead
  | .custom c => some c.toHead
  | .stray _ => none

end Node
end ViewCompiler
