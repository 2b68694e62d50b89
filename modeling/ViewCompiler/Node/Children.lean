import ViewCompiler.Node.Kind

/-! The direct children of a node, in document order: the body of a conditional before what stands
otherwise. A plain value in the place of children is taken apart as far as it has members. -/
namespace ViewCompiler

def Loose.members : Loose (List Node) → Except Fault (List Node)
  | .proper ns => .ok ns
  | .stray v => (·.map .stray) <$> v.members

def Loose.isEmptyOrFalse : Loose (List Node) → Bool
  | .proper ns => ns.isEmpty
  | .stray v => ! v.truthy

/-- Both branches of a conditional in one sequence; only sequences of one form can be joined. -/
def Loose.join (body otherwise : Loose (List Node)) : Except Fault (List Node) :=
  match body, if otherwise.isEmptyOrFalse then .proper [] else otherwise with
  | .proper xs, .proper ys => .ok (xs ++ ys)
  | .stray (.list xs), .stray (.list ys) => .ok ((xs ++ ys).map .stray)
  | .stray (.str s), .stray (.str t) => Loose.members (.stray (.str (s ++ t)))
  | _, _ => .error .notJoinable

namespace Node

def children : Node → Except Fault (List Node)
  | .page _ sections => sections.members
  | .sect _ children => children.members
  | .frag _ children => children.members
  | .cond _ body otherwise => body.join otherwise
  | .loop _ template => .ok [template]
  | .widget _ | .ref _ | .call _ | .slot _ | .custom _ | .stray _ => .ok []

def label : Node → Value
  | .page p _ => p.name
  | .sect s _ => s.name
  | .widget w => w.type
  | .ref r => r.target
  | .call c => c.name
  | .slot s => s.name
  | .cond c _ _ => c.condition
  | .loop l _ => l.source
  | .frag _ _ | .custom _ | .stray _ => .null

/-- The kinds of the direct children; each of them must be a node. -/
def childKinds (n : Node) : Except Fault (List String) := do
  (← n.children).mapM fun child =>
    match child.kind? with
    | some kind => .ok kind
    | none => .error (.noPart "kind")

end Node
end ViewCompiler
