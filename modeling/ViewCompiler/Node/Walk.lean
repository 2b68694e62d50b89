import ViewCompiler.Node.Children

/-! Walks over view trees, from the leaves up. A visitor has at most one action for each kind; it gets
the node with its children walked already, and its answer takes the place of the node. -/
namespace ViewCompiler

structure Visitor (m : Type → Type) where
  on : Kind → Option (Node → m Node) := fun _ => none

namespace Visitor

variable {m : Type → Type} [Monad m]

/-- Without an action the node stays as it is. -/
def visit (visitor : Visitor m) (kind : Kind) (n : Node) : m Node :=
  match visitor.on kind with
  | some action => action n
  | none => pure n

def always (action : Node → m Node) : Visitor m := ⟨fun _ => some action⟩

def only (kind : Kind) (action : Node → m Node) : Visitor m :=
  ⟨fun k => if k = kind then some action else none⟩

end Visitor

namespace Node

variable {m : Type → Type} [Monad m] [MonadExceptOf Fault m]

/-- A plain value can be walked as a sequence of children only if it has no members. -/
def noMembers (v : Value) : m Unit :=
  match v.members with
  | .ok [] => pure ()
  | .ok _ => throw .notChild
  | .error fault => throw fault

mutual
def walkChild (visitor : Visitor m) : Node → m Node
  | .sect s children => do visitor.visit .sect (.sect s (← walkChildren visitor children))
  | .widget w => visitor.visit .widget (.widget w)
  | .ref r => visitor.visit .ref (.ref r)
  | .call c => visitor.visit .call (.call c)
  | .slot s => visitor.visit .slot (.slot s)
  | .cond c body otherwise => do
    let body ← walkChildren visitor body
    let otherwise ← walkOtherwise visitor otherwise
    visitor.visit .cond (.cond c body otherwise)
  | .loop l template => do visitor.visit .loop (.loop l (← walkChild visitor template))
  | .frag f children => do visitor.visit .frag (.frag f (← walkChildren visitor children))
  | .page _ _ | .custom _ | .stray _ => throw .notChild

def walkChildren (visitor : Visitor m) : Loose (List Node) → m (Loose (List Node))
  | .proper ns => .proper <$> walkNodes visitor ns
  | .stray v => do
    noMembers v
    return .proper []

/-- That there is nothing otherwise stays so. -/
def walkOtherwise (visitor : Visitor m) : Loose (List Node) → m (Loose (List Node))
  | .stray .null => pure .null
  | .proper ns => .proper <$> walkNodes visitor ns
  | .stray v => do
    noMembers v
    return .proper []

def walkNodes (visitor : Visitor m) : List Node → m (List Node)
  | [] => pure []
  | n :: ns => do
    let n ← walkChild visitor n
    let ns ← walkNodes visitor ns
    return n :: ns
end

def walkPage (visitor : Visitor m) : Node → m Node
  | .page p sections => do visitor.visit .page (.page p (← walkChildren visitor sections))
  | _ => throw (.noPart "sections")

def walk (visitor : Visitor m) : Node → m Node
  | .page p sections => walkPage visitor (.page p sections)
  | n => walkChild visitor n

end Node
end ViewCompiler
