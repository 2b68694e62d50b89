import ViewCompiler.Node.Kind

/-! All nodes of a tree in document order: a node before what is below it, and of a conditional the
body before what stands otherwise. A plain value in the place of children has no nodes. -/
namespace ViewCompiler.Node

mutual
def preorder (n : Node) : List Node :=
  n :: match n with
  | .page _ sections => childrenPreorder sections
  | .sect _ children => childrenPreorder children
  | .frag _ children => childrenPreorder children
  | .cond _ body otherwise => childrenPreorder body ++ childrenPreorder otherwise
  | .loop _ template => preorder template
  | .widget _ | .ref _ | .call _ | .slot _ | .custom _ | .stray _ => []

def childrenPreorder : Loose (List Node) → List Node
  | .proper ns => nodesPreorder ns
  | .stray _ => []

def nodesPreorder : List Node → List Node
  | [] => []
  | n :: ns => preorder n ++ nodesPreorder ns
end

theorem nodesPreorder_eq_flatMap (ns : List Node) : nodesPreorder ns = ns.flatMap preorder := by
  induction ns with
  | nil => rfl
  | cons n ns ih => simp [nodesPreorder, ih]

theorem mem_preorder_self (n : Node) : n ∈ n.preorder := by cases n <;> simp [preorder]

end ViewCompiler.Node
