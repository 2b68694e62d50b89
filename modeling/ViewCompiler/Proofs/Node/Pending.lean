import ViewCompiler.Proofs.Node.Subtrees

/-! The references and calls of a tree: what a resolver still has to do in it. -/
namespace ViewCompiler.Node

def isPending : Node → Bool
  | .ref _ | .call _ => true
  | .page _ _ | .sect _ _ | .widget _ | .slot _ | .cond _ _ _ | .loop _ _ | .frag _ _ | .custom _
  | .stray _ => false

def pending (n : Node) : List Node := n.preorder.filter isPending

@[simp] theorem isPending_ref (r : Ref) : (Node.ref r).isPending := rfl
@[simp] theorem isPending_call (c : Call) : (Node.call c).isPending := rfl

theorem mem_pending {n m : Node} : m ∈ n.pending ↔ m ∈ n.preorder ∧ m.isPending :=
  List.mem_filter

theorem pending_eq (n : Node) :
    n.pending = [n].filter isPending ++ n.subtrees.flatMap pending :=
  filter_preorder isPending n

@[simp] theorem pending_ref (r : Ref) : (Node.ref r).pending = [.ref r] := rfl
@[simp] theorem pending_call (c : Call) : (Node.call c).pending = [.call c] := rfl

theorem not_isPending_of_isContainer {n : Node} (container : n.isContainer) :
    n.isPending = false := by
  cases n with
  | sect | frag | cond | loop => rfl
  | page | widget | ref | call | slot | custom | stray => cases container

/-- A container has nothing to do but in its subtrees. -/
theorem pending_of_isContainer {n : Node} (container : n.isContainer) :
    n.pending = n.subtrees.flatMap pending := by
  rw [pending_eq, List.filter_singleton, not_isPending_of_isContainer container]
  rfl

theorem isContainer_withSubtrees {n : Node} {ns : List Node} :
    (n.withSubtrees ns).isContainer = n.isContainer := by
  cases n <;> rfl

theorem pending_withSubtrees {n : Node} {ns : List Node} (container : n.isContainer)
    (length : ns.length = n.subtrees.length) :
    (n.withSubtrees ns).pending = ns.flatMap pending := by
  rw [pending_of_isContainer (by rw [isContainer_withSubtrees]; exact container),
    subtrees_withSubtrees container length]

/-- What is to be done in a part is to be done in the whole. -/
theorem pending_subset {n m : Node} (inside : m ∈ n.preorder) : m.pending ⊆ n.pending := by
  intro t member
  obtain ⟨deeper, pending⟩ := mem_pending.mp member
  exact mem_pending.mpr ⟨mem_preorder_trans inside deeper, pending⟩

theorem pending_subset_of_mem_subtrees {n m : Node} (member : m ∈ n.subtrees) :
    m.pending ⊆ n.pending :=
  pending_subset (mem_preorder_of_mem_subtrees member (mem_preorder_self m))

end ViewCompiler.Node
