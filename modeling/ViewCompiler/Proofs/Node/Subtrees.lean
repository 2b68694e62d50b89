import ViewCompiler.Node.Preorder
import ViewCompiler.Node.Walk
import ViewCompiler.Proofs.Pairs

/-! Trees by their direct subtrees. Every walk treats the four kinds of containers alike: it handles
the subtrees in order and puts the results back. `Node.induction` is the one induction over trees;
`preorder_eq` ties document order to it. -/
namespace ViewCompiler

namespace Loose

def nodes : Loose (List Node) → List Node
  | .proper ns => ns
  | .stray _ => []

/-- A walk passes a place that holds nodes, or a plain value without members. -/
def Passable : Loose (List Node) → Prop
  | .proper _ => True
  | .stray v => v.members = .ok []

@[simp] theorem nodes_proper (ns : List Node) : nodes (.proper ns) = ns := rfl
@[simp] theorem nodes_stray (v : Value) : nodes (.stray v) = [] := rfl
@[simp] theorem nodes_null : nodes .null = [] := rfl
@[simp] theorem passable_proper (ns : List Node) : Passable (.proper ns) := trivial

theorem eq_null_of_isNull {α : Type} {place : Loose α} (null : place.isNull) : place = .null := by
  unfold isNull at null
  split at null
  · rfl
  · cases null

theorem ne_null_of_not_isNull {α : Type} {place : Loose α} (notNull : place.isNull = false) :
    place ≠ .null := by
  rintro rfl
  cases notNull

/-- A place that is empty or counts as false has no nodes. -/
theorem nodes_of_isEmptyOrFalse {place : Children} (empty : place.isEmptyOrFalse) :
    place.nodes = [] := by
  cases place with
  | proper ns => exact List.isEmpty_iff.mp empty
  | stray v => rfl

theorem null_or_not_isNull {α : Type} (place : Loose α) : place = .null ∨ place.isNull = false := by
  cases null : place.isNull with
  | true => exact .inl (eq_null_of_isNull null)
  | false => exact .inr rfl

end Loose

namespace Node

def subtrees : Node → List Node
  | .page _ sections => sections.nodes
  | .sect _ children => children.nodes
  | .frag _ children => children.nodes
  | .cond _ body otherwise => body.nodes ++ otherwise.nodes
  | .loop _ template => [template]
  | .widget _ | .ref _ | .call _ | .slot _ | .custom _ | .stray _ => []

/-- The node with other subtrees in the place of its own. That there is nothing otherwise stays so. -/
def withSubtrees : Node → List Node → Node
  | .page p _, ns => .page p (.proper ns)
  | .sect s _, ns => .sect s (.proper ns)
  | .frag f _, ns => .frag f (.proper ns)
  | .cond c body otherwise, ns =>
    .cond c (.proper (ns.take body.nodes.length))
      (if otherwise.isNull then .null else .proper (ns.drop body.nodes.length))
  | .loop l template, ns => .loop l (ns.headD template)
  | n, _ => n

def isContainer : Node → Bool
  | .sect _ _ | .frag _ _ | .cond _ _ _ | .loop _ _ => true
  | .page _ _ | .widget _ | .ref _ | .call _ | .slot _ | .custom _ | .stray _ => false

def Passable : Node → Prop
  | .page _ sections => sections.Passable
  | .sect _ children => children.Passable
  | .frag _ children => children.Passable
  | .cond _ body otherwise => body.Passable ∧ (otherwise = .null ∨ otherwise.Passable)
  | .loop _ _ | .widget _ | .ref _ | .call _ | .slot _ | .custom _ | .stray _ => True

theorem noMembers_eq_ok {v : Value} {u : Unit} :
    (noMembers v : Except Fault Unit) = .ok u ↔ (Loose.stray v : Children).Passable := by
  unfold noMembers Loose.Passable
  cases found : v.members with
  | error fault => simp [found, throw, throwThe, MonadExceptOf.throw]
  | ok members =>
    cases members <;> simp [found, pure, Except.pure, throw, throwThe, MonadExceptOf.throw]

theorem sizeOf_lt_of_mem_nodes {children : Loose (List Node)} {n : Node} (h : n ∈ children.nodes) :
    sizeOf n < sizeOf children := by
  cases children with
  | stray v => cases h
  | proper ns =>
    have := List.sizeOf_lt_of_mem (show n ∈ ns from h)
    simp only [Loose.proper.sizeOf_spec]
    omega

theorem sizeOf_lt_of_mem_subtrees {n m : Node} (h : m ∈ n.subtrees) : sizeOf m < sizeOf n := by
  cases n with
  | page p sections | sect s sections | frag f sections =>
    have := sizeOf_lt_of_mem_nodes h
    simp only [page.sizeOf_spec, sect.sizeOf_spec, frag.sizeOf_spec]
    omega
  | cond c body otherwise =>
    simp only [subtrees, List.mem_append] at h
    rcases h with h | h <;> have := sizeOf_lt_of_mem_nodes h <;>
      simp only [cond.sizeOf_spec] <;> omega
  | loop l template =>
    simp only [subtrees, List.mem_singleton] at h
    subst h
    simp only [loop.sizeOf_spec]
    omega
  | widget w | ref r | call c | slot s | custom c | stray v => cases h

/-- What holds of a tree whenever it holds of its direct subtrees holds of every tree. -/
theorem induction {P : Node → Prop} (step : ∀ n : Node, (∀ m ∈ n.subtrees, P m) → P n) :
    ∀ n, P n := by
  intro n
  induction size : sizeOf n using Nat.strongRecOn generalizing n with
  | ind k ih =>
    apply step
    intro m member
    exact ih _ (size ▸ sizeOf_lt_of_mem_subtrees member) m rfl

theorem childrenPreorder_eq (children : Loose (List Node)) :
    childrenPreorder children = children.nodes.flatMap preorder := by
  cases children with
  | proper ns => exact nodesPreorder_eq_flatMap ns
  | stray v => rfl

theorem preorder_eq (n : Node) : n.preorder = n :: n.subtrees.flatMap preorder := by
  cases n <;> simp [preorder, subtrees, childrenPreorder_eq, List.flatMap_append]

/-- What is picked from a tree is picked from its root and then from its subtrees in order. -/
theorem filter_preorder (p : Node → Bool) (n : Node) :
    n.preorder.filter p = [n].filter p ++ n.subtrees.flatMap fun m => m.preorder.filter p := by
  rw [preorder_eq, ← List.singleton_append, List.filter_append, List.filter_flatMap]

theorem mem_preorder {n m : Node} :
    m ∈ n.preorder ↔ m = n ∨ ∃ t ∈ n.subtrees, m ∈ t.preorder := by
  rw [preorder_eq]
  simp

theorem mem_preorder_of_mem_subtrees {n m t : Node} (member : t ∈ n.subtrees)
    (below : m ∈ t.preorder) : m ∈ n.preorder :=
  mem_preorder.mpr (.inr ⟨t, member, below⟩)

/-- What is below a node of a tree is in the tree. -/
theorem mem_preorder_trans {n m k : Node} (outer : m ∈ n.preorder) (inner : k ∈ m.preorder) :
    k ∈ n.preorder := by
  induction n using induction with
  | _ n ih =>
    rcases mem_preorder.mp outer with rfl | ⟨t, member, below⟩
    · exact inner
    · exact mem_preorder_of_mem_subtrees member (ih t member below)

/-- What holds of every node of a tree holds of its root and throughout its subtrees. -/
theorem forall_mem_preorder {P : Node → Prop} {n : Node} :
    (∀ m ∈ n.preorder, P m) ↔ P n ∧ ∀ t ∈ n.subtrees, ∀ m ∈ t.preorder, P m := by
  rw [preorder_eq]
  simp only [List.forall_mem_cons, List.mem_flatMap, forall_exists_index, and_imp]
  exact and_congr_right fun _ => ⟨fun h t ht m hm => h m t ht hm, fun h m t ht hm => h t ht m hm⟩

section all

variable {P : Node → Prop} {n m : Node}

def All (P : Node → Prop) (n : Node) : Prop := ∀ m ∈ n.preorder, P m

theorem all_iff : n.All P ↔ P n ∧ ∀ m ∈ n.subtrees, m.All P := forall_mem_preorder

theorem all_leaf (leaf : n.subtrees = []) (own : P n) : n.All P := by
  rw [all_iff, leaf]
  exact ⟨own, fun _ member => by cases member⟩

theorem All.of_mem_preorder (each : n.All P) (inside : m ∈ n.preorder) : m.All P :=
  fun t below => each t (mem_preorder_trans inside below)

end all

section withSubtrees

variable {n : Node} {ns : List Node}

theorem subtrees_withSubtrees (container : n.isContainer) (length : ns.length = n.subtrees.length) :
    (n.withSubtrees ns).subtrees = ns := by
  cases n with
  | sect s children | frag f children => rfl
  | loop l template =>
    obtain ⟨m, rfl⟩ := List.length_eq_one_iff.mp length
    rfl
  | cond c body otherwise =>
    by_cases empty : otherwise.isNull
    · have none : otherwise.nodes = [] := by
        cases otherwise with
        | proper _ => cases empty
        | stray _ => rfl
      simp [subtrees, none] at length
      simp [withSubtrees, subtrees, empty, ← length]
    · simp [withSubtrees, subtrees, empty, List.take_append_drop]
  | page p sections | widget w | ref r | call c | slot s | custom c | stray v => cases container

theorem preorder_withSubtrees (container : n.isContainer) (length : ns.length = n.subtrees.length) :
    (n.withSubtrees ns).preorder = n.withSubtrees ns :: ns.flatMap preorder := by
  rw [preorder_eq, subtrees_withSubtrees container length]

/-- A property that the container keeps holds throughout the new tree as it does in its parts. -/
theorem all_withSubtrees {P : Node → Prop} (container : n.isContainer)
    (length : ns.length = n.subtrees.length) (own : P (n.withSubtrees ns))
    (each : ∀ m ∈ ns, m.All P) : (n.withSubtrees ns).All P := by
  rw [all_iff, subtrees_withSubtrees container length]
  exact ⟨own, each⟩

end withSubtrees

end Node
end ViewCompiler
