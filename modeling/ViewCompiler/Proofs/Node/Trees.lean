import ViewCompiler.Proofs.Node.Search

/-! Trees in which every place for children holds a sequence, or nothing at all where nothing stands
otherwise. Every search in such a tree comes to its end, and a walk fails only where an action does. -/
namespace ViewCompiler

def Loose.isProper {α : Type} : Loose α → Bool
  | .proper _ => true
  | .stray _ => false

namespace Node

/-- A node that may stand below a page, with sequences in its places for children. -/
def isRegular : Node → Bool
  | .sect _ children | .frag _ children => children.isProper
  | .cond _ body otherwise => body.isProper && (otherwise.isNull || otherwise.isProper)
  | .loop _ _ | .widget _ | .ref _ | .call _ | .slot _ => true
  | .page _ _ | .custom _ | .stray _ => false

def isTree (n : Node) : Bool := n.preorder.all isRegular

def isPageTree : Node → Bool
  | .page _ (.proper ns) => ns.all isTree
  | _ => false

variable {n m : Node} {name : Value}

theorem isRegular_cond {c : Conditional} {body otherwise : Children} :
    (cond c body otherwise).isRegular ↔
      body.isProper ∧ (otherwise.isNull ∨ otherwise.isProper) := by
  simp [isRegular]

theorem isTree_iff : n.isTree ↔ n.isRegular ∧ ∀ m ∈ n.subtrees, m.isTree := by
  simp only [isTree, List.all_eq_true]
  exact forall_mem_preorder

theorem exists_of_isPageTree (tree : n.isPageTree) :
    ∃ p ns, n = .page p (.proper ns) ∧ ∀ m ∈ ns, m.isTree := by
  unfold isPageTree at tree
  split at tree
  · exact ⟨_, _, rfl, List.all_eq_true.mp tree⟩
  · cases tree

theorem exists_of_isProper {α : Type} {place : Loose α} (proper : place.isProper) :
    ∃ a, place = .proper a := by
  cases place with
  | proper a => exact ⟨a, rfl⟩
  | stray v => cases proper

theorem passable_of_isProper {children : Children} (proper : children.isProper) :
    children.Passable := by
  obtain ⟨ns, rfl⟩ := exists_of_isProper proper
  trivial

theorem join_eq {body otherwise : Children} (proper : body.isProper)
    (free : otherwise.isNull ∨ otherwise.isProper) :
    body.join otherwise = .ok (body.nodes ++ otherwise.nodes) := by
  obtain ⟨xs, rfl⟩ := exists_of_isProper proper
  rcases free with null | proper
  · rw [Loose.eq_null_of_isNull null]
    rfl
  · obtain ⟨ys, rfl⟩ := exists_of_isProper proper
    cases ys <;> rfl

/-- The children of a regular node are its subtrees. -/
theorem children_of_isRegular (regular : n.isRegular) : n.children = .ok n.subtrees := by
  cases n with
  | sect s children | frag s children =>
    obtain ⟨ns, rfl⟩ := exists_of_isProper regular
    rfl
  | cond c body otherwise =>
    obtain ⟨proper, free⟩ := isRegular_cond.mp regular
    exact join_eq proper free
  | loop | widget | ref | call | slot => rfl
  | page | custom | stray => cases regular

theorem passable_of_isRegular (regular : n.isRegular) : n.Passable := by
  cases n with
  | sect s children | frag s children => exact passable_of_isProper regular
  | cond c body otherwise =>
    obtain ⟨proper, free⟩ := isRegular_cond.mp regular
    exact ⟨passable_of_isProper proper, free.imp Loose.eq_null_of_isNull passable_of_isProper⟩
  | loop | widget | ref | call | slot => trivial
  | page | custom | stray => cases regular

section find

theorem orElse_total {first : Found} {second : Unit → Found} (one : ∃ found, first = .ok found)
    (two : ∃ found, second () = .ok found) : ∃ found, first.orElse second = .ok found := by
  obtain ⟨found, rfl⟩ := one
  cases found with
  | none => exact two
  | some t => exact ⟨some t, rfl⟩

theorem findSection_total {ns : List Node} (each : ∀ n ∈ ns, ∃ found, find name n = .ok found) :
    ∃ found, findSection ns name = .ok found := by
  induction ns with
  | nil => exact ⟨none, rfl⟩
  | cons n ns ih =>
    exact orElse_total (each n (by simp)) (ih fun m member => each m (by simp [member]))

theorem findInChildren_total {children : Children} (proper : children.isProper)
    (each : ∀ n ∈ children.nodes, ∃ found, find name n = .ok found) :
    ∃ found, findInChildren name children = .ok found := by
  obtain ⟨ns, rfl⟩ := exists_of_isProper proper
  exact findSection_total each

/-- A search through a tree comes to its end. -/
theorem find_total (tree : n.isTree) : ∃ found, find name n = .ok found := by
  induction n using induction with
  | _ n ih =>
  obtain ⟨regular, parts⟩ := isTree_iff.mp tree
  have each : ∀ m ∈ n.subtrees, ∃ found, find name m = .ok found :=
    fun m member => ih m member (parts m member)
  by_cases named : n.isNamed name
  · exact ⟨some n, by cases n <;> simp only [find, named, if_true]⟩
  · cases n with
    | sect s children | frag s children =>
      rw [find, if_neg named]
      exact findInChildren_total regular each
    | loop l template =>
      rw [find, if_neg named]
      exact each template (List.mem_singleton.mpr rfl)
    | cond c body otherwise =>
      obtain ⟨properBody, free⟩ := isRegular_cond.mp regular
      have first := findInChildren_total properBody fun m member =>
        each m (List.mem_append_left _ member)
      rw [find, if_neg named]
      simp only [join_eq properBody free]
      refine orElse_total first ?_
      split
      · exact ⟨none, rfl⟩
      · rename_i present
        have proper : otherwise.isProper := free.resolve_left fun null => by
          rw [Loose.eq_null_of_isNull null] at present
          exact present rfl
        exact findInChildren_total proper fun m member => each m (List.mem_append_right _ member)
    | widget | ref | call | slot => exact ⟨none, by rw [find, if_neg named]⟩
    | page | custom | stray => cases regular

end find

end Node

section walk

variable {σ α β : Type} {visitor : Visitor (StateT σ (Except Fault))}
  {x : StateT σ (Except Fault) α}

/-- One of the actions fails with the fault, on some node and in some state. -/
def Visitor.Fails (visitor : Visitor (StateT σ (Except Fault))) (fault : Fault) : Prop :=
  ∃ kind action n s, visitor.on kind = some action ∧ (action n).run s = .error fault

/-- If the run fails, then as one of the actions does. -/
def Visitor.Explains (visitor : Visitor (StateT σ (Except Fault))) (x : StateT σ (Except Fault) α) :
    Prop :=
  ∀ s fault, x.run s = .error fault → visitor.Fails fault

namespace Visitor.Explains

theorem pure (a : α) : visitor.Explains (pure a) := fun _ _ failed => by cases failed

theorem bind {f : α → StateT σ (Except Fault) β} (first : visitor.Explains x)
    (rest : ∀ a, visitor.Explains (f a)) : visitor.Explains (x >>= f) := by
  intro s fault failed
  rw [StateT.run_bind] at failed
  cases run : x.run s with
  | error _ =>
    rw [run] at failed
    cases failed
    exact first s fault run
  | ok r =>
    rw [run] at failed
    exact rest r.1 r.2 fault failed

theorem map {f : α → β} (explains : visitor.Explains x) : visitor.Explains (f <$> x) := by
  rw [← bind_pure_comp]
  exact explains.bind fun a => .pure (f a)

theorem visit (kind : Kind) (n : Node) : visitor.Explains (visitor.visit kind n) := by
  intro s fault failed
  unfold Visitor.visit at failed
  split at failed
  · next action acts => exact ⟨kind, action, n, s, acts, failed⟩
  · cases failed

end Visitor.Explains

namespace Node

variable {n : Node}

theorem explains_walkNodes {ns : List Node} (each : ∀ n ∈ ns, visitor.Explains (walkChild visitor n)) :
    visitor.Explains (walkNodes visitor ns) := by
  induction ns with
  | nil => exact .pure []
  | cons n ns ih =>
    obtain ⟨first, rest⟩ := List.forall_mem_cons.mp each
    exact first.bind fun _ => (ih rest).bind fun _ => .pure _

theorem explains_walkChildren {children : Children} (proper : children.isProper)
    (each : ∀ n ∈ children.nodes, visitor.Explains (walkChild visitor n)) :
    visitor.Explains (walkChildren visitor children) := by
  obtain ⟨ns, rfl⟩ := exists_of_isProper proper
  exact (explains_walkNodes each).map

theorem explains_walkOtherwise {otherwise : Children} (free : otherwise.isNull ∨ otherwise.isProper)
    (each : ∀ n ∈ otherwise.nodes, visitor.Explains (walkChild visitor n)) :
    visitor.Explains (walkOtherwise visitor otherwise) := by
  rcases free with null | proper
  · rw [Loose.eq_null_of_isNull null]
    exact .pure Loose.null
  · obtain ⟨ns, rfl⟩ := exists_of_isProper proper
    exact (explains_walkNodes each).map

/-- A walk through a tree fails only where an action does, whatever the actions are. -/
theorem explains_walkChild (tree : n.isTree) : visitor.Explains (walkChild visitor n) := by
  induction n using induction with
  | _ n ih =>
  obtain ⟨regular, parts⟩ := isTree_iff.mp tree
  have each : ∀ m ∈ n.subtrees, visitor.Explains (walkChild visitor m) :=
    fun m member => ih m member (parts m member)
  cases n with
  | sect s children => exact (explains_walkChildren regular each).bind fun _ => .visit .sect _
  | frag f children => exact (explains_walkChildren regular each).bind fun _ => .visit .frag _
  | loop l template =>
    exact (each template (List.mem_singleton.mpr rfl)).bind fun _ => .visit .loop _
  | cond c body otherwise =>
    obtain ⟨proper, free⟩ := isRegular_cond.mp regular
    exact (explains_walkChildren proper fun m member => each m (List.mem_append_left _ member)).bind
      fun _ => (explains_walkOtherwise free fun m member =>
        each m (List.mem_append_right _ member)).bind fun _ => .visit .cond _
  | widget | ref | call | slot => exact .visit _ _
  | page | custom | stray => cases regular

/-- So does a walk from a tree's root. -/
theorem explains_walk (tree : n.isTree) : visitor.Explains (walk visitor n) := by
  cases n with
  | sect | frag | loop | cond | widget | ref | call | slot => exact explains_walkChild tree
  | page | custom | stray => cases (isTree_iff.mp tree).1

end Node

end walk

end ViewCompiler
