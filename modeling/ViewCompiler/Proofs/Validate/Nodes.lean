import ViewCompiler.Proofs.Node.Trees
import ViewCompiler.Proofs.Validate.Findings

/-! Validation node by node. The findings on a tree are those on each of its nodes, in document
order, and only widgets, references and calls have findings of their own. -/
namespace ViewCompiler

/-- A check gets past the node, which is one that may stand in a tree, and past its places for
children. -/
def Node.Checkable : Node → Prop
  | .sect _ children | .frag _ children => children.Passable
  | .cond _ body otherwise => body.Passable ∧ (otherwise.isEmptyOrFalse ∨ otherwise.Passable)
  | .widget _ | .ref _ | .call _ | .slot _ | .loop _ _ => True
  | .page _ _ | .custom _ | .stray _ => False

namespace Validate

variable {registry : Registry} {hasLoader : Bool} {children : Children} {n : Node}

def checkOwn (registry : Registry) (hasLoader : Bool) : Node → Findings
  | .widget w => checkWidget registry hasLoader w
  | .ref r => checkRef r
  | .call c => checkCall c
  | .page _ _ | .sect _ _ | .slot _ | .cond _ _ _ | .loop _ _ | .frag _ _ | .custom _ | .stray _ =>
    Findings.none

theorem checkNodes_eq_all (ns : List Node) :
    checkNodes registry hasLoader ns = Findings.all (ns.map (checkNode registry hasLoader)) := by
  induction ns with
  | nil => rfl
  | cons n ns ih => rw [checkNodes, ih, List.map_cons, Findings.all_cons]

theorem checkChildren_eq (passable : children.Passable) :
    checkChildren registry hasLoader children =
      Findings.all (children.nodes.map (checkNode registry hasLoader)) := by
  cases children with
  | proper ns => exact checkNodes_eq_all ns
  | stray v =>
    rw [checkChildren, Node.noMembers_eq_ok (u := ()) |>.mpr passable]
    rfl

/-- A place that is empty or counts as false is passed over, and has no nodes. -/
theorem checkOtherwise_eq (free : children.isEmptyOrFalse ∨ children.Passable) :
    (if children.isEmptyOrFalse then Findings.none else checkChildren registry hasLoader children) =
      Findings.all (children.nodes.map (checkNode registry hasLoader)) := by
  by_cases empty : children.isEmptyOrFalse
  · rw [if_pos empty, Loose.nodes_of_isEmptyOrFalse empty]
    rfl
  · rw [if_neg empty]
    exact checkChildren_eq (free.resolve_left empty)

/-- A node is checked before its subtrees. -/
theorem checkNode_eq (checkable : n.Checkable) :
    checkNode registry hasLoader n = (checkOwn registry hasLoader n).and
      (Findings.all (n.subtrees.map (checkNode registry hasLoader))) := by
  cases n with
  | sect s children | frag s children =>
    rw [checkNode, checkChildren_eq checkable]
    exact (Findings.none_and _).symm
  | cond c body otherwise =>
    rw [checkNode, checkChildren_eq checkable.1, checkOtherwise_eq checkable.2,
      ← Findings.all_append, ← List.map_append]
    exact (Findings.none_and _).symm
  | loop l template =>
    rw [checkNode]
    exact ((Findings.none_and _).trans (Findings.and_none _)).symm
  | widget | ref | call | slot =>
    rw [checkNode]
    exact (Findings.and_none _).symm
  | page | custom | stray => cases checkable

theorem checkable_of_isRegular (regular : n.isRegular) : n.Checkable := by
  have passable := Node.passable_of_isRegular regular
  cases n with
  | sect | frag => exact passable
  | cond c body otherwise =>
    refine ⟨passable.1, passable.2.imp ?_ id⟩
    rintro rfl
    rfl
  | widget | ref | call | slot | loop => trivial
  | page | custom | stray => cases regular

theorem passable_of_checkChildren {ds : List Diagnostic}
    (found : checkChildren registry hasLoader children = .ok ds) : children.Passable := by
  cases children with
  | proper ns => trivial
  | stray v =>
    obtain ⟨u, walked, -⟩ := Except.bind_eq_ok.mp found
    exact Node.noMembers_eq_ok.mp walked

theorem checkable_of_checkNode {ds : List Diagnostic}
    (found : checkNode registry hasLoader n = .ok ds) : n.Checkable := by
  cases n with
  | sect | frag =>
    rw [checkNode] at found
    exact passable_of_checkChildren found
  | cond c body otherwise =>
    rw [checkNode] at found
    obtain ⟨_, _, first, second, -⟩ := Findings.and_eq_ok.mp found
    refine ⟨passable_of_checkChildren first, ?_⟩
    by_cases empty : otherwise.isEmptyOrFalse
    · exact .inl empty
    · rw [if_neg empty] at second
      exact .inr (passable_of_checkChildren second)
  | widget | ref | call | slot | loop => trivial
  | page | custom | stray =>
    rw [checkNode] at found
    cases found

/-- A check of a list is a check of each item. -/
theorem exists_of_all_checkNode {ns : List Node} {ds : List Diagnostic}
    (found : Findings.all (ns.map (checkNode registry hasLoader)) = .ok ds) :
    ∀ n ∈ ns, ∃ ds, checkNode registry hasLoader n = .ok ds := by
  intro n member
  obtain ⟨dss, each, -⟩ := Findings.all_eq_ok.mp found
  obtain ⟨ds, -, checked⟩ := exists_right_of_forall₂ (List.forall₂_map_left_iff.mp each) member
  exact ⟨ds, checked⟩

/-- A check that comes to its end got past every node of the tree. -/
theorem checkable_of_mem_preorder {ds : List Diagnostic}
    (found : checkNode registry hasLoader n = .ok ds) : ∀ m ∈ n.preorder, m.Checkable := by
  induction n using Node.induction generalizing ds with
  | _ n ih =>
  have here := checkable_of_checkNode found
  rw [checkNode_eq here] at found
  obtain ⟨_, _, -, below, -⟩ := Findings.and_eq_ok.mp found
  refine Node.forall_mem_preorder.mpr ⟨here, fun m member => ?_⟩
  obtain ⟨_, checked⟩ := exists_of_all_checkNode below m member
  exact ih m member checked

/-- The findings on a tree are those on its nodes in document order. -/
theorem checkNode_eq_all_preorder (checkable : ∀ m ∈ n.preorder, m.Checkable) :
    checkNode registry hasLoader n =
      Findings.all (n.preorder.map (checkOwn registry hasLoader)) := by
  induction n using Node.induction with
  | _ n ih =>
  obtain ⟨here, below⟩ := Node.forall_mem_preorder.mp checkable
  have inside : n.subtrees.map (checkNode registry hasLoader) = n.subtrees.map fun m =>
      Findings.all (m.preorder.map (checkOwn registry hasLoader)) :=
    List.map_congr_left fun m member => ih m member (below m member)
  rw [checkNode_eq here, inside, Node.preorder_eq, List.map_cons, Findings.all_cons,
    List.map_flatMap, Findings.all_flatMap]

/-- All nodes of all trees in a place for children are checked in document order. -/
theorem checkChildren_eq_all_preorder (passable : children.Passable)
    (checkable : ∀ n ∈ children.nodes, ∀ m ∈ n.preorder, m.Checkable) :
    checkChildren registry hasLoader children = Findings.all
      ((children.nodes.flatMap Node.preorder).map (checkOwn registry hasLoader)) := by
  rw [checkChildren_eq passable, List.map_flatMap, Findings.all_flatMap]
  exact congrArg Findings.all (List.map_congr_left fun n member =>
    checkNode_eq_all_preorder (checkable n member))

/-- A check that comes to its end got past every node, so its findings are those on all nodes. -/
theorem all_of_checkChildren {ds : List Diagnostic}
    (found : checkChildren registry hasLoader children = .ok ds) :
    Findings.all ((children.nodes.flatMap Node.preorder).map (checkOwn registry hasLoader)) =
      .ok ds := by
  have passable := passable_of_checkChildren found
  have checkable : ∀ n ∈ children.nodes, ∀ m ∈ n.preorder, m.Checkable := by
    intro n member
    rw [checkChildren_eq passable] at found
    obtain ⟨_, checked⟩ := exists_of_all_checkNode found n member
    exact checkable_of_mem_preorder checked
  rw [← checkChildren_eq_all_preorder passable checkable, found]

/-- What is found on a node of a page, between what is found on the page and the nodes in front of it
and what is found on the nodes behind it. -/
structure FindingsAt (registry : Registry) (p : Page) (children : Children) (front : List Node)
    (n : Node) (back : List Node) (before own after : List Diagnostic) : Prop where
  ahead : (checkPage p children).and
    (Findings.all (front.map (checkOwn registry (! p.loader.isNull)))) = .ok before
  here : checkOwn registry (! p.loader.isNull) n = .ok own
  behind : Findings.all (back.map (checkOwn registry (! p.loader.isNull))) = .ok after

/-- The findings on a page can be cut at each of its nodes. -/
theorem exists_findingsAt {p : Page} {front back : List Node} {found : List Diagnostic}
    (split : (Node.page p children).preorder = front ++ n :: back)
    (checked : validate registry (.page p children) = .ok found) :
    ∃ before own after, found = before ++ own ++ after ∧
      FindingsAt registry p children front n back before own after := by
  obtain ⟨first, second, page, tree, rfl⟩ := Findings.and_eq_ok.mp checked
  have each : Findings.all ((Node.page p children).preorder.map
      (checkOwn registry (! p.loader.isNull))) = .ok second := by
    rw [Node.preorder_eq, List.map_cons, Findings.all_cons, ← all_of_checkChildren tree]
    exact Findings.none_and _
  rw [split, List.map_append, List.map_cons, Findings.all_append, Findings.all_cons] at each
  obtain ⟨middle, _, early, rest, rfl⟩ := Findings.and_eq_ok.mp each
  obtain ⟨own, after, here, late, rfl⟩ := Findings.and_eq_ok.mp rest
  refine ⟨first ++ middle, own, after, by simp, ?_, here, late⟩
  exact Findings.and_eq_ok.mpr ⟨first, middle, page, early, rfl⟩

section remarks

variable {w : Widget}

/-- An image has a text for those who do not see it. -/
def isDescribed (w : Widget) : Except Fault Bool := do
  if ← w.props.contains "alt" then pure true else hasLabel w

/-- A widget that a user acts on has a label of either kind. -/
def isLabelled (w : Widget) : Except Fault Bool := do
  if ← hasLabel w then pure true else return (← w.props.lookup "label").truthy

theorem checkAlternative_eq : checkAlternative w = isDescribed w >>= fun described =>
    Findings.when (w.type.isText "image" && ! described)
      (Findings.one .warning w.toHead .accessibilityWarning
        "Image widget missing \"alt\" text") := by
  rw [checkAlternative, isDescribed]
  cases w.props.contains "alt" with
  | error fault => rfl
  | ok present => cases present <;> rfl

theorem checkLabel_eq : checkLabel w = Findings.when (interactiveTypes.any w.type.isText)
    (isLabelled w >>= fun labelled => Findings.when (! labelled)
      (Findings.one .info w.toHead .accessibilityWarning
        s!"Widget \"{w.type.text}\" should have an aria-label or label")) := by
  rw [checkLabel, isLabelled]
  cases hasLabel w with
  | error fault => rfl
  | ok named =>
    cases named with
    | true => rfl
    | false => cases w.props.lookup "label" <;> rfl

end remarks

end Validate
end ViewCompiler
