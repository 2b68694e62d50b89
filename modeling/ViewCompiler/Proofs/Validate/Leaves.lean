import ViewCompiler.Proofs.Validate.Totality

/-! Validation as a sum over leaves. What is found on a page is what is found on the page itself, and
then what each widget, reference and call yields by itself, in document order. How these are grouped,
and which slots stand between them, has no say. -/
namespace ViewCompiler

namespace Node

def isLeaf : Node → Bool
  | .widget _ | .ref _ | .call _ => true
  | .page _ _ | .sect _ _ | .slot _ | .cond _ _ _ | .loop _ _ | .frag _ _ | .custom _ | .stray _ =>
    false

def leaves (n : Node) : List Node := n.preorder.filter isLeaf

end Node

namespace Validate

variable {registry : Registry} {hasLoader : Bool} {n : Node} {ns ms : List Node} {p q : Page}

theorem checkOwn_of_not_isLeaf (other : n.isLeaf = false) :
    checkOwn registry hasLoader n = Findings.none := by
  cases n with
  | widget | ref | call => cases other
  | page | sect | slot | cond | loop | frag | custom | stray => rfl

theorem checkOwn_of_isLeaf (leaf : n.isLeaf) :
    checkOwn registry hasLoader n = checkNode registry hasLoader n := by
  cases n with
  | widget | ref | call =>
    rw [checkNode]
    rfl
  | page | sect | slot | cond | loop | frag | custom | stray => cases leaf

/-- In trees only the leaves are to be checked, each by itself. -/
theorem checkChildren_eq_all_leaves (trees : ∀ n ∈ ns, n.isTree) :
    checkChildren registry hasLoader (.proper ns) =
      Findings.all ((ns.flatMap Node.leaves).map (checkNode registry hasLoader)) := by
  have checkable : ∀ n ∈ ns, ∀ m ∈ n.preorder, m.Checkable := fun n member m inside =>
    checkable_of_isRegular (List.all_eq_true.mp (trees n member) m inside)
  have leaves : ns.flatMap Node.leaves = (ns.flatMap Node.preorder).filter Node.isLeaf :=
    (List.filter_flatMap ..).symm
  rw [checkChildren_eq_all_preorder (Loose.passable_proper ns) checkable, Loose.nodes_proper, leaves,
    Findings.all_map_filter fun _ _ => checkOwn_of_not_isLeaf]
  refine congrArg Findings.all (List.map_congr_left fun m member => ?_)
  exact checkOwn_of_isLeaf (List.mem_filter.mp member).2

/-- What is found on a page itself depends on whether it has sections, and not on which. -/
theorem checkPage_congr (head : q.toHead = p.toHead) (name : q.name = p.name)
    (route : q.route = p.route) (empty : ns = [] ↔ ms = []) :
    checkPage q (.proper ms) = checkPage p (.proper ns) := by
  have same : Loose.isEmptyOrFalse (.proper ms) = Loose.isEmptyOrFalse (.proper ns) := by
    rw [Loose.isEmptyOrFalse, Loose.isEmptyOrFalse, Bool.eq_iff_iff, List.isEmpty_iff,
      List.isEmpty_iff, empty]
  rw [checkPage, checkPage, head, name, route, same]

end Validate

open Validate

variable {p : Page} {ns : List Node}

/-- The findings on a page over trees are those on the page itself and then those that each leaf yields
by itself; they can be told if the nodes are well-formed; and pages that agree in what is checked on
them, in having sections or none, and in their leaves have the same findings. -/
theorem validate_eq_sum (registry : Registry) (tree : (Node.page p (.proper ns)).isPageTree) :
    validate registry (.page p (.proper ns)) = (checkPage p (.proper ns)).and
      (Findings.all ((ns.flatMap Node.leaves).map (checkNode registry (! p.loader.isNull)))) ∧
    (p.toHead.Placed → (∀ n ∈ ns, n.wellFormed) → ∃ first own,
      checkPage p (.proper ns) = .ok first ∧
      List.Forall₂ (fun leaf ds => checkNode registry (! p.loader.isNull) leaf = .ok ds)
        (ns.flatMap Node.leaves) own ∧
      validate registry (.page p (.proper ns)) = .ok (first ++ own.flatten)) ∧
    ∀ q ms, (Node.page q (.proper ms)).isPageTree → q.toHead = p.toHead → q.name = p.name →
      q.route = p.route → q.loader.isNull = p.loader.isNull → (ns = [] ↔ ms = []) →
      ms.flatMap Node.leaves = ns.flatMap Node.leaves →
      validate registry (.page q (.proper ms)) = validate registry (.page p (.proper ns)) := by
  have sum {q : Page} {ms : List Node} (tree : (Node.page q (.proper ms)).isPageTree) :
      validate registry (.page q (.proper ms)) = (checkPage q (.proper ms)).and
        (Findings.all ((ms.flatMap Node.leaves).map
          (checkNode registry (! q.loader.isNull)))) := by
    rw [validate, checkChildren_eq_all_leaves (List.all_eq_true.mp tree)]
  refine ⟨sum tree, fun placed formed => ?_, fun q ms other head name route loader empty same => ?_⟩
  · obtain ⟨found, done⟩ := validate_total registry placed formed
    obtain ⟨first, _, page, leaves, rfl⟩ := Findings.and_eq_ok.mp ((sum tree).symm.trans done)
    obtain ⟨own, each, rfl⟩ := Findings.all_eq_ok.mp leaves
    exact ⟨first, own, page, List.forall₂_map_left_iff.mp each, done⟩
  · rw [sum other, sum tree, checkPage_congr head name route empty, loader, same]

def kioskSearch : Node := .widget { type := .str "search-bar" }

def kioskTable : Node :=
  .widget { type := .str "table", source := .proper { path := .str "rows" } }

def kioskRef : Node :=
  .ref { target := .str "home#hero", pageName := .str "home", sectionName := .str "hero" }

def kioskSlot : Node := .slot { name := .str "extra" }

def kioskPage : Page where
  name := .str "Kiosk"
  type := .str "page"
  route := .str ""

def plainKiosk : List Node := [kioskSearch, kioskTable, kioskRef]

/-- The same leaves in a conditional and in the template of a loop, with slots between them. -/
def groupedKiosk : List Node := [
  .cond { condition := .str "open" } (.proper [.sect {} (.proper [kioskSearch]), kioskSlot])
    (.proper [.frag {} (.proper [kioskTable])]),
  .loop { source := .str "rows" } (.sect {} (.proper [kioskSlot, kioskRef]))]

theorem validate_eq_sum_kiosk :
    (Node.page kioskPage (.proper plainKiosk)).isPageTree ∧
    (Node.page kioskPage (.proper groupedKiosk)).isPageTree ∧
    groupedKiosk.flatMap Node.leaves = plainKiosk.flatMap Node.leaves ∧
    validate {} (.page kioskPage (.proper groupedKiosk)) =
      validate {} (.page kioskPage (.proper plainKiosk)) ∧
    ∃ (first : List Diagnostic) (own : List (List Diagnostic)), own.length = 3 ∧
      validate {} (.page kioskPage (.proper plainKiosk)) = .ok (first ++ own.flatten) ∧
      (first ++ own.flatten).length = 6 := by
  have plain : (Node.page kioskPage (.proper plainKiosk)).isPageTree := by decide
  have grouped : (Node.page kioskPage (.proper groupedKiosk)).isPageTree := by decide
  have same : groupedKiosk.flatMap Node.leaves = plainKiosk.flatMap Node.leaves := rfl
  obtain ⟨-, parts, equal⟩ := validate_eq_sum {} plain
  obtain ⟨first, own, -, each, found⟩ := parts ⟨_, rfl⟩ (by decide)
  refine ⟨plain, grouped, same, equal kioskPage groupedKiosk grouped rfl rfl rfl rfl (by decide) same,
    first, own, each.length_eq.symm, found, ?_⟩
  have length : (validate {} (.page kioskPage (.proper plainKiosk))).toOption.map List.length =
      some 6 := by
    decide +kernel
  rw [found] at length
  exact Option.some.inj length

end ViewCompiler
