import ViewCompiler.Node.Collect
import ViewCompiler.Proofs.Node.Trees

/-! The nodes of one kind, collected. A walk through trees leaves behind their matches in document
order, after all that was found before, and one count for each tree; so the collected nodes are those
of the kind in document order, and a search finds the first section of its name among them. -/
namespace ViewCompiler.Node

def ofKind (kind : String) (n : Node) : List Node := n.preorder.filter (isOfKind kind)

/-- What a collector has after it has walked the trees, one after the other. -/
def Collected.add (kind : String) (ns : List Node) (c : Collected) : Collected where
  found := c.found ++ ns.flatMap (ofKind kind)
  counts := (ns.map fun n => (n.ofKind kind).length).reverse ++ c.counts

variable {kind : String} {n : Node} {ns ms : List Node} {c : Collected}

theorem ofKind_of_isOfKind (own : n.isOfKind kind) :
    n.ofKind kind = n :: n.subtrees.flatMap (ofKind kind) := by
  rw [ofKind, filter_preorder, List.filter_cons_of_pos own]
  rfl

theorem ofKind_of_not_isOfKind (other : ¬ n.isOfKind kind) :
    n.ofKind kind = n.subtrees.flatMap (ofKind kind) := by
  rw [ofKind, filter_preorder, List.filter_cons_of_neg other]
  rfl

namespace Collected

theorem add_nil : c.add kind [] = c := by simp [add]

theorem add_append : c.add kind (ms ++ ns) = (c.add kind ms).add kind ns := by simp [add]

/-- The last counts are those of the children, so a match goes in front of all that is below it and
behind all else. -/
theorem note_add : (c.add kind n.subtrees).note kind n n.subtrees = c.add kind [n] := by
  have below : (((n.subtrees.map fun m => (m.ofKind kind).length).reverse ++ c.counts).take
      n.subtrees.length).foldr (· + ·) 0 = (n.subtrees.flatMap (ofKind kind)).length := by
    rw [List.take_left' (by simp), ← List.sum_eq_foldr, List.sum_reverse, List.length_flatMap]
  have above : ((n.subtrees.map fun m => (m.ofKind kind).length).reverse ++ c.counts).drop
      n.subtrees.length = c.counts := List.drop_left' (by simp)
  by_cases own : n.isOfKind kind
  · simp only [note, add, below, above, own, if_true, List.length_append, Nat.add_sub_cancel,
      List.take_left, List.drop_left]
    simp [ofKind_of_isOfKind own]
  · simp only [note, add, below, above, own]
    simp [ofKind_of_not_isOfKind own]

end Collected

section walk

variable {α β : Type} {x : StateT Collected (Except Fault) α} {a : α}

/-- The run yields the value, and has walked the trees. -/
def Walks (kind : String) (x : StateT Collected (Except Fault) α) (a : α) (ns : List Node) : Prop :=
  ∀ c, x.run c = .ok (a, c.add kind ns)

theorem Walks.pure (a : α) : Walks kind (pure a) a [] := fun c => by
  rw [StateT.run_pure, Collected.add_nil]
  rfl

/-- What follows the walk is run where the walk ends. -/
theorem Walks.bind {f : α → StateT Collected (Except Fault) β} {b : β} (walks : Walks kind x a ms)
    (rest : ∀ c : Collected, (f a).run (c.add kind ms) = .ok (b, c.add kind ns)) :
    Walks kind (x >>= f) b ns := fun c => by
  rw [StateT.run_bind, walks c]
  exact rest c

theorem Walks.map {f : α → β} (walks : Walks kind x a ns) : Walks kind (f <$> x) (f a) ns :=
  fun c => by
    rw [StateT.run_map, walks c]
    rfl

/-- A node is taken up after its children. -/
theorem run_visit (k : Kind) (children : n.children = .ok n.subtrees) :
    ((collector kind).visit k n).run (c.add kind n.subtrees) = .ok (n, c.add kind [n]) := by
  rw [← Collected.note_add]
  simp only [Visitor.visit, collector, Visitor.always, children]
  rfl

theorem walks_leaf {k : Kind} (leaf : n.subtrees = []) (children : n.children = .ok n.subtrees) :
    Walks kind ((collector kind).visit k n) n [n] := fun c => by
  have run : ((collector kind).visit k n).run (c.add kind n.subtrees) = .ok (n, c.add kind [n]) :=
    run_visit k children
  rwa [leaf, Collected.add_nil] at run

theorem walks_nodes (each : ∀ n ∈ ns, Walks kind (walkChild (collector kind) n) n [n]) :
    Walks kind (walkNodes (collector kind) ns) ns ns := by
  induction ns with
  | nil => exact .pure []
  | cons n ns ih =>
    obtain ⟨first, rest⟩ := List.forall_mem_cons.mp each
    refine first.bind fun c => ?_
    rw [StateT.run_bind, ih rest, ← Collected.add_append]
    rfl

theorem walks_children {children : Children} (proper : children.isProper)
    (each : ∀ n ∈ children.nodes, Walks kind (walkChild (collector kind) n) n [n]) :
    Walks kind (walkChildren (collector kind) children) children children.nodes := by
  obtain ⟨ns, rfl⟩ := exists_of_isProper proper
  exact (walks_nodes each).map

theorem walks_otherwise {otherwise : Children} (free : otherwise.isNull ∨ otherwise.isProper)
    (each : ∀ n ∈ otherwise.nodes, Walks kind (walkChild (collector kind) n) n [n]) :
    Walks kind (walkOtherwise (collector kind) otherwise) otherwise otherwise.nodes := by
  rcases free with null | proper
  · rw [Loose.eq_null_of_isNull null]
    exact .pure Loose.null
  · obtain ⟨ns, rfl⟩ := exists_of_isProper proper
    exact (walks_nodes each).map

/-- A tree is walked with its matches in document order as the outcome. -/
theorem walks_child (tree : n.isTree) : Walks kind (walkChild (collector kind) n) n [n] := by
  -- What carries the induction is that a walk only adds, whatever was collected before: the places of
  -- a node are then walked one after the other, and its own visit finds their counts on top.
  induction n using induction with
  | _ n ih =>
  obtain ⟨regular, parts⟩ := isTree_iff.mp tree
  have each : ∀ m ∈ n.subtrees, Walks kind (walkChild (collector kind) m) m [m] :=
    fun m member => ih m member (parts m member)
  have children := children_of_isRegular regular
  cases n with
  | sect s places => exact (walks_children regular each).bind fun _ => run_visit _ children
  | frag f places => exact (walks_children regular each).bind fun _ => run_visit _ children
  | loop l template =>
    exact (each template (List.mem_singleton.mpr rfl)).bind fun _ => run_visit _ children
  | cond c body otherwise =>
    obtain ⟨properBody, free⟩ := isRegular_cond.mp regular
    refine (walks_children properBody fun m member => each m (List.mem_append_left _ member)).bind
      fun c => ?_
    rw [StateT.run_bind, walks_otherwise free fun m member => each m (List.mem_append_right _ member),
      ← Collected.add_append]
    exact run_visit .cond children
  | widget | ref | call | slot => exact walks_leaf rfl children
  | page | custom | stray => cases regular

end walk

section page

variable {page : Node}

theorem collect_eq_ok (tree : page.isPageTree) (kind : String) :
    collect page kind = .ok (page.ofKind kind) := by
  obtain ⟨p, ns, rfl, each⟩ := exists_of_isPageTree tree
  have proper : Loose.isProper (.proper ns) := rfl
  have walked : Walks kind (walkPage (collector kind) (.page p (.proper ns))) (.page p (.proper ns))
      [.page p (.proper ns)] :=
    (walks_children proper fun m member => walks_child (each m member)).bind
      fun _ => run_visit .page rfl
  rw [collect, walked, Collected.add, List.flatMap_singleton]
  rfl

theorem kind?_of_builtin? {k : Kind} (builtin : n.builtin? = some k) : n.kind? = some k.name := by
  cases n with
  | custom | stray => cases builtin
  | page | sect | widget | ref | call | slot | cond | loop | frag =>
    obtain rfl := Option.some.inj builtin
    rfl

/-- One of the nine kinds is known by its name. -/
theorem isOfKind_name (known : n.builtin?.isSome) (k : Kind) :
    n.isOfKind k.name = (n.builtin? == some k) := by
  obtain ⟨own, builtin⟩ := Option.isSome_iff_exists.mp known
  rw [isOfKind, kind?_of_builtin? builtin, builtin, Bool.eq_iff_iff, beq_iff_eq, beq_iff_eq,
    Option.some.injEq, Option.some.injEq]
  exact ⟨fun same => Kind.name_injective same, congrArg Kind.name⟩

theorem isSome_builtin?_of_isRegular (regular : n.isRegular) : n.builtin?.isSome := by
  cases n with
  | sect | widget | ref | call | slot | cond | loop | frag => rfl
  | page | custom | stray => cases regular

theorem isSome_builtin?_of_isPageTree (tree : page.isPageTree) :
    ∀ n ∈ page.preorder, n.builtin?.isSome := by
  obtain ⟨p, ns, rfl, each⟩ := exists_of_isPageTree tree
  refine forall_mem_preorder.mpr ⟨rfl, fun m member n inside => ?_⟩
  exact isSome_builtin?_of_isRegular (List.all_eq_true.mp (each m member) n inside)

def deckSection (name : String) (ns : List Node) : Node := .sect { name := .str name } (.proper ns)

def deckInner : Node := deckSection "inner" [.widget { type := .str "text" }]

/-- Sections inside sections, in both branches of a conditional, in a loop and in a group. -/
def deckSections : List Node := [
  deckSection "outer" [deckInner, .slot { name := .str "body" }],
  .cond { condition := .str "$ready" } (.proper [deckSection "shown" []])
    (.proper [deckSection "inner" []]),
  .loop { source := .str "$rows" } (deckSection "row" []),
  .frag {} (.proper [deckSection "last" []])]

def deck : Node :=
  .page { name := .str "Deck", type := .str "page", route := .str "/deck" } (.proper deckSections)

/-- Collecting gives the nodes of the kind as they are, each as often as it occurs in the tree, and in
document order; and the kind may be given by its name or as one of the nine. -/
theorem collect_eq_filter_preorder (tree : page.isPageTree) :
    (∀ kind : String, collect page kind = .ok (page.preorder.filter (isOfKind kind))) ∧
      ∀ k : Kind, collect page k.name = .ok (page.preorder.filter (·.builtin? == some k)) := by
  refine ⟨collect_eq_ok tree, fun k => ?_⟩
  rw [collect_eq_ok tree, ofKind]
  refine congrArg _ (List.filter_congr fun n inside => ?_)
  exact isOfKind_name (isSome_builtin?_of_isPageTree tree n inside) k

theorem collect_eq_filter_preorder_deck :
    deck.isPageTree ∧ ∃ found, collect deck "section" = .ok found ∧
      found.map label = ["outer", "inner", "shown", "inner", "row", "last"].map .str :=
  ⟨rfl, _, (collect_eq_filter_preorder rfl).1 "section", rfl⟩

theorem isOfKind_sect_of_isNamed {name : Value} (named : n.isNamed name) :
    n.isOfKind Kind.sect.name := by
  cases n with
  | sect => rfl
  | page | widget | ref | call | slot | cond | loop | frag | custom | stray => cases named

theorem find?_ofKind_sect (n : Node) (name : Value) :
    (n.ofKind Kind.sect.name).find? (isNamed name) = n.preorder.find? (isNamed name) := by
  rw [ofKind, List.find?_filter]
  refine congrArg (List.find? · _) (funext fun m => ?_)
  by_cases named : m.isNamed name
  · simp [named, isOfKind_sect_of_isNamed named]
  · simp [named]

/-- The search from the top and the collection from the leaves agree: a search finds the first
collected section of the name, and nothing where no collected section has the name. -/
theorem findInChildren_eq_collect {p : Page} {sections : Children}
    (tree : (Node.page p sections).isPageTree) (name : Value) :
    ∃ found, collect (.page p sections) Kind.sect.name = .ok found ∧
      findInChildren name sections = .ok (found.find? (isNamed name)) ∧
      (findInChildren name sections = .ok none ↔ ∀ s ∈ found, ¬ s.isNamed name) := by
  have search : findInChildren name sections =
      .ok (((Node.page p sections).ofKind Kind.sect.name).find? (isNamed name)) := by
    obtain ⟨_, ns, same, each⟩ := exists_of_isPageTree tree
    obtain ⟨rfl, rfl⟩ := Node.page.inj same
    have proper : Loose.isProper (.proper ns) := rfl
    have total : ∃ found, findInChildren name (.proper ns) = .ok found :=
      findInChildren_total proper fun m member => find_total (each m member)
    obtain ⟨found, done⟩ := total
    rw [done, findInChildren_eq_find? done, find?_ofKind_sect]
    rfl
  refine ⟨_, collect_eq_ok tree _, search, ?_⟩
  rw [search, Except.ok.injEq, List.find?_eq_none]

theorem findInChildren_eq_collect_deck :
    deck.isPageTree ∧ ∃ found, collect deck "section" = .ok found ∧
      findInChildren (.str "inner") (.proper deckSections) = .ok (some deckInner) ∧
      findInChildren (.str "body") (.proper deckSections) = .ok none := by
  obtain ⟨found, collected, inner, -⟩ := findInChildren_eq_collect (show deck.isPageTree from rfl)
    (.str "inner")
  obtain ⟨_, again, -, absent⟩ := findInChildren_eq_collect (show deck.isPageTree from rfl)
    (.str "body")
  obtain rfl := Except.ok.inj (collected.symm.trans (collect_eq_ok rfl _))
  obtain rfl := Except.ok.inj (again.symm.trans (collect_eq_ok rfl _))
  exact ⟨rfl, _, collected, inner, absent.mpr (by decide)⟩

end page

end ViewCompiler.Node
