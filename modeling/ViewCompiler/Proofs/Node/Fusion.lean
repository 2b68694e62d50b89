import ViewCompiler.Proofs.Node.Trees
import ViewCompiler.Proofs.Node.Walks

/-! Walks that are made one after the other. Where actions change only what a node has of its own, and
do so whatever its children are, two walks are one walk with the actions in turn, down to the faults;
and a walk without actions gives back the very trees that hold sequences in their places. -/
namespace ViewCompiler

namespace Visitor

variable {α β : Type} {m : Type → Type} [Monad m]

def andThen (first second : Visitor m) : Visitor m :=
  ⟨fun kind => some fun n => do second.visit kind (← first.visit kind n)⟩

/-- What the visitor does to a node of the kind is to edit what the node has of its own: the children
stay as they are, and have no say in it. -/
def Edits (visitor : Visitor (Except Fault)) (kind : Kind) (node : α → β → Node) : Prop :=
  ∃ edit : α → α, ∀ own children,
    visitor.visit kind (node own children) = .ok (node (edit own) children)

/-- Every action gives a node of the same kind with the same children, and the other fields of the
result depend on the other fields of the node only. -/
structure EditsFields (visitor : Visitor (Except Fault)) : Prop where
  page : visitor.Edits .page Node.page
  sect : visitor.Edits .sect Node.sect
  widget : visitor.Edits .widget fun w (_ : Unit) => .widget w
  ref : visitor.Edits .ref fun r (_ : Unit) => .ref r
  call : visitor.Edits .call fun c (_ : Unit) => .call c
  slot : visitor.Edits .slot fun s (_ : Unit) => .slot s
  cond : visitor.Edits .cond fun c (branches : Children × Children) =>
    .cond c branches.1 branches.2
  loop : visitor.Edits .loop Node.loop
  frag : visitor.Edits .frag Node.frag

abbrev idle : Visitor (Except Fault) := {}

theorem editsFields_idle : idle.EditsFields where
  page := ⟨id, fun _ _ => rfl⟩
  sect := ⟨id, fun _ _ => rfl⟩
  widget := ⟨id, fun _ _ => rfl⟩
  ref := ⟨id, fun _ _ => rfl⟩
  call := ⟨id, fun _ _ => rfl⟩
  slot := ⟨id, fun _ _ => rfl⟩
  cond := ⟨id, fun _ _ => rfl⟩
  loop := ⟨id, fun _ _ => rfl⟩
  frag := ⟨id, fun _ _ => rfl⟩

/-- A step that visits the node with other children continues the first visit if both visitors edit. -/
theorem Edits.continues {f g : Visitor (Except Fault)} {kind : Kind} {node : α → β → Node}
    {step : Node → Except Fault Node} (first : f.Edits kind node) (second : g.Edits kind node)
    {own : α} {a b : β} (inner : ∀ own, step (node own a) = g.visit kind (node own b)) :
    Continues step (f.visit kind (node own a)) ((f.andThen g).visit kind (node own b)) := by
  obtain ⟨edit, edits⟩ := first
  obtain ⟨edit', edits'⟩ := second
  have both : (f.andThen g).visit kind (node own b) = .ok (node (edit' (edit own)) b) := by
    rw [← edits' (edit own) b]
    change f.visit kind (node own b) >>= g.visit kind = _
    rw [edits own b]
    rfl
  rw [edits own a, both]
  exact .ok ((inner (edit own)).trans (edits' (edit own) b))

end Visitor

namespace Node

open Visitor

variable {f g visitor : Visitor (Except Fault)} {n : Node} {children : Children}

section fusion

theorem continues_walkChild (first : f.EditsFields) (second : g.EditsFields) (n : Node) :
    Continues (walkChild g) (walkChild f n) (walkChild (f.andThen g) n) := by
  induction n using induction with
  | _ n ih =>
  cases n with
  | widget => exact first.widget.continues second.widget (a := ()) (b := ()) fun _ => rfl
  | ref => exact first.ref.continues second.ref (a := ()) (b := ()) fun _ => rfl
  | call => exact first.call.continues second.call (a := ()) (b := ()) fun _ => rfl
  | slot => exact first.slot.continues second.slot (a := ()) (b := ()) fun _ => rfl
  | sect s children =>
    refine (continues_children ih).bind fun next => first.sect.continues second.sect fun s => ?_
    rw [walkChild, next, Except.ok_bind]
  | frag s children =>
    refine (continues_children ih).bind fun next => first.frag.continues second.frag fun s => ?_
    rw [walkChild, next, Except.ok_bind]
  | loop l template =>
    refine (ih template (List.mem_singleton.mpr rfl)).bind fun next =>
      first.loop.continues second.loop fun l => ?_
    rw [walkChild, next, Except.ok_bind]
  | cond c body otherwise =>
    refine (continues_children fun m member => ih m (List.mem_append_left _ member)).bind
      fun {body _} next =>
        (continues_otherwise fun m member => ih m (List.mem_append_right _ member)).bind
          fun {otherwise _} last =>
            first.cond.continues second.cond (a := (body, otherwise)) (b := (_, _)) fun c => ?_
    rw [walkChild, next, Except.ok_bind, last, Except.ok_bind]
  | page | custom | stray => exact .error

/-- Only a page is walked as a page. -/
theorem walk_of_walkChild {m : Node} (walked : walkChild visitor n = .ok m) :
    walk visitor n = .ok m := by
  cases n with
  | page => cases walked
  | sect | widget | ref | call | slot | cond | loop | frag | custom | stray => exact walked

theorem continues_walk (first : f.EditsFields) (second : g.EditsFields) (n : Node) :
    Continues (walk g) (walk f n) (walk (f.andThen g) n) := by
  cases n with
  | page p sections =>
    refine (continues_children fun m _ => continues_walkChild first second m).bind fun next =>
      first.page.continues second.page fun p => ?_
    rw [walk, walkPage, next, Except.ok_bind]
  | sect | widget | ref | call | slot | cond | loop | frag | custom | stray =>
    exact (continues_walkChild first second _).mono walk_of_walkChild

end fusion

section idle

theorem mapM_self_iff {ns : List Node} : ns.mapM (walkChild idle) = .ok ns ↔
    ∀ n ∈ ns, walkChild idle n = .ok n := by
  rw [Except.mapM_eq_ok, List.forall₂_same]

theorem walkChildren_idle : walkChildren idle children = .ok children ↔
    children.isProper ∧ ∀ n ∈ children.nodes, walkChild idle n = .ok n := by
  rw [walkChildren_eq_ok]
  cases children with
  | proper ns => simp [Loose.isProper, mapM_self_iff]
  | stray v => simp [Loose.isProper]

theorem walkOtherwise_idle : walkOtherwise idle children = .ok children ↔
    (children.isNull ∨ children.isProper) ∧ ∀ n ∈ children.nodes, walkChild idle n = .ok n := by
  rw [walkOtherwise_eq_ok]
  rcases children.null_or_not_isNull with rfl | notNull
  · simpa [Loose.isNull, Loose.null] using ⟨[], rfl⟩
  cases children with
  | proper ns => simp [Loose.isNull, Loose.isProper, mapM_self_iff]
  | stray v => simp [Loose.isProper, notNull]

theorem bind_visit_idle {α : Type} {x : Except Fault α} {node : α → Node} {kind : Kind} {a : α}
    (injective : ∀ {b}, node b = node a → b = a) :
    (x >>= fun b => idle.visit kind (node b)) = .ok (node a) ↔ x = .ok a := by
  rw [Except.bind_eq_ok]
  constructor
  · rintro ⟨b, walked, same⟩
    rw [walked, injective (Except.ok.inj same)]
  · exact fun walked => ⟨a, walked, rfl⟩

/-- A walk without actions gives back the trees, and no other nodes. -/
theorem walkChild_idle (n : Node) : walkChild idle n = .ok n ↔ n.isTree := by
  induction n using induction with
  | _ n ih =>
  rw [isTree_iff, ← forall₂_congr ih]
  cases n with
  | sect s children =>
    rw [walkChild, bind_visit_idle fun same => (sect.inj same).2, walkChildren_idle]
    rfl
  | frag f children =>
    rw [walkChild, bind_visit_idle fun same => (frag.inj same).2, walkChildren_idle]
    rfl
  | loop l template =>
    rw [walkChild, bind_visit_idle fun same => (loop.inj same).2]
    simp [isRegular, subtrees]
  | cond c body otherwise =>
    have branches : walkChild idle (.cond c body otherwise) = .ok (.cond c body otherwise) ↔
        walkChildren idle body = .ok body ∧ walkOtherwise idle otherwise = .ok otherwise := by
      rw [walkChild, Except.bind_eq_ok]
      constructor
      · rintro ⟨_, first, rest⟩
        obtain ⟨_, second, same⟩ := Except.bind_eq_ok.mp rest
        cases same
        exact ⟨first, second⟩
      · rintro ⟨first, second⟩
        exact ⟨body, first, Except.bind_eq_ok.mpr ⟨otherwise, second, rfl⟩⟩
    rw [branches, walkChildren_idle, walkOtherwise_idle, isRegular_cond]
    simp only [subtrees, List.forall_mem_append]
    exact and_and_and_comm
  | widget | ref | call | slot => simp [walkChild, isRegular, subtrees, visit, pure, Except.pure]
  | page | custom | stray => simp [walkChild, isRegular, throw, throwThe, MonadExceptOf.throw]

theorem isPageTree_iff {p : Page} {sections : Children} :
    (page p sections).isPageTree ↔ sections.isProper ∧ ∀ n ∈ sections.nodes, n.isTree := by
  cases sections <;> simp [isPageTree, Loose.isProper]

theorem walk_idle (n : Node) : walk idle n = .ok n ↔ n.isTree ∨ n.isPageTree := by
  cases n with
  | page p sections =>
    have noTree : ¬ (page p sections).isTree := fun tree => by cases (isTree_iff.mp tree).1
    rw [walk, walkPage, bind_visit_idle fun same => (page.inj same).2, walkChildren_idle,
      or_iff_right noTree, isPageTree_iff]
    exact and_congr_right' (forall₂_congr fun n _ => walkChild_idle n)
  | sect | widget | ref | call | slot | cond | loop | frag | custom | stray =>
    exact (walkChild_idle _).trans (or_iff_left Bool.false_ne_true).symm

/-- A walk through a tree that only edits has a result. -/
theorem exists_walk (edits : visitor.EditsFields) (tree : n.isTree ∨ n.isPageTree) :
    ∃ m, walk visitor n = .ok m := by
  have continues := continues_walk editsFields_idle edits n
  rw [(walk_idle n).mpr tree] at continues
  obtain ⟨m, walked, -⟩ := continues.exists_of_ok
  exact ⟨m, walked⟩

end idle

/-- Two walks that only edit fields, one after the other, are one walk with the actions in turn, with
the same result or the same fault, and there is a result for every page and every tree that has
sequences in its places. These are also the nodes that a walk without actions gives back as they are. -/
theorem walk_walk (first : f.EditsFields) (second : g.EditsFields) (n : Node) :
    (walk f n >>= walk g) = walk (f.andThen g) n ∧
    (n.isTree ∨ n.isPageTree →
      ∃ m t, walk f n = .ok m ∧ walk g m = .ok t ∧ walk (f.andThen g) n = .ok t) ∧
    (walk idle n = .ok n ↔ n.isTree ∨ n.isPageTree) := by
  have continues := continues_walk first second n
  refine ⟨continues.bind_eq, fun tree => ?_, walk_idle n⟩
  obtain ⟨m, walked⟩ := exists_walk first tree
  rw [walked] at continues
  obtain ⟨t, next, both⟩ := continues.exists_of_ok
  exact ⟨m, t, walked, next, both⟩

def tagger : Visitor (Except Fault) := .only .sect fun
  | .sect s children => .ok (.sect { s with tag := s.name } children)
  | n => .ok n

def unnamer : Visitor (Except Fault) where
  on
    | .sect => some fun
      | .sect s children => .ok (.sect { s with name := .null } children)
      | n => .ok n
    | .page => some fun
      | .page p sections => .ok (.page { p with route := p.name } sections)
      | n => .ok n
    | _ => none

theorem editsFields_tagger : tagger.EditsFields :=
  { editsFields_idle with sect := ⟨fun s => { s with tag := s.name }, fun _ _ => rfl⟩ }

theorem editsFields_unnamer : unnamer.EditsFields :=
  { editsFields_idle with
    sect := ⟨fun s => { s with name := .null }, fun _ _ => rfl⟩
    page := ⟨fun p => { p with route := p.name }, fun _ _ => rfl⟩ }

/-- Sections below a conditional with one branch and in the template of a loop. -/
def hallWith (outer inner : Section) (route : String) : Node :=
  .page { name := .str "hall", type := .str "page", route := .str route } (.proper [
    .cond { condition := .str "open" } (.proper [.sect outer (.proper [.slot { name := .str "body" }])])
      .null,
    .loop { source := .str "rows" } (.sect inner (.proper []))])

def hall : Node := hallWith { name := .str "door" } { name := .str "row" } "/"

theorem walk_walk_hall : tagger.EditsFields ∧ unnamer.EditsFields ∧ hall.isPageTree ∧
    (walk tagger hall >>= walk unnamer) =
      .ok (hallWith { tag := .str "door" } { tag := .str "row" } "hall") ∧
    walk idle hall = .ok hall := by
  obtain ⟨fused, -, unchanged⟩ := walk_walk editsFields_tagger editsFields_unnamer hall
  exact ⟨editsFields_tagger, editsFields_unnamer, rfl, fused.trans rfl, unchanged.mpr (.inr rfl)⟩

end Node
end ViewCompiler
