import ViewCompiler.Proofs.Node.Subtrees
import ViewCompiler.Proofs.Trace.Success

/-! Walks through places for children, whatever the visitor does. A walk through a place that holds
nodes is a walk through each of them; and where walks through nodes continue one another, so do walks
through places, down to the faults. -/
namespace ViewCompiler

/-- The second run is the first with a step after it: either both fail alike, or the step takes what
the first gives to what the second gives. -/
inductive Continues {α β : Type} (step : α → Except Fault β) : Except Fault α → Except Fault β → Prop
  | error {fault} : Continues step (.error fault) (.error fault)
  | ok {a b} (next : step a = .ok b) : Continues step (.ok a) (.ok b)

namespace Continues

variable {α α' α'' β β' β'' : Type} {step : α → Except Fault β} {step' : α' → Except Fault β'}
  {step'' : α'' → Except Fault β''} {x : Except Fault α} {x' : Except Fault α'} {y : Except Fault β}
  {y' : Except Fault β'}

theorem bind_eq (continues : Continues step x y) : x >>= step = y := by
  cases continues with
  | error => rfl
  | ok next => exact next

/-- Where the first run has a result, so has the step after it. -/
theorem exists_of_ok {a : α} (continues : Continues step (.ok a) y) :
    ∃ b, step a = .ok b ∧ y = .ok b := by
  cases continues with
  | ok next => exact ⟨_, next, rfl⟩

/-- What comes after both continues if it does wherever the step is taken. -/
theorem bind {f : α → Except Fault α'} {g : β → Except Fault β'} (continues : Continues step x y)
    (rest : ∀ {a b}, step a = .ok b → Continues step' (f a) (g b)) :
    Continues step' (x >>= f) (y >>= g) := by
  cases continues with
  | error => exact .error
  | ok next => exact rest next

theorem mono {next : α → Except Fault β} (continues : Continues step x y)
    (same : ∀ {a b}, step a = .ok b → next a = .ok b) : Continues next x y := by
  cases continues with
  | error => exact .error
  | ok taken => exact .ok (same taken)

/-- What is built from the results is taken further if the results are. -/
theorem map {f : α → α'} {g : β → β'} (continues : Continues step x y)
    (built : ∀ {a b}, step a = .ok b → step' (f a) = .ok (g b)) :
    Continues step' (do return f (← x)) (do return g (← y)) :=
  continues.bind fun next => .ok (built next)

theorem both {f : α → α' → α''} {g : β → β' → β''} (first : Continues step x y)
    (second : Continues step' x' y')
    (built : ∀ {a b a' b'}, step a = .ok b → step' a' = .ok b' → step'' (f a a') = .ok (g b b')) :
    Continues step'' (do let a ← x; return f a (← x')) (do let b ← y; return g b (← y')) :=
  first.bind fun next => second.map fun last => built next last

end Continues

namespace Node

variable {visitor f g h : Visitor (Except Fault)} {children rebuilt : Children} {ns : List Node}

section places

theorem walkNodes_eq_mapM (ns : List Node) :
    walkNodes visitor ns = ns.mapM (walkChild visitor) := by
  induction ns with
  | nil => rfl
  | cons n ns ih => simp only [walkNodes, List.mapM_cons, ih]

theorem walkChildren_eq_ok :
    walkChildren visitor children = .ok rebuilt ↔ children.Passable ∧
      ∃ ms, children.nodes.mapM (walkChild visitor) = .ok ms ∧ rebuilt = .proper ms := by
  cases children with
  | proper ns =>
    simp only [walkChildren, Except.map_eq_ok, walkNodes_eq_mapM, Loose.passable_proper, true_and,
      Loose.nodes_proper, @eq_comm _ rebuilt]
  | stray v =>
    simp only [walkChildren, Except.bind_eq_ok, noMembers_eq_ok, Loose.nodes_stray, List.mapM_nil,
      Except.pure_eq_ok]
    constructor
    · rintro ⟨_, passable, rfl⟩
      exact ⟨passable, [], rfl, rfl⟩
    · rintro ⟨passable, _, rfl, rfl⟩
      exact ⟨(), passable, rfl⟩

theorem walkOtherwise_eq_ok :
    walkOtherwise visitor children = .ok rebuilt ↔
      (children = .null ∨ children.Passable) ∧
      ∃ ms, children.nodes.mapM (walkChild visitor) = .ok ms ∧
        rebuilt = if children.isNull then .null else .proper ms := by
  rcases children.null_or_not_isNull with rfl | notNull
  · simp only [walkOtherwise, Loose.null, Loose.isNull, Loose.nodes_stray, List.mapM_nil,
      Except.pure_eq_ok, true_or, true_and, if_true, exists_eq_left', @eq_comm _ rebuilt]
  · have same : walkOtherwise visitor children = walkChildren visitor children := by
      rcases children with ns | v
      · rfl
      · cases v with
        | null => cases notNull
        | bool | int | float | str | list | dict => rfl
    rw [same, walkChildren_eq_ok]
    simp [Loose.ne_null_of_not_isNull notNull, notNull]

end places

section continues

theorem continues_nodes (each : ∀ n ∈ ns, Continues (walkChild g) (walkChild f n) (walkChild h n)) :
    Continues (walkNodes g) (walkNodes f ns) (walkNodes h ns) := by
  induction ns with
  | nil => exact .ok rfl
  | cons n ns ih =>
    obtain ⟨first, rest⟩ := List.forall_mem_cons.mp each
    refine first.both (ih rest) fun next last => ?_
    rw [walkNodes, next, Except.ok_bind, last]
    rfl

/-- A plain value in the place of nodes is refused by both, or both take it as no nodes at all. -/
theorem continues_noMembers {step : Children → Except Fault Children} (v : Value)
    (empty : step (.proper []) = .ok (.proper [])) :
    Continues step (do noMembers v; return .proper []) (do noMembers v; return .proper []) := by
  cases (noMembers v : Except Fault Unit) with
  | error fault => exact .error
  | ok => exact .ok empty

theorem continues_children
    (each : ∀ n ∈ children.nodes, Continues (walkChild g) (walkChild f n) (walkChild h n)) :
    Continues (walkChildren g) (walkChildren f children) (walkChildren h children) := by
  cases children with
  | proper ns =>
    refine (continues_nodes each).map fun next => ?_
    rw [walkChildren, next]
    rfl
  | stray v => exact continues_noMembers v rfl

theorem continues_otherwise
    (each : ∀ n ∈ children.nodes, Continues (walkChild g) (walkChild f n) (walkChild h n)) :
    Continues (walkOtherwise g) (walkOtherwise f children) (walkOtherwise h children) := by
  cases children with
  | proper ns =>
    refine (continues_nodes each).map fun next => ?_
    rw [walkOtherwise, next]
    rfl
  | stray v =>
    cases v with
    | null => exact .ok rfl
    | bool | int | float | str | list | dict => exact continues_noMembers _ rfl

end continues

end Node
end ViewCompiler
