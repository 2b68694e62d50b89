import ViewCompiler.Proofs.Node.Pending
import ViewCompiler.Proofs.Node.Walks
import ViewCompiler.Template.Substitute

/-! Filling of templates. Whatever the arguments are, a filled template has the references and calls of
the template: what stands in for a placeholder is a plain value. -/
namespace ViewCompiler.Node

section walk

variable {action : Node → Except Fault Node}

abbrev walkWidgets (action : Node → Except Fault Node) : Node → Except Fault Node :=
  walkChild (.only .widget action)

/-- A container is walked by walking its subtrees in order and putting the results back. -/
theorem walkWidgets_container_eq_ok {n m : Node} (container : n.isContainer) :
    walkWidgets action n = .ok m ↔ n.Passable ∧
      ∃ ms, n.subtrees.mapM (walkWidgets action) = .ok ms ∧ m = n.withSubtrees ms := by
  cases n with
  | sect s children | frag s children =>
    simp only [walkWidgets, walkChild, Except.bind_eq_ok, walkChildren_eq_ok]
    constructor
    · rintro ⟨_, ⟨passable, ms, walked, rfl⟩, rest⟩
      cases rest
      exact ⟨passable, ms, walked, rfl⟩
    · rintro ⟨passable, ms, walked, rfl⟩
      exact ⟨_, ⟨passable, ms, walked, rfl⟩, rfl⟩
  | loop l template =>
    simp only [walkWidgets, walkChild, Except.bind_eq_ok, Passable, subtrees, List.mapM_cons,
      List.mapM_nil, Except.pure_eq_ok, true_and]
    constructor
    · rintro ⟨t, walked, rest⟩
      cases rest
      exact ⟨[t], ⟨t, walked, [], rfl, rfl⟩, rfl⟩
    · rintro ⟨_, ⟨t, walked, _, rfl, rfl⟩, rfl⟩
      exact ⟨t, walked, rfl⟩
  | cond c body otherwise =>
    simp only [walkWidgets, walkChild, Except.bind_eq_ok, walkChildren_eq_ok, walkOtherwise_eq_ok,
      subtrees, List.mapM_append, Except.pure_eq_ok]
    constructor
    · rintro ⟨_, ⟨passable, ns, first, rfl⟩, _, ⟨free, ms, second, rfl⟩, rest⟩
      cases rest
      refine ⟨⟨passable, free⟩, ns ++ ms, ⟨ns, first, ms, second, rfl⟩, ?_⟩
      simp [withSubtrees, ← Except.length_of_mapM first]
    · rintro ⟨⟨passable, free⟩, _, ⟨ns, first, ms, second, rfl⟩, rfl⟩
      refine ⟨_, ⟨passable, ns, first, rfl⟩, _, ⟨free, ms, second, rfl⟩, ?_⟩
      simp only [withSubtrees, ← Except.length_of_mapM first, List.take_left, List.drop_left]
      rfl
  | page | widget | ref | call | slot | custom | stray => cases container

end walk

theorem forall₂_of_walkWidgets {action : Node → Except Fault Node} {n m : Node}
    (container : n.isContainer) (walked : walkWidgets action n = .ok m) :
    n.Passable ∧ ∃ ms, List.Forall₂ (fun t u => walkWidgets action t = .ok u) n.subtrees ms ∧
      m = n.withSubtrees ms := by
  obtain ⟨passable, ms, each, rfl⟩ := (walkWidgets_container_eq_ok container).mp walked
  exact ⟨passable, ms, Except.mapM_eq_ok.mp each, rfl⟩

/-- Filling neither adds nor changes a reference or a call. -/
theorem pending_substitute {template filled : Node} {args : Fields}
    (walked : template.substitute args = .ok filled) : filled.pending = template.pending := by
  induction template using induction generalizing filled with
  | _ n ih =>
  by_cases container : n.isContainer
  · obtain ⟨-, ms, each, rfl⟩ := forall₂_of_walkWidgets container walked
    rw [pending_withSubtrees container each.length_eq.symm, pending_of_isContainer container]
    exact (flatMap_eq_of_forall₂ (forall₂_imp_of_mem each
      fun t member u walked => (ih t member walked).symm)).symm
  · cases n with
    | ref | call | slot => cases walked; rfl
    | widget w =>
      obtain ⟨v, -, rfl⟩ := Except.map_eq_ok.mp walked
      rfl
    | page | custom | stray => cases walked
    | sect | frag | cond | loop => exact absurd rfl container

end ViewCompiler.Node
