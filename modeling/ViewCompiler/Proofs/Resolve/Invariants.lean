import ViewCompiler.Proofs.Resolve.Index
import ViewCompiler.Proofs.Resolve.Run

/-! What holds of every node. A property that outlasts the rebuilding of containers and pages and the
filling of widgets holds of every node of a filled template and of a resolved page, if it holds of
every node that they are made of. -/
namespace ViewCompiler

/-- Nothing that is done to a node takes the property away. -/
structure Node.Lasts (P : Node → Prop) : Prop where
  container : ∀ {n ns}, n.isContainer → P n → P (n.withSubtrees ns)
  widget : ∀ {w v args}, w.fill args = .ok v → P (.widget w) → P (.widget v)
  page : ∀ {p sections ns}, P (.page p sections) → P (.page p (.proper ns))

/-- The property holds of all that can be put in the place of a reference or a call. -/
structure Env.All (P : Node → Prop) (env : Env) : Prop where
  pages : ∀ page ∈ Entries.values env.pages, page.All P
  templates : ∀ p ∈ Entries.values env.partials, p.template.All P

namespace Node.Lasts

variable {P : Node → Prop} {env : Env} {busy : List String} {n m : Node}

/-- Whatever the arguments are, what holds of a template holds of it when it is filled. -/
theorem substitute {template filled : Node} {args : Fields} (lasts : Lasts P)
    (walked : template.substitute args = .ok filled) (each : template.All P) : filled.All P := by
  induction template using induction generalizing filled with
  | _ n ih =>
  obtain ⟨own, parts⟩ := all_iff.mp each
  by_cases container : n.isContainer
  · obtain ⟨-, ms, pairs, rfl⟩ := forall₂_of_walkWidgets container walked
    refine all_withSubtrees container pairs.length_eq.symm (lasts.container container own) ?_
    intro m member
    obtain ⟨t, inside, walked⟩ := exists_left_of_forall₂ pairs member
    exact ih t inside walked (parts t inside)
  · cases n with
    | ref | call | slot => cases walked; exact each
    | widget w =>
      obtain ⟨v, filled, rfl⟩ := Except.map_eq_ok.mp walked
      exact all_leaf rfl (lasts.widget filled own)
    | page | custom | stray => cases walked
    | sect | frag | cond | loop => exact absurd rfl container

/-- The induction is on the resolution: what comes in the place of a reference or a call is part of a
page or a filled template. -/
theorem resolves (lasts : Lasts P) (known : env.All P) (resolved : env.Resolves busy n m)
    (each : n.All P) : m.All P := by
  induction resolved with
  | ref found _ _ _ ih =>
    obtain ⟨_, page, indexed, inside, -⟩ := Env.mem_preorder_of_refTarget found
    exact ih ((known.pages page (Entries.mem_values_of_get? indexed)).of_mem_preorder inside)
  | call found _ template _ _ ih =>
    obtain ⟨_, -, indexed, -⟩ := Env.callTarget_eq_found.mp found
    obtain ⟨args, -, walked⟩ := Except.bind_eq_ok.mp template
    exact ih (lasts.substitute walked (known.templates _ (Entries.mem_values_of_get? indexed)))
  | circularRef | missingRef | circularCall | missingCall | widget | slot => exact each
  | @container busy n ms container _ length _ ih =>
    obtain ⟨own, parts⟩ := all_iff.mp each
    refine all_withSubtrees container length.symm (lasts.container container own) ?_
    intro m member
    obtain ⟨t, inside, stays⟩ := exists_left_of_zip length ih member
    exact stays (parts t inside)

theorem resolvesPage (lasts : Lasts P) (known : env.All P) (resolved : env.ResolvesPage n m)
    (each : n.All P) : m.All P := by
  obtain ⟨-, pairs⟩ := resolved
  obtain ⟨own, parts⟩ := all_iff.mp each
  refine all_iff.mpr ⟨lasts.page own, fun m member => ?_⟩
  obtain ⟨t, inside, resolves⟩ := exists_left_of_forall₂ pairs member
  exact lasts.resolves known resolves (parts t inside)

end Node.Lasts

namespace Env

variable {P : Node → Prop} {env : Env} {pages : List Node} {registry : Registry}
  {partials : List (Value × Partial)}

theorem all_of_env (made : Env.of pages registry partials = .ok env)
    (each : ∀ page ∈ pages, page.All P) (templates : ∀ e ∈ partials, e.2.template.All P) :
    env.All P where
  pages page member := each page (mem_pages_of_env made member)
  templates p member := by
    obtain ⟨e, given, rfl⟩ := mem_partials_of_env made member
    exact templates e given

/-- The same for all pages at once. -/
theorem all_of_resolve {r : Resolution} (lasts : Node.Lasts P)
    (run : resolve pages registry partials = .ok r) (each : ∀ page ∈ pages, page.All P)
    (templates : ∀ e ∈ partials, e.2.template.All P) : ∀ page ∈ r.pages, page.All P := by
  obtain ⟨env, made, pairs, -⟩ := resolve_eq_ok.mp run
  intro page member
  obtain ⟨original, given, resolved⟩ := exists_left_of_forall₂ pairs member
  exact lasts.resolvesPage (all_of_env made each templates) resolved (each original given)

end Env

end ViewCompiler
