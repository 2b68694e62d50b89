import ViewCompiler.Proofs.Resolve.Nesting

/-! The resolver does what its rules say, and all that they say: a run succeeds with a tree exactly if
the rules allow the tree, and its errors are those that can be read off the tree. -/
namespace ViewCompiler.Env

variable {env : Env} {busy : List String} {n m : Node} {ds : List Diagnostic}

/-- Every budget follows the rules, as far as it goes. -/
theorem resolves_of_gives_within {k : Nat} (run : (env.resolveWithin k busy n).Gives ds m) :
    env.Resolves busy n m ∧ ds = env.errorsOf m := by
  induction k generalizing busy n m ds with
  | zero => exact absurd run Traced.not_gives_fail
  | succ k ih => exact resolves_of_gives_level (fun _ _ _ _ run => ih run) run

/-- What the rules allow is what the resolver does. -/
theorem gives_of_resolves (resolved : env.Resolves busy n m) :
    (env.resolveChild busy n).Gives (env.errorsOf m) m := by
  induction resolved with
  | ref found fresh placed _ ih =>
    rw [resolveChild_eq, resolveNode]
    exact (gives_resolveRef_fresh found fresh).mpr ⟨placed, ih⟩
  | circularRef found entered placed =>
    rw [resolveChild_eq, resolveNode]
    exact (gives_resolveRef_circular found entered).mpr ⟨placed, rfl, by simp [errorsAt, found]⟩
  | missingRef missing placed =>
    rw [resolveChild_eq, resolveNode]
    exact (gives_resolveRef_missing missing).mpr ⟨placed, rfl, by simp [errorsAt, missing]⟩
  | call found fresh template placed _ ih =>
    rw [resolveChild_eq, resolveNode]
    exact (gives_resolveCall_fresh found fresh).mpr ⟨_, template, placed, ih⟩
  | circularCall found entered placed =>
    rw [resolveChild_eq, resolveNode]
    exact (gives_resolveCall_circular found entered).mpr ⟨placed, rfl, by simp [errorsAt, found]⟩
  | missingCall missing placed =>
    rw [resolveChild_eq, resolveNode]
    exact (gives_resolveCall_missing missing).mpr ⟨placed, rfl, by simp [errorsAt, missing]⟩
  | widget looked placed =>
    rw [resolveChild_eq, resolveNode]
    exact gives_resolveWidget.mpr ⟨_, looked, placed, rfl, errorsOf_widget _⟩
  | slot =>
    rw [resolveChild_eq, resolveNode]
    exact Traced.gives_pure.mpr ⟨rfl, errorsOf_slot _⟩
  | @container busy n ms container passable length each ih =>
    rw [resolveChild_eq, errorsOf_withSubtrees container length.symm]
    refine (gives_resolveNode_container container).mpr ⟨passable, ms, ?_, rfl⟩
    apply Traced.gives_mapM_of_forall₂
    refine List.forall₂_iff_zip.mpr ⟨length, fun member => ?_⟩
    rw [← resolveChild_eq]
    exact ih member

/-- A run is known exactly: what it gives is what the rules allow, and its errors are those of the
result. -/
theorem gives_resolveChild :
    (env.resolveChild busy n).Gives ds m ↔ env.Resolves busy n m ∧ ds = env.errorsOf m := by
  constructor
  · exact resolves_of_gives_within
  · rintro ⟨resolved, rfl⟩
    exact gives_of_resolves resolved

/-- The rules allow one result at most. -/
theorem Resolves.unique {other : Node} (first : env.Resolves busy n m)
    (second : env.Resolves busy n other) : m = other := by
  have same := (gives_of_resolves first).1.symm.trans (gives_of_resolves second).1
  exact Except.ok.inj same

section pages

/-- The page is resolved when each of its children is, with nothing being expanded yet. -/
inductive ResolvesPage (env : Env) : Node → Node → Prop
  | intro {p sections ms} (passable : sections.Passable)
      (each : List.Forall₂ (env.Resolves []) sections.nodes ms) :
      ResolvesPage env (.page p sections) (.page p (.proper ms))

theorem errorsOf_page {p : Page} {ms : List Node} :
    env.errorsOf (.page p (.proper ms)) = ms.flatMap env.errorsOf := by
  rw [errorsOf_eq]
  rfl

theorem gives_resolvePage {page resolved : Node} :
    (env.resolvePage page).Gives ds resolved ↔
      env.ResolvesPage page resolved ∧ ds = env.errorsOf resolved := by
  have each : ∀ n ds m, (env.resolveChild [] n).Gives ds m ↔
      env.Resolves [] n m ∧ ds = env.errorsOf m := fun _ _ _ => gives_resolveChild
  constructor
  · intro run
    unfold resolvePage at run
    split at run
    · simp only [bind_pure_comp, Traced.gives_map] at run
      obtain ⟨ms, children, rfl⟩ := run
      obtain ⟨pairs, rfl⟩ := (Traced.gives_mapM each).mp children
      exact ⟨.intro trivial pairs, errorsOf_page.symm⟩
    · simp only [bind_pure_comp, Traced.gives_map, Traced.gives_ofExcept,
        Node.noMembers_eq_ok] at run
      obtain ⟨_, ⟨passable, rfl⟩, rfl⟩ := run
      exact ⟨.intro passable .nil, by rw [errorsOf_page]; rfl⟩
    · exact absurd run Traced.not_gives_fail
  · rintro ⟨@⟨p, sections, ms, passable, pairs⟩, rfl⟩
    rw [errorsOf_page]
    cases sections with
    | proper ns =>
      simp only [resolvePage, bind_pure_comp, Traced.gives_map]
      exact ⟨ms, (Traced.gives_mapM each).mpr ⟨pairs, rfl⟩, rfl⟩
    | stray v =>
      obtain rfl := List.forall₂_nil_left_iff.mp pairs
      simp only [resolvePage, bind_pure_comp, Traced.gives_map, Traced.gives_ofExcept,
        Node.noMembers_eq_ok]
      exact ⟨(), ⟨passable, rfl⟩, trivial⟩

theorem ResolvesPage.unique {page resolved other : Node} (first : env.ResolvesPage page resolved)
    (second : env.ResolvesPage page other) : resolved = other := by
  obtain ⟨one, -⟩ := gives_resolvePage.mpr ⟨first, rfl⟩
  obtain ⟨two, -⟩ := gives_resolvePage.mpr ⟨second, rfl⟩
  exact Except.ok.inj (one.symm.trans two)

section resolution

variable {pages : List Node} {registry : Registry} {partials : List (Value × Partial)}

/-- A resolution is a run with its diagnostics as errors. -/
theorem resolve_eq_ok_iff_gives {resolved : List Node} :
    resolve pages registry partials = .ok ⟨resolved, ds⟩ ↔
      (resolveAll pages registry partials).Gives ds resolved := by
  simp only [resolve, bind_pure_comp, Except.map_eq_ok, Resolution.mk.injEq, Traced.Gives]
  constructor
  · rintro ⟨_, result, rfl, found⟩
    exact ⟨result, found⟩
  · rintro ⟨result, found⟩
    exact ⟨_, result, rfl, found⟩

/-- A resolution is known exactly: each page is resolved against all of them, and the errors are those of
the resolved pages. -/
theorem resolve_eq_ok {r : Resolution} :
    resolve pages registry partials = .ok r ↔ ∃ env, Env.of pages registry partials = .ok env ∧
      List.Forall₂ env.ResolvesPage pages r.pages ∧ r.errors = r.pages.flatMap env.errorsOf := by
  obtain ⟨resolved, errors⟩ := r
  have each (env : Env) : ∀ page ds m, (env.resolvePage page).Gives ds m ↔
      env.ResolvesPage page m ∧ ds = env.errorsOf m := fun _ _ _ => gives_resolvePage
  rw [resolve_eq_ok_iff_gives, resolveAll, Traced.gives_ofExcept_bind]
  refine exists_congr fun env => and_congr_right fun _ => ?_
  rw [← Traced.gives_mapM (each env)]
  simp [Traced.gives_bind, resolvePages, -bind_pure_comp]

end resolution

end pages

end ViewCompiler.Env
