import ViewCompiler.Proofs.Resolve.Errors

/-! Clean resolutions are final. Where nothing is left to be done, and every container is as a
resolution rebuilds it, a tree resolves to itself: no look-up is made, so that neither the other
pages nor the partials matter. -/
namespace ViewCompiler

namespace Node

/-- A walk passes the node, and putting its own subtrees back changes nothing. -/
def IsRebuilt (n : Node) : Prop := n.Passable ∧ n.withSubtrees n.subtrees = n

theorem isRebuilt_withSubtrees {n : Node} {ns : List Node} (container : n.isContainer)
    (length : ns.length = n.subtrees.length) : (n.withSubtrees ns).IsRebuilt := by
  constructor
  · cases n with
    | sect | frag | loop => trivial
    | cond c body otherwise =>
      refine ⟨trivial, ?_⟩
      by_cases empty : otherwise.isNull
      · exact .inl (if_pos empty)
      · rw [if_neg empty]
        exact .inr trivial
    | page | widget | ref | call | slot | custom | stray => cases container
  · rw [subtrees_withSubtrees container length]
    cases n with
    | sect | frag => rfl
    | loop l template =>
      obtain ⟨m, rfl⟩ := List.length_eq_one_iff.mp length
      rfl
    | cond c body otherwise =>
      have front : (ns.take body.nodes.length).length = body.nodes.length := by
        simp only [subtrees, List.length_append] at length
        rw [List.length_take]
        omega
      simp only [withSubtrees, Loose.nodes_proper, front]
      by_cases empty : otherwise.isNull
      · simp only [if_pos empty]
        rfl
      · simp only [if_neg empty]
        rfl
    | page | widget | ref | call | slot | custom | stray => cases container

end Node

/-- Nothing is to be done at the node: it is a slot, a widget of a registered type, or a container
that was rebuilt. -/
def Registry.Finishes (registry : Registry) : Node → Prop
  | .widget w => registry.has w.type = .ok true
  | .slot _ => True
  | .sect s children => (Node.sect s children).IsRebuilt
  | .frag f children => (Node.frag f children).IsRebuilt
  | .cond c body otherwise => (Node.cond c body otherwise).IsRebuilt
  | .loop l template => (Node.loop l template).IsRebuilt
  | .page _ _ | .ref _ | .call _ | .custom _ | .stray _ => False

namespace Env

variable {env other : Env} {busy : List String} {n m : Node}

theorem finishes_iff_of_isContainer {registry : Registry} (container : n.isContainer) :
    registry.Finishes n ↔ n.IsRebuilt := by
  cases n with
  | sect | frag | cond | loop => rfl
  | page | widget | ref | call | slot | custom | stray => cases container

/-- A resolution that has nothing to report leaves nothing to be done. -/
theorem Resolves.finishes (resolved : env.Resolves busy n m)
    (settled : ∀ t ∈ m.preorder, env.IsSettled t) :
    ∀ t ∈ m.preorder, env.registry.Finishes t := by
  induction resolved with
  | ref _ _ _ _ ih | call _ _ _ _ _ ih => exact ih settled
  | circularRef | missingRef | circularCall | missingCall =>
    cases (settled _ (Node.mem_preorder_self _)).1
  | @widget _ w =>
    intro t member
    obtain rfl := List.mem_singleton.mp member
    exact (settled _ member).2 w rfl
  | slot =>
    intro t member
    obtain rfl := List.mem_singleton.mp member
    trivial
  | @container busy n ms container _ length each ih =>
    have rebuilt := Node.isRebuilt_withSubtrees container length.symm
    rw [Node.forall_mem_preorder, Node.subtrees_withSubtrees container length.symm] at settled ⊢
    refine ⟨(finishes_iff_of_isContainer ?_).mpr rebuilt, fun m member => ?_⟩
    · rw [Node.isContainer_withSubtrees]
      exact container
    · obtain ⟨_, -, finished⟩ := exists_left_of_zip length ih member
      exact finished (settled.2 m member)

/-- A tree in which nothing is to be done resolves to itself wherever it stands. -/
theorem resolves_self (finished : ∀ t ∈ n.preorder, env.registry.Finishes t) :
    env.Resolves busy n n := by
  induction n using Node.induction with
  | _ n ih =>
  obtain ⟨here, below⟩ := Node.forall_mem_preorder.mp finished
  by_cases container : n.isContainer
  · obtain ⟨passable, same⟩ := (finishes_iff_of_isContainer container).mp here
    have each : List.Forall₂ (env.Resolves busy) n.subtrees n.subtrees :=
      List.forall₂_same.mpr fun m member => ih m member (below m member)
    obtain ⟨length, pairs⟩ := List.forall₂_iff_zip.mp each
    have rebuilt := Resolves.container container passable length pairs
    rwa [same] at rebuilt
  · cases n with
    | widget w => exact .widget here fun absurd => by cases absurd
    | slot s => exact .slot
    | page | ref | call | custom | stray => cases here
    | sect | frag | cond | loop => exact absurd rfl container

theorem errorsAt_of_finishes (finished : env.registry.Finishes n) : env.errorsAt n = [] := by
  cases n with
  | widget w =>
    have known : env.registry.has w.type = .ok true := finished
    simp only [errorsAt, known]
  | ref | call => cases finished
  | page | sect | slot | cond | loop | frag | custom | stray => rfl

theorem errorsOf_of_finishes (finished : ∀ t ∈ n.preorder, env.registry.Finishes t) :
    env.errorsOf n = [] :=
  List.flatMap_eq_nil_iff.mpr fun t member => errorsAt_of_finishes (finished t member)

/-- A page that was resolved without errors is the same when it is resolved once more, with the same
widget types. -/
theorem ResolvesPage.again {page : Node} (run : env.ResolvesPage page m)
    (clean : env.errorsOf m = []) (same : other.registry = env.registry) :
    (other.resolvePage m).Gives [] m := by
  have settled := (flatMap_errorsAt_eq_nil run.answered).mp clean
  obtain @⟨p, _, ms, -, each⟩ := run
  have finished : ∀ t ∈ ms, ∀ u ∈ t.preorder, other.registry.Finishes u := by
    intro t member
    obtain ⟨_, -, resolved⟩ := exists_left_of_forall₂ each member
    rw [same]
    exact resolved.finishes fun u below =>
      settled u (Node.mem_preorder_of_mem_subtrees member below)
  refine gives_resolvePage.mpr ⟨.intro trivial (List.forall₂_same.mpr fun t member => ?_), ?_⟩
  · exact resolves_self (finished t member)
  · rw [errorsOf_page, eq_comm, List.flatMap_eq_nil_iff]
    exact fun t member => errorsOf_of_finishes (finished t member)

/-- Pages of a resolution without errors come back as they are, and without errors, when they are
resolved once more with the same widget types, whatever the other pages and the partials are. -/
theorem resolve_of_clean {pages others : List Node} {registry : Registry}
    {partials calls : List (Value × Partial)} {r : Resolution}
    (run : resolve pages registry partials = .ok r) (clean : r.errors = [])
    (made : Env.of others registry calls = .ok env) :
    (∀ page ∈ r.pages, (env.resolvePage page).Gives [] page) ∧
    ((∀ page ∈ others, page ∉ r.pages → ∃ ds m, (env.resolvePage page).Gives ds m) →
      ∃ again, resolve others registry calls = .ok again) ∧
    ∀ again, resolve others registry calls = .ok again →
      again.errors = again.pages.flatMap env.errorsOf ∧
      List.Forall₂ (fun page resolved => page ∈ r.pages →
        resolved = page ∧ env.errorsOf resolved = []) others again.pages := by
  obtain ⟨first, indexed, pairs, errors⟩ := resolve_eq_ok.mp run
  have same : env.registry = first.registry := by
    rw [registry_of_env made, registry_of_env indexed]
  have kept : ∀ page ∈ r.pages, (env.resolvePage page).Gives [] page := by
    intro page member
    obtain ⟨_, -, resolved⟩ := exists_left_of_forall₂ pairs member
    rw [clean, eq_comm, List.flatMap_eq_nil_iff] at errors
    exact resolved.again (errors page member) same
  refine ⟨kept, fun returns => ?_, fun again rerun => ?_⟩
  · have each : ∀ page ∈ others, ∃ m, env.ResolvesPage page m := by
      intro page member
      by_cases known : page ∈ r.pages
      · exact ⟨page, (gives_resolvePage.mp (kept page known)).1⟩
      · obtain ⟨_, m, given⟩ := returns page member known
        exact ⟨m, (gives_resolvePage.mp given).1⟩
    obtain ⟨ms, resolved⟩ := exists_forall₂ each
    exact ⟨⟨ms, ms.flatMap env.errorsOf⟩, resolve_eq_ok.mpr ⟨env, made, resolved, rfl⟩⟩
  · obtain ⟨_, remade, resolved, reported⟩ := resolve_eq_ok.mp rerun
    obtain rfl := Except.ok.inj (made.symm.trans remade)
    refine ⟨reported, resolved.imp fun page m resolves known => ?_⟩
    obtain ⟨result, found⟩ := gives_resolvePage.mpr ⟨resolves, rfl⟩
    obtain ⟨itself, nothing⟩ := kept page known
    exact ⟨Except.ok.inj (result.symm.trans itself), found.symm.trans nothing⟩

def offersPage : Node :=
  .page { name := .str "Offers", type := .str "page", route := .str "/offers" } (.proper [
    .cond { condition := .str "isOpen" } (.proper [
      .sect { name := .str "list" } (.proper [.widget { type := .str "badge" }])]) .null])

def frontPage : Node :=
  .page { name := .str "Front", type := .str "page", route := .str "/" } (.proper [
    .ref { target := .str "Offers#list", pageName := .str "Offers", sectionName := .str "list" },
    .cond { condition := .str "isNew" } (.proper [.slot { name := .str "news" }]) .null])

def badgeRegistry : Registry := ⟨[(.text "badge", .str "badge", { name := .str "badge" })]⟩

theorem exists_resolve_frontPage :
    ∃ r, resolve [frontPage, offersPage] badgeRegistry [] = .ok r ∧ r.errors = [] ∧
      ∀ page ∈ r.pages, page.isSoundPage := by
  obtain ⟨r, run, sound⟩ := @resolve_total [frontPage, offersPage] badgeRegistry []
    (by decide +kernel) nofun
  have clean : (resolve [frontPage, offersPage] badgeRegistry []).toOption.map (·.errors.isEmpty) =
      some true := by
    decide +kernel
  rw [run] at clean
  exact ⟨r, run, List.isEmpty_iff.mp (Option.some.inj clean), sound⟩

theorem resolve_of_clean_frontPage :
    ∃ r again, resolve [frontPage, offersPage] badgeRegistry [] = .ok r ∧ r.errors = [] ∧
      resolve (heroPage :: r.pages) badgeRegistry [] = .ok again ∧
      List.Forall₂ (fun page resolved => page ∈ r.pages → resolved = page)
        (heroPage :: r.pages) again.pages := by
  obtain ⟨r, run, empty, sound⟩ := exists_resolve_frontPage
  have others : ∀ page ∈ heroPage :: r.pages, page.isSoundPage :=
    List.forall_mem_cons.mpr ⟨by decide +kernel, sound⟩
  obtain ⟨env, made, formed⟩ := of_total badgeRegistry others
    (fun e (absurd : e ∈ []) => by cases absurd)
  obtain ⟨-, returns, same⟩ := resolve_of_clean run empty made
  obtain ⟨again, rerun⟩ := returns fun page member _ => by
    obtain ⟨m, resolved, -⟩ := exists_resolvesPage formed (others page member)
    exact ⟨_, m, gives_resolvePage.mpr ⟨resolved, rfl⟩⟩
  obtain ⟨-, pairs⟩ := same again rerun
  exact ⟨r, again, run, empty, rerun, pairs.imp fun _ _ kept known => (kept known).1⟩

end Env
end ViewCompiler
