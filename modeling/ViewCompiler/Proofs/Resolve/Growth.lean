import ViewCompiler.Proofs.Resolve.Settled

/-! Resolution in a larger environment. What is found stays found when pages and partials come in
under new names, and widget types are looked up for the errors only. So a tree comes out the same,
with the same errors, wherever the look-ups that failed fail again. -/
namespace ViewCompiler

namespace Env

variable {env other : Env} {busy : List String} {n m t : Node}

/-- Pages and partials that are found in the one are found in the other. -/
structure Extends (env other : Env) : Prop where
  pages : Entries.Within env.pages other.pages
  partials : Entries.Within env.partials other.partials

/-- The look-up at the node is answered alike in both; that of a widget has an answer. -/
def Keeps (env other : Env) : Node → Prop
  | .ref r => other.refTarget r = env.refTarget r
  | .call c => other.callTarget c = env.callTarget c
  | .widget w => other.Answered (.widget w)
  | .page _ _ | .sect _ _ | .slot _ | .cond _ _ _ | .loop _ _ | .frag _ _ | .custom _
  | .stray _ => True

namespace Extends

variable {r : Ref} {c : Call} {p : Partial} {target : Node} {key : String}

/-- Every answer is kept but the one that there is no such page. -/
theorem refTarget_eq {answer : Target Node} (grown : env.Extends other)
    (found : env.refTarget r = .ok answer) (known : ¬ env.Blames (.ref r) .unknownRefTarget) :
    other.refTarget r = .ok answer := by
  rw [refTarget_eq_ok] at found ⊢
  obtain ⟨name, named, ⟨absent, -⟩ | ⟨page, sections, result, indexed, rest⟩⟩ := found
  · exact absurd (.unknownPage named absent) known
  · exact ⟨name, named, .inr ⟨page, sections, result, grown.pages _ _ indexed, rest⟩⟩

/-- Every answer is kept but the one that there is no such partial. -/
theorem callTarget_eq {answer : Target Partial} (grown : env.Extends other)
    (found : env.callTarget c = .ok answer) (known : ¬ env.Blames (.call c) .unknownPartial) :
    other.callTarget c = .ok answer := by
  rw [callTarget_eq_ok] at found ⊢
  obtain ⟨k, named, ⟨absent, -⟩ | ⟨p, indexed, rfl⟩⟩ := found
  · exact absurd (.unknownPartial named absent) known
  · cases k with
    | text name => exact ⟨_, named, .inr ⟨p, grown.partials name p indexed, rfl⟩⟩
    | null | int | float => cases indexed

theorem refTarget_found (grown : env.Extends other)
    (found : env.refTarget r = .ok (.found key target)) :
    other.refTarget r = .ok (.found key target) :=
  grown.refTarget_eq found fun blames => by
    cases blames.unique (blames_circularRef_ref.mpr ⟨_, _, found⟩)

theorem callTarget_found (grown : env.Extends other)
    (found : env.callTarget c = .ok (.found key p)) :
    other.callTarget c = .ok (.found key p) :=
  grown.callTarget_eq found fun blames => by
    cases blames.unique (blames_circularRef_call.mpr ⟨_, _, found⟩)

/-- With the same widget types, a node is answered alike unless a page or a partial was missing. -/
theorem keeps (grown : env.Extends other) (same : other.registry = env.registry)
    (answered : env.Answered t) (page : ¬ env.Blames t .unknownRefTarget)
    (called : ¬ env.Blames t .unknownPartial) : env.Keeps other t := by
  cases t with
  | ref r =>
    obtain ⟨-, answer, found⟩ := answered
    exact (grown.refTarget_eq found page).trans found.symm
  | call c =>
    obtain ⟨-, answer, found⟩ := answered
    exact (grown.callTarget_eq found called).trans found.symm
  | widget w =>
    rw [Keeps, Answered, same]
    exact answered
  | page | sect | slot | cond | loop | frag | custom | stray => trivial

end Extends

/-- Where all that is left in the result is answered alike, the tree is resolved alike: what was put
in the place of a node on the way had been found. -/
theorem Resolves.of_extends (resolved : env.Resolves busy n m) (grown : env.Extends other)
    (kept : ∀ t ∈ m.preorder, env.Keeps other t) : other.Resolves busy n m := by
  induction resolved with
  | ref found fresh placed _ ih =>
    exact .ref (grown.refTarget_found found) fresh placed (ih kept)
  | circularRef found entered placed =>
    exact .circularRef (grown.refTarget_found found) entered placed
  | missingRef missing placed =>
    exact .missingRef ((kept _ (Node.mem_preorder_self _)).trans missing) placed
  | call found fresh template placed _ ih =>
    exact .call (grown.callTarget_found found) fresh template placed (ih kept)
  | circularCall found entered placed =>
    exact .circularCall (grown.callTarget_found found) entered placed
  | missingCall missing placed =>
    exact .missingCall ((kept _ (Node.mem_preorder_self _)).trans missing) placed
  | widget =>
    obtain ⟨known, looked, placed⟩ := kept _ (Node.mem_preorder_self _)
    exact .widget looked placed
  | slot => exact .slot
  | container container passable length _ ih =>
    rw [Node.forall_mem_preorder, Node.subtrees_withSubtrees container length.symm] at kept
    refine .container container passable length fun member => ih member ?_
    exact kept.2 _ (List.of_mem_zip member).2

theorem ResolvesPage.of_extends (run : env.ResolvesPage n m) (grown : env.Extends other)
    (kept : ∀ t ∈ m.preorder, env.Keeps other t) : other.ResolvesPage n m := by
  obtain ⟨passable, each⟩ := run
  refine .intro passable (forall₂_imp_of_mem_right each fun m member t resolved => ?_)
  exact Resolves.of_extends resolved grown fun u below =>
    kept u (Node.mem_preorder_of_mem_subtrees member below)

theorem errorsAt_of_keeps (keeps : env.Keeps other t) (same : other.registry = env.registry) :
    other.errorsAt t = env.errorsAt t := by
  cases t with
  | ref r =>
    have looked : other.refTarget r = env.refTarget r := keeps
    simp only [errorsAt, looked]
  | call c =>
    have looked : other.callTarget c = env.callTarget c := keeps
    simp only [errorsAt, looked]
  | widget w => simp only [errorsAt, same]
  | page | sect | slot | cond | loop | frag | custom | stray => rfl

theorem errorsOf_of_keeps (kept : ∀ t ∈ m.preorder, env.Keeps other t)
    (same : other.registry = env.registry) : other.errorsOf m = env.errorsOf m :=
  List.flatMap_congr fun t member => errorsAt_of_keeps (kept t member) same

/-- A page of whose result everything is answered alike comes out the same, with the same errors. -/
theorem ResolvesPage.gives_of_keeps (run : env.ResolvesPage n m) (grown : env.Extends other)
    (same : other.registry = env.registry) (kept : ∀ t ∈ m.preorder, env.Keeps other t) :
    (other.resolvePage n).Gives (env.errorsOf m) m :=
  gives_resolvePage.mpr ⟨run.of_extends grown kept, (errorsOf_of_keeps kept same).symm⟩

section pages

variable {pages extra : List Node} {registry : Registry} {partials more : List (Value × Partial)}

/-- Only a page without a slug or a key that is no text keeps an environment from growing. -/
theorem exists_env_of_growth (made : Env.of pages registry partials = .ok env)
    (slugged : ∀ page ∈ extra, ∃ slug, page.nameSlug = .ok slug)
    (named : ∀ e ∈ more, e.1.isStr) :
    ∃ other, Env.of (pages ++ extra) registry (partials ++ more) = .ok other := by
  obtain ⟨indexed, listed, rfl⟩ := of_eq_ok.mp made
  obtain ⟨es, slugs, -⟩ := Except.bind_eq_ok.mp indexed
  obtain ⟨fs, others⟩ : ∃ fs : List (String × Node),
      extra.mapM (fun page => (·, page) <$> page.nameSlug) = .ok fs := by
    simp only [Except.mapM_eq_ok]
    refine exists_forall₂ fun page member => ?_
    obtain ⟨slug, known⟩ := slugged page member
    exact ⟨(slug, page), by rw [known]; rfl⟩
  have reindexed : indexPages (pages ++ extra) = .ok (Entries.ofPairs (es ++ fs)) := by
    rw [indexPages, List.mapM_append, slugs, Except.ok_bind, others]
    rfl
  obtain ⟨index, relisted⟩ := foldlM_add_total named env.partials
  refine ⟨⟨_, index, env.registry⟩, of_eq_ok.mpr ⟨reindexed, ?_, rfl⟩⟩
  rw [PartialIndex.ofEntries] at listed ⊢
  rw [List.foldlM_append, listed]
  exact relisted

/-- Pages of other slugs and partials under other keys make a larger environment. -/
theorem extends_of_env (made : Env.of pages registry partials = .ok env)
    (again : Env.of (pages ++ extra) registry (partials ++ more) = .ok other)
    (newPages : ∀ page ∈ extra, page.nameSlug ∉ pages.map Node.nameSlug)
    (newPartials : ∀ e ∈ more, ∀ name, e.1 = .str name → name ∉ Entries.keys env.partials) :
    env.Extends other := by
  obtain ⟨indexed, listed, -⟩ := of_eq_ok.mp made
  obtain ⟨reindexed, relisted, -⟩ := of_eq_ok.mp again
  exact ⟨within_indexPages indexed reindexed newPages,
    within_ofEntries listed relisted newPartials⟩

/-- Where no page and no partial was missing, every page comes out the same in a larger environment
of the same widget types, with the same errors. -/
theorem ResolvesPage.gives_of_extends (run : env.ResolvesPage n m) (grown : env.Extends other)
    (same : other.registry = env.registry)
    (known : ∀ d ∈ env.errorsOf m,
      d.code ≠ .str Code.unknownRefTarget.name ∧ d.code ≠ .str Code.unknownPartial.name) :
    (other.resolvePage n).Gives (env.errorsOf m) m := by
  have answered := run.answered
  have page := (forall_code_ne_iff answered).mp fun d reported => (known d reported).1
  have called := (forall_code_ne_iff answered).mp fun d reported => (known d reported).2
  exact run.gives_of_keeps grown same fun t inside =>
    grown.keeps same (answered t inside) (page t inside) (called t inside)

end pages

end Env

namespace Registry

variable {registry swapped : Registry} {known other : Bool} {v : Value}

def join (registry swapped : Registry) : Registry := ⟨registry.table ++ swapped.table⟩

theorem has_join (first : registry.has v = .ok known) (second : swapped.has v = .ok other) :
    (registry.join swapped).has v = .ok (known || other) := by
  obtain ⟨k, named, found⟩ := Except.bind_eq_ok.mp first
  obtain rfl := Except.pure_eq_ok.mp found
  rw [has, named, Except.ok_bind] at second
  obtain rfl := Except.pure_eq_ok.mp second
  rw [has, named, Except.ok_bind]
  simp only [join, Table.get?, Entries.get?_append, Option.isSome_map, Option.isSome_or]
  rfl

/-- Whether a type has a key does not depend on the types that are known. -/
theorem exists_has_of_has (looked : registry.has v = .ok known) (swapped : Registry) :
    ∃ other, swapped.has v = .ok other := by
  obtain ⟨k, named, -⟩ := Except.bind_eq_ok.mp looked
  exact ⟨_, by rw [has, named]; rfl⟩

end Registry

namespace Env

variable {env : Env} {page m m' t : Node} {swapped : Registry} {w : Widget}

def withRegistry (env : Env) (registry : Registry) : Env := { env with registry }

theorem extends_withRegistry : env.Extends (env.withRegistry swapped) :=
  ⟨Entries.Within.refl _, Entries.Within.refl _⟩

theorem keeps_withRegistry
    (answers : ∀ w, t = .widget w → (env.withRegistry swapped).Answered (.widget w)) :
    env.Keeps (env.withRegistry swapped) t := by
  cases t with
  | widget w => exact answers w rfl
  | ref | call => rfl
  | page | sect | slot | cond | loop | frag | custom | stray => trivial

/-- The widget types do not matter, as long as they have an answer for every widget. -/
theorem ResolvesPage.withRegistry (run : env.ResolvesPage page m)
    (answers : ∀ w, .widget w ∈ m.preorder → (env.withRegistry swapped).Answered (.widget w)) :
    (env.withRegistry swapped).ResolvesPage page m :=
  run.of_extends extends_withRegistry fun _ inside =>
    keeps_withRegistry fun w widget => answers w (widget ▸ inside)

/-- The result of a page does not depend on the widget types. -/
theorem ResolvesPage.eq_of_withRegistry (first : env.ResolvesPage page m)
    (second : (env.withRegistry swapped).ResolvesPage page m') : m = m' := by
  -- Both come out with the types of both: where more types are known, no more places are needed.
  have left : (env.withRegistry (env.registry.join swapped)).ResolvesPage page m := by
    refine first.withRegistry fun w inside => ?_
    obtain ⟨known, looked, placed⟩ := first.answered _ inside
    obtain ⟨other, again⟩ := Registry.exists_has_of_has looked swapped
    exact ⟨_, Registry.has_join looked again, fun neither =>
      placed (Bool.or_eq_false_iff.mp neither).1⟩
  have right : ((env.withRegistry swapped).withRegistry
      (env.registry.join swapped)).ResolvesPage page m' := by
    refine second.withRegistry fun w inside => ?_
    obtain ⟨known, looked, placed⟩ := second.answered _ inside
    obtain ⟨other, again⟩ := Registry.exists_has_of_has looked env.registry
    exact ⟨_, Registry.has_join again looked, fun neither =>
      placed (Bool.or_eq_false_iff.mp neither).2⟩
  exact left.unique right

/-- The other errors of a node are the same. -/
theorem filter_errorsAt_withRegistry (t : Node) :
    ((env.withRegistry swapped).errorsAt t).filter (! ·.hasCode .unknownWidgetType) =
      (env.errorsAt t).filter (! ·.hasCode .unknownWidgetType) := by
  have none : ∀ (env : Env) w,
      (env.errorsAt (.widget w)).filter (! ·.hasCode .unknownWidgetType) = [] := by
    intro env w
    simp only [errorsAt, Head.errors]
    split
    · split
      · simp [Diagnostic.hasCode_iff, Diagnostic.make]
      · rfl
    · rfl
  cases t with
  | widget w => rw [none, none]
  | ref | call | page | sect | slot | cond | loop | frag | custom | stray => rfl

section resolution

variable {pages extra : List Node} {registry : Registry} {partials more : List (Value × Partial)}
  {r grown again : Resolution} {other : Env}

/-- Where the first pages are resolved as before, a resolution of more pages adds those of the
others, and their errors. -/
theorem resolve_append_eq_ok
    (kept : List.Forall₂ (fun page m => (other.resolvePage page).Gives (env.errorsOf m) m)
      pages r.pages)
    (errors : r.errors = r.pages.flatMap env.errorsOf)
    (made : Env.of (pages ++ extra) registry (partials ++ more) = .ok other) :
    resolve (pages ++ extra) registry (partials ++ more) = .ok grown ↔
      ∃ qs, List.Forall₂ other.ResolvesPage extra qs ∧
        grown = ⟨r.pages ++ qs, r.errors ++ qs.flatMap other.errorsOf⟩ := by
  have first : List.Forall₂ (fun page m => other.ResolvesPage page m ∧
      env.errorsOf m = other.errorsOf m) pages r.pages :=
    kept.imp fun _ _ => gives_resolvePage.mp
  have told : r.errors = r.pages.flatMap other.errorsOf := by
    rw [errors]
    refine List.flatMap_congr fun m member => ?_
    obtain ⟨_, -, -, told⟩ := exists_left_of_forall₂ first member
    exact told
  rw [resolve_eq_ok]
  constructor
  · rintro ⟨_, same, pairs, reported⟩
    obtain rfl := Except.ok.inj (made.symm.trans same)
    obtain ⟨ms, qs, front, back, split⟩ := forall₂_append_left.mp pairs
    have stays : ms = r.pages := eq_of_forall₂ front first
      fun _ _ _ _ resolved both => resolved.unique both.1
    rw [split, List.flatMap_append, stays, ← told] at reported
    rw [stays] at split
    refine ⟨qs, back, ?_⟩
    rw [← split, ← reported]
  · rintro ⟨qs, back, rfl⟩
    have front := first.imp fun _ _ => And.left
    refine ⟨other, made, forall₂_append_left.mpr ⟨_, _, front, back, rfl⟩, ?_⟩
    rw [List.flatMap_append, ← told]

/-- With other widget types every page comes out the same, and so do all errors but those of unknown
types. -/
theorem eq_of_resolve_withRegistry {swapped : Registry}
    (run : resolve pages registry partials = .ok r)
    (rerun : resolve pages swapped partials = .ok again) :
    again.pages = r.pages ∧ again.errors.filter (! ·.hasCode .unknownWidgetType) =
      r.errors.filter (! ·.hasCode .unknownWidgetType) := by
  obtain ⟨env, made, pairs, errors⟩ := resolve_eq_ok.mp run
  obtain ⟨other, remade, others, reported⟩ := resolve_eq_ok.mp rerun
  obtain ⟨indexed, listed, -⟩ := of_eq_ok.mp made
  have moved : Env.of pages swapped partials = .ok (env.withRegistry swapped) :=
    of_eq_ok.mpr ⟨indexed, listed, rfl⟩
  obtain rfl := Except.ok.inj (moved.symm.trans remade)
  have stays : again.pages = r.pages :=
    (eq_of_forall₂ pairs others fun _ _ _ _ first second => first.eq_of_withRegistry second).symm
  refine ⟨stays, ?_⟩
  rw [reported, errors, stays, List.filter_flatMap, List.filter_flatMap]
  refine List.flatMap_congr fun m _ => ?_
  rw [errorsOf, errorsOf, List.filter_flatMap, List.filter_flatMap]
  exact List.flatMap_congr fun t _ => filter_errorsAt_withRegistry t

/-- Other widget types stop no resolution whose widgets have places that an error can point to. -/
theorem exists_resolve_withRegistry (run : resolve pages registry partials = .ok r)
    (placed : ∀ page ∈ r.pages, ∀ w, .widget w ∈ page.preorder → w.toHead.Placed)
    (swapped : Registry) : ∃ again, resolve pages swapped partials = .ok again := by
  obtain ⟨env, made, pairs, -⟩ := resolve_eq_ok.mp run
  obtain ⟨indexed, listed, -⟩ := of_eq_ok.mp made
  have moved : Env.of pages swapped partials = .ok (env.withRegistry swapped) :=
    of_eq_ok.mpr ⟨indexed, listed, rfl⟩
  refine ⟨⟨r.pages, r.pages.flatMap (env.withRegistry swapped).errorsOf⟩,
    resolve_eq_ok.mpr ⟨_, moved, ?_, rfl⟩⟩
  refine forall₂_imp_of_mem_right pairs fun m member page resolved => ?_
  refine ResolvesPage.withRegistry resolved fun w inside => ?_
  obtain ⟨_, looked, -⟩ := resolved.answered _ inside
  obtain ⟨known, again⟩ := Registry.exists_has_of_has looked swapped
  exact ⟨known, again, fun _ => placed m member w inside⟩

/-- Where no page and no partial was missing, pages of other slugs and partials under other keys
change neither the pages that were resolved nor their errors; slugs of partials give way to what is
there. Other widget types change nothing but the errors of unknown types. -/
theorem resolve_of_growth (run : resolve pages registry partials = .ok r)
    (made : Env.of pages registry partials = .ok env) :
    (∀ extra more,
      (∀ d ∈ r.errors,
        d.code ≠ .str Code.unknownRefTarget.name ∧ d.code ≠ .str Code.unknownPartial.name) →
      (∀ page ∈ extra, page.nameSlug ∉ pages.map Node.nameSlug) →
      (∀ e ∈ more, ∀ name, e.1 = .str name → name ∉ Entries.keys env.partials) →
      ((∀ page ∈ extra, ∃ slug, page.nameSlug = .ok slug) → (∀ e ∈ more, e.1.isStr) →
        ∃ other, Env.of (pages ++ extra) registry (partials ++ more) = .ok other) ∧
      ∀ other, Env.of (pages ++ extra) registry (partials ++ more) = .ok other →
        List.Forall₂ (fun page m => (other.resolvePage page).Gives (env.errorsOf m) m)
          pages r.pages ∧
        ∀ grown, resolve (pages ++ extra) registry (partials ++ more) = .ok grown ↔
          ∃ qs, List.Forall₂ other.ResolvesPage extra qs ∧
            grown = ⟨r.pages ++ qs, r.errors ++ qs.flatMap other.errorsOf⟩) ∧
    ∀ swapped,
      ((∀ page ∈ r.pages, ∀ w, .widget w ∈ page.preorder → w.toHead.Placed) →
        ∃ again, resolve pages swapped partials = .ok again) ∧
      ∀ again, resolve pages swapped partials = .ok again →
        again.pages = r.pages ∧ again.errors.filter (! ·.hasCode .unknownWidgetType) =
          r.errors.filter (! ·.hasCode .unknownWidgetType) := by
  constructor
  · intro extra more known newPages newPartials
    refine ⟨exists_env_of_growth made, fun other remade => ?_⟩
    have grown : env.Extends other := extends_of_env made remade newPages newPartials
    have same : other.registry = env.registry := by
      rw [registry_of_env made, registry_of_env remade]
    obtain ⟨_, again, pairs, errors⟩ := resolve_eq_ok.mp run
    obtain rfl := Except.ok.inj (made.symm.trans again)
    have kept : List.Forall₂ (fun page m => (other.resolvePage page).Gives (env.errorsOf m) m)
        pages r.pages := by
      refine forall₂_imp_of_mem_right pairs fun m member page resolved => ?_
      refine ResolvesPage.gives_of_extends resolved grown same fun d reported => known d ?_
      rw [errors]
      exact List.mem_flatMap.mpr ⟨m, member, reported⟩
    exact ⟨kept, fun _ => resolve_append_eq_ok kept errors remade⟩
  · intro swapped
    exact ⟨fun placed => exists_resolve_withRegistry run placed swapped,
      fun again rerun => eq_of_resolve_withRegistry run rerun⟩

def heroPartial : Partial := { name := .str "hero", template := .slot { name := .str "title" } }

/-- The pages stay as they are beside one more page and a first partial, and without any widget
types. -/
theorem resolve_of_growth_frontPage :
    ∃ r grown again, resolve [frontPage, offersPage] badgeRegistry [] = .ok r ∧
      resolve [frontPage, offersPage, heroPage] badgeRegistry [(.str "hero", heroPartial)] =
        .ok grown ∧
      resolve [frontPage, offersPage] {} [] = .ok again ∧
      r.pages <+: grown.pages ∧ r.errors <+: grown.errors ∧ again.pages = r.pages := by
  have pagesSound : ∀ page ∈ [frontPage, offersPage], page.isSoundPage := by decide +kernel
  obtain ⟨r, run, empty, -⟩ := exists_resolve_frontPage
  obtain ⟨again, rerun, -⟩ := @resolve_total _ {} [] pagesSound nofun
  have slugs : [frontPage, offersPage].map Node.nameSlug = [.ok "front", .ok "offers"] := rfl
  have slug : heroPage.nameSlug = .ok "home" := rfl
  obtain ⟨env, made, -⟩ := @of_total _ [] badgeRegistry pagesSound nofun
  have bare : [] = env.partials := Except.ok.inj (of_eq_ok.mp made).2.1
  obtain ⟨growth, types⟩ := resolve_of_growth run made
  obtain ⟨-, each⟩ := growth [heroPage] [(.str "hero", heroPartial)] (by simp [empty])
    (by rw [slugs]; simp [slug]) (by rw [← bare]; simp [Entries.keys])
  obtain ⟨other, remade, formed⟩ := of_total badgeRegistry
    (by decide +kernel : ∀ page ∈ [frontPage, offersPage] ++ [heroPage], page.isSoundPage)
    (by decide +kernel : ∀ e ∈ [] ++ [(Value.str "hero", heroPartial)], Partial.isSoundEntry e)
  have sound : heroPage.isSoundPage := by decide +kernel
  obtain ⟨hero, resolved, -⟩ := exists_resolvesPage formed sound
  have enlarged := ((each other remade).2 _).mpr ⟨[hero], .cons resolved .nil, rfl⟩
  obtain ⟨-, same⟩ := types {}
  exact ⟨r, _, again, run, enlarged, rerun, List.prefix_append _ _, List.prefix_append _ _,
    (same again rerun).1⟩

end resolution

end Env
end ViewCompiler
