import ViewCompiler.Proofs.Entries
import ViewCompiler.Proofs.Resolve.Growth

/-! The order of pages. Pages with different slugs are found in any order, so environments of
reordered pages agree, and agreeing environments resolve alike. -/
namespace ViewCompiler

variable {pages others : List Node} {index : Entries String Node}

theorem nodup_keys_of_nameSlug {es : Entries String Node}
    (slugs : pages.mapM (fun page => (·, page) <$> page.nameSlug) = .ok es)
    (apart : (pages.map Node.nameSlug).Nodup) : (Entries.keys es).Nodup := by
  rw [map_nameSlug_eq slugs, ← Function.comp_def, ← List.map_map] at apart
  exact List.Nodup.of_map _ apart

/-- Where no two pages have one slug, every page is found by its own. -/
theorem get?_of_indexPages (apart : (pages.map Node.nameSlug).Nodup)
    (indexed : indexPages pages = .ok index) {page : Node} {slug : String} (member : page ∈ pages)
    (slugged : page.nameSlug = .ok slug) : Entries.get? index slug = some page := by
  obtain ⟨es, slugs, made⟩ := Except.bind_eq_ok.mp indexed
  obtain rfl := Except.pure_eq_ok.mp made
  have distinct := nodup_keys_of_nameSlug slugs apart
  rw [Entries.ofPairs_of_nodup distinct, Entries.get?_eq_some_iff distinct]
  obtain ⟨e, inside, made⟩ := exists_right_of_forall₂ (Except.mapM_eq_ok.mp slugs) member
  obtain rfl : (slug, page) = e := by
    rw [slugged] at made
    exact Except.ok.inj made
  exact inside

/-- Reordered pages with different slugs have the same index, up to order. -/
theorem indexPages_of_perm (perm : others.Perm pages) (apart : (pages.map Node.nameSlug).Nodup)
    (indexed : indexPages pages = .ok index) :
    ∃ other, indexPages others = .ok other ∧ ∀ k, Entries.get? other k = Entries.get? index k := by
  obtain ⟨es, slugs, made⟩ := Except.bind_eq_ok.mp indexed
  obtain rfl := Except.pure_eq_ok.mp made
  have distinct := nodup_keys_of_nameSlug slugs apart
  obtain ⟨fs, slugged, moved⟩ := List.perm_comp_forall₂ perm (Except.mapM_eq_ok.mp slugs)
  have unlike : (Entries.keys fs).Nodup := (moved.symm.map Prod.fst).nodup distinct
  refine ⟨fs, ?_, fun k => ?_⟩
  · rw [indexPages, Except.mapM_eq_ok.mpr slugged]
    exact congrArg Except.ok (Entries.ofPairs_of_nodup unlike)
  · rw [Entries.ofPairs_of_nodup distinct]
    exact Entries.get?_of_perm moved unlike k

namespace Env

/-- All look-ups in the two have the same answers. -/
structure Agrees (env other : Env) : Prop where
  pages : ∀ slug, Entries.get? other.pages slug = Entries.get? env.pages slug
  partials : other.partials = env.partials
  registry : other.registry = env.registry

variable {registry : Registry} {partials : List (Value × Partial)} {env other : Env}
  {n m : Node} {ds : List Diagnostic}

/-- Reordered pages with different slugs have environments that agree. -/
theorem exists_agrees_of_perm (perm : others.Perm pages) (apart : (pages.map Node.nameSlug).Nodup)
    (made : Env.of pages registry partials = .ok env) :
    ∃ other, Env.of others registry partials = .ok other ∧ env.Agrees other := by
  obtain ⟨indexed, listed, rfl⟩ := of_eq_ok.mp made
  obtain ⟨index, again, same⟩ := indexPages_of_perm perm apart indexed
  exact ⟨⟨index, env.partials, env.registry⟩, of_eq_ok.mpr ⟨again, listed, rfl⟩, same, rfl, rfl⟩

namespace Agrees

theorem refTarget_eq (agrees : env.Agrees other) : other.refTarget = env.refTarget := by
  funext r
  simp only [refTarget, agrees.pages]

theorem callTarget_eq (agrees : env.Agrees other) : other.callTarget = env.callTarget := by
  funext c
  simp only [callTarget, agrees.partials]

theorem toExtends (agrees : env.Agrees other) : env.Extends other := by
  refine ⟨fun slug page found => (agrees.pages slug).trans found, ?_⟩
  rw [agrees.partials]
  exact .refl _

theorem keeps (agrees : env.Agrees other) (answered : env.Answered n) : env.Keeps other n := by
  cases n with
  | ref r => exact congrFun agrees.refTarget_eq r
  | call c => exact congrFun agrees.callTarget_eq c
  | widget w =>
    rw [Keeps, Answered, agrees.registry]
    exact answered
  | page | sect | slot | cond | loop | frag | custom | stray => trivial

/-- Pages are resolved alike, with the same errors. -/
theorem gives_resolvePage (agrees : env.Agrees other) (run : (env.resolvePage n).Gives ds m) :
    (other.resolvePage n).Gives ds m := by
  obtain ⟨resolved, rfl⟩ := Env.gives_resolvePage.mp run
  exact resolved.gives_of_keeps agrees.toExtends agrees.registry fun t inside =>
    agrees.keeps (resolved.answered t inside)

end Agrees
end Env
end ViewCompiler
