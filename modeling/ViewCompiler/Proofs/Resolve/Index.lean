import ViewCompiler.Proofs.Resolve.Targets
import ViewCompiler.Proofs.Template.Index

/-! Where the entries of an environment come from: every indexed page is one of the pages given, and
every indexed partial one of the partials. -/
namespace ViewCompiler

namespace Entries

variable {κ α : Type} [DecidableEq κ] {es : Entries κ α} {k : κ} {a b : α}

theorem eq_or_mem_of_mem_values_put (member : b ∈ values (put es k a)) :
    b = a ∨ b ∈ values es := by
  induction es with
  | nil => exact .inl (List.mem_singleton.mp member)
  | cons e es ih =>
    by_cases same : e.1 = k
    · simp only [put, same, if_true, values, List.map_cons, List.mem_cons] at member ⊢
      exact member.imp_right .inr
    · simp only [put, same, if_false, values, List.map_cons, List.mem_cons] at member ⊢ ih
      rcases member with first | later
      · exact .inr (.inl first)
      · exact (ih later).imp_right .inr

theorem eq_or_mem_of_mem_values_putNew (member : b ∈ values (putNew es k a)) :
    b = a ∨ b ∈ values es := by
  unfold putNew at member
  split at member
  · exact .inr member
  · exact eq_or_mem_of_mem_values_put member

theorem mem_values_merge {fs : Entries κ α} (member : b ∈ values (merge es fs)) :
    b ∈ values es ∨ b ∈ values fs := by
  induction fs generalizing es with
  | nil => exact .inl member
  | cons f fs ih =>
    rcases ih member with early | late
    · rcases eq_or_mem_of_mem_values_put early with rfl | old
      · exact .inr List.mem_cons_self
      · exact .inl old
    · exact .inr (List.mem_cons_of_mem _ late)

theorem mem_keys_merge {fs : Entries κ α} (member : k ∈ keys (merge es fs)) :
    k ∈ keys es ∨ k ∈ keys fs := by
  induction fs generalizing es with
  | nil => exact .inl member
  | cons f fs ih =>
    rcases ih member with early | late
    · rw [keys_put] at early
      split at early
      · exact .inl early
      · rcases List.mem_append.mp early with old | new
        · exact .inl old
        · obtain rfl := List.mem_singleton.mp new
          exact .inr List.mem_cons_self
    · exact .inr (List.mem_cons_of_mem _ late)

theorem ofPairs_append (es fs : List (κ × α)) : ofPairs (es ++ fs) = merge (ofPairs es) fs :=
  List.foldl_append

def Within (es fs : Entries κ α) : Prop := ∀ k a, get? es k = some a → get? fs k = some a

namespace Within

variable {fs : Entries κ α}

theorem refl (es : Entries κ α) : Within es es := fun _ _ found => found

/-- Writes under a new key keep what is found. -/
theorem put (within : Within es fs) (fresh : k ∉ keys es) : Within es (put fs k a) := by
  intro j b found
  have other : k ≠ j := by
    rintro rfl
    exact fresh (mem_keys_of_get? found)
  rw [get?_put_of_ne fs a other]
  exact within j b found

theorem putNew (within : Within es fs) : Within es (putNew fs k a) := by
  intro j b found
  rw [get?_putNew, within j b found, Option.some_or]

theorem merge {gs : Entries κ α} (within : Within es fs) (fresh : ∀ k ∈ keys gs, k ∉ keys es) :
    Within es (merge fs gs) := by
  induction gs generalizing fs with
  | nil => exact within
  | cons g gs ih =>
    obtain ⟨first, rest⟩ := List.forall_mem_cons.mp fresh
    exact ih (within.put first) rest

end Within

end Entries

variable {pages : List Node} {registry : Registry} {partials : List (Value × Partial)} {env : Env}

theorem mem_of_indexPages {index : Entries String Node} (indexed : indexPages pages = .ok index)
    {page : Node} (member : page ∈ Entries.values index) : page ∈ pages := by
  obtain ⟨es, slugs, made⟩ := Except.bind_eq_ok.mp indexed
  obtain rfl := Except.pure_eq_ok.mp made
  rcases Entries.mem_values_merge member with absurd | stored
  · cases absurd
  · obtain ⟨e, inside, rfl⟩ := List.mem_map.mp stored
    obtain ⟨given, found, slugged⟩ := exists_left_of_forall₂ (Except.mapM_eq_ok.mp slugs) inside
    obtain ⟨_, -, rfl⟩ := Except.map_eq_ok.mp slugged
    exact found

/-- The entries of an index go by the slugs of the pages. -/
theorem map_nameSlug_eq {es : Entries String Node}
    (slugs : pages.mapM (fun page => (·, page) <$> page.nameSlug) = .ok es) :
    pages.map Node.nameSlug = es.map (Except.ok ·.1) := by
  refine map_eq_of_forall₂ ((Except.mapM_eq_ok.mp slugs).imp fun page e slugged => ?_)
  obtain ⟨slug, known, rfl⟩ := Except.map_eq_ok.mp slugged
  exact known

/-- Pages of other slugs that come later displace none. -/
theorem within_indexPages {extra : List Node} {index grown : Entries String Node}
    (indexed : indexPages pages = .ok index) (again : indexPages (pages ++ extra) = .ok grown)
    (apart : ∀ page ∈ extra, page.nameSlug ∉ pages.map Node.nameSlug) :
    Entries.Within index grown := by
  obtain ⟨es, slugs, made⟩ := Except.bind_eq_ok.mp indexed
  obtain rfl := Except.pure_eq_ok.mp made
  obtain ⟨_, joined, made⟩ := Except.bind_eq_ok.mp again
  obtain rfl := Except.pure_eq_ok.mp made
  rw [List.mapM_append, slugs, Except.ok_bind] at joined
  obtain ⟨fs, others, same⟩ := Except.bind_eq_ok.mp joined
  obtain rfl := Except.pure_eq_ok.mp same
  rw [Entries.ofPairs_append]
  refine (Entries.Within.refl _).merge fun k late early => ?_
  have listed {ps : List Node} {gs : Entries String Node} (member : k ∈ Entries.keys gs)
      (slugs : ps.mapM (fun page => (·, page) <$> page.nameSlug) = .ok gs) :
      Except.ok k ∈ ps.map Node.nameSlug := by
    rw [map_nameSlug_eq slugs]
    obtain ⟨g, inside, rfl⟩ := List.mem_map.mp member
    exact List.mem_map.mpr ⟨g, inside, rfl⟩
  obtain ⟨page, given, slugged⟩ := List.mem_map.mp (listed late others)
  rcases Entries.mem_keys_merge early with absurd | stored
  · cases absurd
  · exact apart page given (slugged ▸ listed stored slugs)

theorem eq_or_mem_of_add {index next : PartialIndex} {key : Value} {p q : Partial}
    (added : PartialIndex.add index key p = .ok next) (member : q ∈ Entries.values next) :
    q = p ∨ q ∈ Entries.values index := by
  obtain ⟨name, rfl, rfl⟩ := PartialIndex.add_eq_ok.mp added
  rcases Entries.eq_or_mem_of_mem_values_putNew member with same | stored
  · exact .inl same
  · exact Entries.eq_or_mem_of_mem_values_put stored

/-- A partial of the finished index was there at the start or is one of those added. -/
theorem mem_of_foldlM_add {start index : PartialIndex} {p : Partial}
    (folded : partials.foldlM (fun index e => PartialIndex.add index e.1 e.2) start = .ok index)
    (member : p ∈ Entries.values index) :
    p ∈ Entries.values start ∨ ∃ e ∈ partials, e.2 = p := by
  induction partials generalizing start with
  | nil =>
    obtain rfl := Except.pure_eq_ok.mp folded
    exact .inl member
  | cons e partials ih =>
    rw [List.foldlM_cons] at folded
    obtain ⟨next, added, rest⟩ := Except.bind_eq_ok.mp folded
    rcases ih rest with early | ⟨later, given, same⟩
    · rcases eq_or_mem_of_add added early with rfl | old
      · exact .inr ⟨e, List.mem_cons_self, rfl⟩
      · exact .inl old
    · exact .inr ⟨later, List.mem_cons_of_mem _ given, same⟩

theorem mem_of_ofEntries {index : PartialIndex}
    (listed : PartialIndex.ofEntries partials = .ok index) {p : Partial}
    (member : p ∈ Entries.values index) : ∃ e ∈ partials, e.2 = p := by
  rcases mem_of_foldlM_add listed member with absurd | given
  · cases absurd
  · exact given

theorem within_add {base index next : PartialIndex} {key : Value} {p : Partial}
    (within : Entries.Within base index) (added : PartialIndex.add index key p = .ok next)
    (fresh : ∀ name, key = .str name → name ∉ Entries.keys base) : Entries.Within base next := by
  obtain ⟨name, rfl, rfl⟩ := PartialIndex.add_eq_ok.mp added
  exact (within.put (fresh name rfl)).putNew

/-- Partials that go by new keys displace none, neither by their keys nor by their slugs. -/
theorem within_foldlM_add {base start index : PartialIndex} (within : Entries.Within base start)
    (folded : partials.foldlM (fun index e => PartialIndex.add index e.1 e.2) start = .ok index)
    (fresh : ∀ e ∈ partials, ∀ name, e.1 = .str name → name ∉ Entries.keys base) :
    Entries.Within base index := by
  induction partials generalizing start with
  | nil =>
    obtain rfl := Except.pure_eq_ok.mp folded
    exact within
  | cons e partials ih =>
    rw [List.foldlM_cons] at folded
    obtain ⟨next, added, rest⟩ := Except.bind_eq_ok.mp folded
    obtain ⟨first, later⟩ := List.forall_mem_cons.mp fresh
    exact ih (within_add within added first) rest later

theorem within_ofEntries {more : List (Value × Partial)} {index grown : PartialIndex}
    (listed : PartialIndex.ofEntries partials = .ok index)
    (again : PartialIndex.ofEntries (partials ++ more) = .ok grown)
    (fresh : ∀ e ∈ more, ∀ name, e.1 = .str name → name ∉ Entries.keys index) :
    Entries.Within index grown := by
  rw [PartialIndex.ofEntries] at listed again
  rw [List.foldlM_append, listed, Except.ok_bind] at again
  exact within_foldlM_add (Entries.Within.refl _) again fresh

namespace Env

theorem of_eq_ok : Env.of pages registry partials = .ok env ↔
    indexPages pages = .ok env.pages ∧ PartialIndex.ofEntries partials = .ok env.partials ∧
      registry = env.registry := by
  simp only [Env.of, Except.bind_eq_ok, Except.pure_eq_ok]
  constructor
  · rintro ⟨_, indexed, _, listed, rfl⟩
    exact ⟨indexed, listed, rfl⟩
  · rintro ⟨indexed, listed, rfl⟩
    exact ⟨_, indexed, _, listed, rfl⟩

theorem registry_of_env (made : Env.of pages registry partials = .ok env) :
    env.registry = registry :=
  (of_eq_ok.mp made).2.2.symm

/-- An environment is made of the pages and partials that it is made from. -/
theorem mem_pages_of_env (made : Env.of pages registry partials = .ok env) {page : Node}
    (member : page ∈ Entries.values env.pages) : page ∈ pages :=
  mem_of_indexPages (of_eq_ok.mp made).1 member

theorem mem_partials_of_env (made : Env.of pages registry partials = .ok env) {p : Partial}
    (member : p ∈ Entries.values env.partials) : ∃ e ∈ partials, e.2 = p :=
  mem_of_ofEntries (of_eq_ok.mp made).2.1 member

end Env
end ViewCompiler
