import Mathlib.Logic.Relation
import ViewCompiler.Proofs.Resolve.Termination

/-! Keys of targets. Where no slug has a hash in it or begins like the key of a partial, and different
partials have different names, a key belongs to one target only. What a tree leads to is told by its
references and calls alone, so that a filled template leads where the template leads. -/
namespace ViewCompiler

section texts

/-- What stands before the first of two equal marks is the same, and so is what stands behind. -/
theorem eq_of_append_cons_eq {α : Type} {mark : α} {as bs cs ds : List α} (first : mark ∉ as)
    (second : mark ∉ cs) (same : as ++ mark :: bs = cs ++ mark :: ds) : as = cs ∧ bs = ds := by
  rcases List.append_eq_append_iff.mp same with ⟨es, rfl, rest⟩ | ⟨es, rfl, rest⟩
  · cases es with
    | nil => exact ⟨(List.append_nil as).symm, (List.cons.inj rest).2⟩
    | cons e es =>
      obtain ⟨rfl, -⟩ := List.cons.inj rest
      exact absurd (by simp) second
  · cases es with
    | nil => exact ⟨List.append_nil cs, (List.cons.inj rest).2.symm⟩
    | cons e es =>
      obtain ⟨rfl, -⟩ := List.cons.inj rest
      exact absurd (by simp) first

/-- The parts of a section's key can be read off, unless the slug has a hash in it. -/
theorem eq_of_sectionKey_eq {slug other name title : String} (first : '#' ∉ slug.toList)
    (second : '#' ∉ other.toList) (same : s!"{slug}#{name}" = s!"{other}#{title}") :
    slug = other ∧ name = title := by
  have chars : slug.toList ++ '#' :: name.toList = other.toList ++ '#' :: title.toList := by
    simpa [toString] using congrArg String.toList same
  obtain ⟨before, behind⟩ := eq_of_append_cons_eq first second chars
  exact ⟨String.toList_inj.mp before, String.toList_inj.mp behind⟩

theorem eq_of_partialKey_eq {name other : String}
    (same : s!"$partial:{name}" = s!"$partial:{other}") : name = other := by
  have chars : "$partial:".toList ++ name.toList = "$partial:".toList ++ other.toList := by
    simpa [toString] using congrArg String.toList same
  exact String.toList_inj.mp (List.append_cancel_left chars)

/-- A section's key is no key of a partial, unless the slug begins like one. -/
theorem sectionKey_ne_partialKey {slug name other : String}
    (plain : ¬ "$partial:".toList <+: slug.toList) :
    s!"{slug}#{name}" ≠ s!"$partial:{other}" := by
  intro same
  have chars : slug.toList ++ '#' :: name.toList = "$partial:".toList ++ other.toList := by
    simpa [toString] using congrArg String.toList same
  rcases List.append_eq_append_iff.mp chars with ⟨es, start, rest⟩ | ⟨es, start, -⟩
  · cases es with
    | nil => exact plain ⟨[], by rw [start]; simp⟩
    | cons e es =>
      obtain ⟨rfl, -⟩ := List.cons.inj rest
      have member : '#' ∈ "$partial:".toList := by rw [start]; simp
      exact absurd member (by decide)
  · exact plain ⟨es, start.symm⟩

end texts

namespace Env

/-- Keys tell targets apart. -/
structure KeysApart (env : Env) : Prop where
  names : ∀ p ∈ Entries.values env.partials, ∀ q ∈ Entries.values env.partials,
    p.name.text = q.name.text → p = q
  slugs : ∀ slug ∈ Entries.keys env.pages,
    '#' ∉ slug.toList ∧ ¬ "$partial:".toList <+: slug.toList

def Next (env : Env) (ps qs : List Node) : Prop := ∃ key, env.Leads ps key qs

def Reaches (env : Env) (ps : List Node) (key : String) : Prop :=
  ∃ rs ss, Relation.ReflTransGen env.Next ps rs ∧ env.Leads rs key ss

variable {env : Env} {ps qs rs ss : List Node} {n t : Node} {key : String}

section unique

variable {r other : Ref} {c d : Call} {p q : Partial} {u : Node}

/-- The parts of a section's key are those of the look-up. -/
theorem exists_slug_of_refTarget (apart : env.KeysApart)
    (found : env.refTarget r = .ok (.found key t)) :
    ∃ name page sections, '#' ∉ (slug name).toList ∧ ¬ "$partial:".toList <+: (slug name).toList ∧
      Entries.get? env.pages (slug name) = some page ∧ page.sections = .ok sections ∧
      Node.findInChildren r.sectionName sections = .ok (some t) ∧
      key = s!"{slug name}#{r.sectionName.text}" := by
  obtain ⟨name, page, sections, -, indexed, parts, search, known⟩ := refTarget_eq_found.mp found
  obtain ⟨plain, start⟩ := apart.slugs _ (Entries.mem_keys_of_get? indexed)
  exact ⟨name, page, sections, plain, start, indexed, parts, search, known⟩

/-- Under one key, references lead to one section. -/
theorem refTarget_unique (apart : env.KeysApart) (first : r.sectionName.isStr)
    (second : other.sectionName.isStr) (found : env.refTarget r = .ok (.found key t))
    (again : env.refTarget other = .ok (.found key u)) : t = u := by
  obtain ⟨_, page, sections, plain, -, indexed, parts, search, known⟩ :=
    exists_slug_of_refTarget apart found
  obtain ⟨_, leaf, places, clean, -, listed, pieces, hunt, same⟩ :=
    exists_slug_of_refTarget apart again
  obtain ⟨slugs, texts⟩ := eq_of_sectionKey_eq plain clean (known.symm.trans same)
  obtain ⟨s, one⟩ := Value.exists_of_isStr first
  obtain ⟨s', two⟩ := Value.exists_of_isStr second
  have names : r.sectionName = other.sectionName := by
    rw [one, two] at texts ⊢
    exact congrArg Value.str texts
  rw [slugs, listed] at indexed
  obtain rfl := Option.some.inj indexed
  obtain rfl := Except.ok.inj (pieces.symm.trans parts)
  rw [names, hunt] at search
  exact (Option.some.inj (Except.ok.inj search)).symm

/-- Under one key, calls lead to one partial. -/
theorem callTarget_unique (apart : env.KeysApart) (found : env.callTarget c = .ok (.found key p))
    (again : env.callTarget d = .ok (.found key q)) : p = q := by
  obtain ⟨_, -, indexed, known⟩ := callTarget_eq_found.mp found
  obtain ⟨_, -, listed, same⟩ := callTarget_eq_found.mp again
  exact apart.names p (Entries.mem_values_of_get? indexed) q (Entries.mem_values_of_get? listed)
    (eq_of_partialKey_eq (known.symm.trans same))

/-- No reference leads to a section under the key of a partial. -/
theorem refTarget_ne_callTarget (apart : env.KeysApart)
    (found : env.refTarget r = .ok (.found key t)) : env.callTarget c ≠ .ok (.found key p) := by
  intro again
  obtain ⟨_, _, _, -, start, -, -, -, known⟩ := exists_slug_of_refTarget apart found
  obtain ⟨_, -, -, same⟩ := callTarget_eq_found.mp again
  exact sectionKey_ne_partialKey start (known.symm.trans same)

end unique

theorem Leads.mono (more : ps ⊆ qs) (leads : env.Leads ps key rs) : env.Leads qs key rs := by
  cases leads with
  | ref member found => exact .ref (more member) found
  | call member found => exact .call (more member) found

/-- Under one key, all references and calls lead to the same. -/
theorem Leads.unique (apart : env.KeysApart) (first : ∀ r, .ref r ∈ ps → r.sectionName.isStr)
    (second : ∀ r, .ref r ∈ qs → r.sectionName.isStr) (one : env.Leads ps key rs)
    (other : env.Leads qs key ss) : rs = ss := by
  cases one with
  | ref member found =>
    cases other with
    | ref entry again =>
      rw [refTarget_unique apart (first _ member) (second _ entry) found again]
    | call _ again => exact absurd again (refTarget_ne_callTarget apart found)
  | call _ found =>
    cases other with
    | ref _ again => exact absurd found (refTarget_ne_callTarget apart again)
    | call _ again => rw [callTarget_unique apart found again]

section cycles

theorem Reaches.of_leads (leads : env.Leads ps key qs) : env.Reaches ps key :=
  ⟨ps, qs, .refl, leads⟩

theorem Reaches.of_next {other : String} (leads : env.Leads ps other qs)
    (reaches : env.Reaches qs key) : env.Reaches ps key := by
  obtain ⟨rs, ss, path, last⟩ := reaches
  exact ⟨rs, ss, .head ⟨other, leads⟩ path, last⟩

/-- What a part reaches, the whole reaches. -/
theorem Reaches.mono (more : ps ⊆ qs) (reaches : env.Reaches ps key) : env.Reaches qs key := by
  obtain ⟨rs, ss, path, last⟩ := reaches
  rcases path.cases_head with rfl | ⟨next, ⟨other, leads⟩, rest⟩
  · exact .of_leads (last.mono more)
  · exact .of_next (leads.mono more) ⟨rs, ss, rest, last⟩

/-- No expansion from here goes on forever. -/
def Ends (env : Env) (ps : List Node) : Prop := Acc (fun qs ps => env.Next ps qs) ps

theorem Ends.mono (part : qs ⊆ ps) (ends : env.Ends ps) : env.Ends qs := by
  constructor
  rintro rs ⟨key, leads⟩
  exact ends.inv ⟨key, leads.mono part⟩

theorem Ends.not_cyclic (ends : env.Ends ps) : ¬ Relation.TransGen env.Next ps ps := by
  induction ends with
  | intro ps _ ih =>
    intro cycle
    obtain ⟨qs, next, back⟩ := Relation.TransGen.head'_iff.mp cycle
    exact ih qs next (Relation.TransGen.tail' back next)

theorem subset_of_path {known : List Node} (path : Relation.ReflTransGen env.Next ps rs)
    (root : ps ⊆ known) (all : env.pending ⊆ known) : rs ⊆ known := by
  rcases path.cases_tail with rfl | ⟨_, -, _, leads⟩
  · exact root
  · exact List.Subset.trans leads.subset all

/-- A key that is reached again from its own target would make the expansion endless. -/
theorem Ends.not_reaches (apart : env.KeysApart) (named : env.NamesSections n)
    (leads : env.Leads n.pending key qs) (ends : env.Ends qs) : ¬ env.Reaches qs key := by
  rintro ⟨rs, ss, path, last⟩
  have all : env.pending ⊆ n.pending ++ env.pending := List.subset_append_right _ _
  have known : rs ⊆ n.pending ++ env.pending :=
    subset_of_path path (List.Subset.trans leads.subset all) all
  have same : qs = ss := by
    apply leads.unique apart _ _ last
    · exact fun r member => named r (List.mem_append_left _ member)
    · exact fun r member => named r (known member)
  subst same
  exact ends.not_cyclic (Relation.TransGen.tail' path ⟨key, last⟩)

end cycles

end Env
end ViewCompiler
