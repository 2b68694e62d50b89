import ViewCompiler.Proofs.Node.Search
import ViewCompiler.Proofs.Value.Equality
import ViewCompiler.Resolve

/-! What references and calls lead to: the look-ups behind each answer, and that a section which is
found is one of the page. -/
namespace ViewCompiler

namespace Value

theorem slug_eq_ok {v : Value} {s : String} :
    v.slug = .ok s ↔ ∃ name, v = .str name ∧ s = ViewCompiler.slug name := by
  cases v <;> simp [slug, eq_comm]

end Value

namespace Entries

variable {κ α : Type} [DecidableEq κ] {es : Entries κ α} {k : κ} {a : α}

theorem mem_keys_of_get? (indexed : get? es k = some a) : k ∈ keys es :=
  List.mem_map_of_mem (f := Prod.fst) (mem_of_get? indexed)

theorem mem_values_of_get? (indexed : get? es k = some a) : a ∈ values es :=
  List.mem_map_of_mem (f := Prod.snd) (mem_of_get? indexed)

end Entries

namespace Env

variable {env : Env} {r : Ref} {c : Call} {p : Partial} {target : Node} {key message : String}
  {code : Code}

theorem refTarget_eq_ok {answer : Target Node} :
    env.refTarget r = .ok answer ↔ ∃ name, r.pageName = .str name ∧
      ((Entries.get? env.pages (slug name) = none ∧ answer = .missing .unknownRefTarget
          s!"$ref target page \"{r.pageName.text}\" not found") ∨
        ∃ page sections result, Entries.get? env.pages (slug name) = some page ∧
          page.sections = .ok sections ∧
          Node.findInChildren r.sectionName sections = .ok result ∧
          answer = match result with
            | none => .missing .unknownRefSection
              s!"$ref target section \"{r.sectionName.text}\" not found in \"{r.pageName.text}\""
            | some target => .found s!"{slug name}#{r.sectionName.text}" target) := by
  unfold refTarget
  simp only [Except.bind_eq_ok, Value.slug_eq_ok]
  constructor
  · rintro ⟨_, ⟨name, named, rfl⟩, answered⟩
    refine ⟨name, named, ?_⟩
    cases indexed : Entries.get? env.pages (slug name) with
    | none =>
      simp only [indexed, Except.pure_eq_ok] at answered
      exact .inl ⟨rfl, answered.symm⟩
    | some page =>
      simp only [indexed, Except.bind_eq_ok] at answered
      obtain ⟨sections, parts, result, found, answered⟩ := answered
      refine .inr ⟨page, sections, result, rfl, parts, found, ?_⟩
      cases result <;> exact (Except.pure_eq_ok.mp answered).symm
  · rintro ⟨name, named, ⟨indexed, rfl⟩ | ⟨page, sections, result, indexed, parts, found, rfl⟩⟩
    · refine ⟨slug name, ⟨name, named, rfl⟩, ?_⟩
      simp [indexed, pure, Except.pure]
    · refine ⟨slug name, ⟨name, named, rfl⟩, ?_⟩
      simp only [indexed, Except.bind_eq_ok]
      exact ⟨sections, parts, result, found, by cases result <;> rfl⟩

/-- A target is found by the slug of its page, and in the page by its name. -/
theorem refTarget_eq_found :
    env.refTarget r = .ok (.found key target) ↔ ∃ name page sections, r.pageName = .str name ∧
      Entries.get? env.pages (slug name) = some page ∧ page.sections = .ok sections ∧
      Node.findInChildren r.sectionName sections = .ok (some target) ∧
      key = s!"{slug name}#{r.sectionName.text}" := by
  rw [refTarget_eq_ok]
  constructor
  · rintro ⟨name, named, ⟨-, impossible⟩ | ⟨page, sections, result, indexed, parts, found, answer⟩⟩
    · cases impossible
    · cases result with
      | none => cases answer
      | some t =>
        simp only [Target.found.injEq] at answer
        obtain ⟨same, rfl⟩ := answer
        exact ⟨name, page, sections, named, indexed, parts, found, same⟩
  · rintro ⟨name, page, sections, named, indexed, parts, found, rfl⟩
    exact ⟨name, named, .inr ⟨page, sections, some target, indexed, parts, found, rfl⟩⟩

/-- Only a text names a partial. -/
def partialAt (env : Env) : Key → Option Partial
  | .text name => Entries.get? env.partials name
  | _ => none

theorem callTarget_eq_ok {answer : Target Partial} :
    env.callTarget c = .ok answer ↔ ∃ k, c.name.key = .ok k ∧
      ((env.partialAt k = none ∧
          answer = .missing .unknownPartial s!"Partial \"{c.name.text}\" not found") ∨
        ∃ p, env.partialAt k = some p ∧ answer = .found s!"$partial:{p.name.text}" p) := by
  unfold callTarget
  cases c.name.key with
  | error fault => simp [bind, Except.bind]
  | ok k =>
    cases k with
    | text name =>
      cases indexed : Entries.get? env.partials name <;>
        simp [partialAt, indexed, bind, Except.bind, pure, Except.pure, eq_comm]
    | null | int | float => simp [partialAt, bind, Except.bind, pure, Except.pure, eq_comm]

/-- A partial is found by the text of the call's name. -/
theorem callTarget_eq_found :
    env.callTarget c = .ok (.found key p) ↔ ∃ name, c.name = .str name ∧
      Entries.get? env.partials name = some p ∧ key = s!"$partial:{p.name.text}" := by
  rw [callTarget_eq_ok]
  constructor
  · rintro ⟨k, known, ⟨-, impossible⟩ | ⟨q, indexed, answer⟩⟩
    · cases impossible
    · simp only [Target.found.injEq] at answer
      obtain ⟨same, rfl⟩ := answer
      cases k with
      | text name => exact ⟨name, Value.key_eq_text.mp known, indexed, same⟩
      | null | int | float => cases indexed
  · rintro ⟨name, named, indexed, rfl⟩
    exact ⟨.text name, Value.key_eq_text.mpr named, .inr ⟨p, indexed, rfl⟩⟩

/-- The target of a reference is a section of the name in the tree of the indexed page. -/
theorem mem_preorder_of_refTarget (found : env.refTarget r = .ok (.found key target)) :
    ∃ name page, Entries.get? env.pages (slug name) = some page ∧ target ∈ page.preorder ∧
      target.isNamed r.sectionName ∧ key = s!"{slug name}#{r.sectionName.text}" := by
  obtain ⟨name, page, sections, -, indexed, parts, inside, rfl⟩ := refTarget_eq_found.mp found
  have first := (Node.findInChildren_eq_find? inside).symm
  refine ⟨name, page, indexed, ?_, List.find?_some first, rfl⟩
  cases page with
  | page p children =>
    cases parts
    exact List.mem_cons_of_mem _ (List.mem_of_find?_eq_some first)
  | sect | widget | ref | call | slot | cond | loop | frag | custom | stray => cases parts

end Env
end ViewCompiler
