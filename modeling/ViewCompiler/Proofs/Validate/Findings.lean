import ViewCompiler.Proofs.Trace.Success
import ViewCompiler.Validate

/-! Findings of several checks. They are appended in order, the first fault wins, and checks may be
grouped in any way. A check that only warns leaves nothing that fails a build. -/
namespace ViewCompiler.Findings

variable {f g : Findings} {fs : List Findings} {ds : List Diagnostic}

theorem and_eq_ok :
    f.and g = .ok ds ↔ ∃ first second, f = .ok first ∧ g = .ok second ∧ ds = first ++ second := by
  simp only [and, Except.bind_eq_ok, Except.pure_eq_ok, @eq_comm _ ds]
  constructor
  · rintro ⟨first, one, second, other, same⟩
    exact ⟨first, second, one, other, same⟩
  · rintro ⟨first, second, one, other, same⟩
    exact ⟨first, one, second, other, same⟩

theorem none_and (f : Findings) : none.and f = f := by
  cases f <;> rfl

theorem and_none (f : Findings) : f.and none = f := by
  cases f with
  | error fault => rfl
  | ok ds => exact congrArg Except.ok (List.append_nil ds)

theorem and_assoc (f g h : Findings) : (f.and g).and h = f.and (g.and h) := by
  cases f with
  | error fault => rfl
  | ok ds =>
    cases g with
    | error fault => rfl
    | ok es =>
      cases h with
      | error fault => rfl
      | ok gs => exact congrArg Except.ok (List.append_assoc ds es gs)

@[simp] theorem all_nil : all [] = none := rfl

@[simp] theorem all_cons (f : Findings) (fs : List Findings) : all (f :: fs) = f.and (all fs) := rfl

theorem all_append (fs gs : List Findings) : all (fs ++ gs) = (all fs).and (all gs) := by
  induction fs with
  | nil => exact (none_and _).symm
  | cons f fs ih => rw [List.cons_append, all_cons, all_cons, ih, and_assoc]

/-- Checks may be made group by group. -/
theorem all_flatMap {α : Type} (as : List α) (checks : α → List Findings) :
    all (as.flatMap checks) = all (as.map fun a => all (checks a)) := by
  induction as with
  | nil => rfl
  | cons a as ih => rw [List.flatMap_cons, all_append, List.map_cons, all_cons, ih]

theorem all_eq_ok :
    all fs = .ok ds ↔ ∃ dss, List.Forall₂ (fun f ds => f = .ok ds) fs dss ∧ ds = dss.flatten := by
  induction fs generalizing ds with
  | nil =>
    constructor
    · intro done
      cases done
      exact ⟨[], .nil, rfl⟩
    · rintro ⟨_, ⟨⟩, rfl⟩
      rfl
  | cons f fs ih =>
    simp only [all_cons, and_eq_ok, ih]
    constructor
    · rintro ⟨first, _, one, ⟨dss, rest, rfl⟩, rfl⟩
      exact ⟨first :: dss, .cons one rest, rfl⟩
    · rintro ⟨_, _ | ⟨one, rest⟩, rfl⟩
      exact ⟨_, _, one, ⟨_, rest, rfl⟩, rfl⟩

/-- Where a check finds nothing on all that is left out, only the rest is to be checked. -/
theorem all_map_filter {α : Type} {as : List α} {checks : α → Findings} {picked : α → Bool}
    (silent : ∀ a ∈ as, picked a = false → checks a = none) :
    all (as.map checks) = all ((as.filter picked).map checks) := by
  induction as with
  | nil => rfl
  | cons a as ih =>
    obtain ⟨first, rest⟩ := List.forall_mem_cons.mp silent
    rw [List.map_cons, all_cons, ih rest]
    cases own : picked a with
    | true => rw [List.filter_cons_of_pos own, List.map_cons, all_cons]
    | false => rw [List.filter_cons_of_neg (by simp [own]), first own, none_and]

/-- Checks that find one thing each, or nothing, find what is picked. -/
theorem all_map_eq_filter {α : Type} {as : List α} {checks : α → Findings} {picked : α → Bool}
    {finding : α → Diagnostic}
    (each : ∀ a ∈ as, checks a = .ok (if picked a then [finding a] else [])) :
    all (as.map checks) = .ok ((as.filter picked).map finding) := by
  induction as with
  | nil => rfl
  | cons a as ih =>
    obtain ⟨first, rest⟩ := List.forall_mem_cons.mp each
    rw [List.map_cons, all_cons, first, ih rest]
    by_cases own : picked a <;> simp [own] <;> rfl

theorem one_eq_ok {severity : Severity} {h : Head} {code : Code} {message : String} :
    one severity h code message = .ok ds ↔
      ∃ place, h.place = .ok place ∧ ds = [Diagnostic.make severity code message place] := by
  simp only [one, Except.bind_eq_ok, Except.pure_eq_ok, @eq_comm _ ds]

theorem when_eq_ok {condition : Bool} :
    when condition f = .ok ds ↔
      (condition = true ∧ f = .ok ds) ∨ (condition = false ∧ ds = []) := by
  cases condition <;> simp [when, none, eq_comm]

end ViewCompiler.Findings
