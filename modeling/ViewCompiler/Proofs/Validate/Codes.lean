import ViewCompiler.Proofs.Diagnostic
import ViewCompiler.Proofs.Validate.Nodes

/-! The codes that each check uses. Checks that are put together use the codes of their parts, so
what is filtered by other codes leaves a check out. -/
namespace ViewCompiler

namespace Findings

def Reports (f : Findings) (codes : List Code) : Prop :=
  ∀ ds, f = .ok ds → ∀ d ∈ ds, ∃ code ∈ codes, d.code = .str code.name

variable {α : Type} {f g : Findings} {codes others : List Code} {code : Code} {h : Head}
  {severity : Severity} {message : String}

namespace Reports

theorem mono (reports : f.Reports codes) (part : codes ⊆ others) : f.Reports others := by
  intro ds found d member
  obtain ⟨code, inside, known⟩ := reports ds found d member
  exact ⟨code, part inside, known⟩

theorem none : Findings.none.Reports codes := by
  rintro _ ⟨⟩ _ ⟨⟩

theorem one (member : code ∈ codes) : (Findings.one severity h code message).Reports codes := by
  intro ds found d inside
  obtain ⟨place, -, rfl⟩ := one_eq_ok.mp found
  obtain rfl := List.mem_singleton.mp inside
  exact ⟨code, member, rfl⟩

theorem when {condition : Bool} (reports : f.Reports codes) :
    (Findings.when condition f).Reports codes := by
  intro ds found
  rcases when_eq_ok.mp found with ⟨-, found⟩ | ⟨-, rfl⟩
  · exact reports ds found
  · rintro _ ⟨⟩

theorem and (first : f.Reports codes) (second : g.Reports codes) : (f.and g).Reports codes := by
  intro ds found d member
  obtain ⟨front, back, one, other, rfl⟩ := and_eq_ok.mp found
  rcases List.mem_append.mp member with inside | inside
  · exact first front one d inside
  · exact second back other d inside

theorem bind {x : Except Fault α} {checks : α → Findings}
    (each : ∀ a, (checks a).Reports codes) : Findings.Reports (x >>= checks) codes := by
  intro ds found
  obtain ⟨a, -, found⟩ := Except.bind_eq_ok.mp found
  exact each a ds found

theorem all {fs : List Findings} (each : ∀ f ∈ fs, f.Reports codes) :
    (Findings.all fs).Reports codes := by
  induction fs with
  | nil => exact none
  | cons f fs ih =>
    obtain ⟨first, rest⟩ := List.forall_mem_cons.mp each
    exact first.and (ih rest)

/-- A check is passed over where none of its codes counts. -/
theorem filter_eq_nil (reports : f.Reports codes) (apart : ∀ code ∈ codes, code ∉ others)
    {ds : List Diagnostic} (found : f = .ok ds) : ds.filter (·.isAmong others) = [] := by
  refine List.filter_eq_nil_iff.mpr fun d member kept => ?_
  obtain ⟨code, inside, known⟩ := reports ds found d member
  exact apart code inside ((Diagnostic.isAmong_iff known).mp kept)

end Reports
end Findings

namespace Validate

variable {hasLoader : Bool} {w : Widget}

theorem reports_checkRequired (s : Schema) :
    (checkRequired s w).Reports [.missingRequiredProp] := by
  refine .all fun f member => ?_
  obtain ⟨prop, -, rfl⟩ := List.mem_map.mp member
  exact .bind fun _ => .when (.one (by simp))

theorem reports_checkAlternative : (checkAlternative w).Reports [.accessibilityWarning] := by
  rw [checkAlternative_eq]
  exact .bind fun _ => .when (.one (by simp))

theorem reports_checkLabel : (checkLabel w).Reports [.accessibilityWarning] := by
  rw [checkLabel_eq]
  exact .when (.bind fun _ => .when (.one (by simp)))

theorem reports_checkBinding : (checkBinding hasLoader w).Reports [.missingLoaderForBinding] := by
  unfold checkBinding
  split
  · exact .none
  · refine .when ?_
    split
    · exact .one (by simp)
    · rintro _ ⟨⟩

theorem reports_checkPage (p : Page) (sections : Children) :
    (checkPage p sections).Reports [.pageMissingName, .pageMissingRoute, .emptySections] := by
  rw [checkPage]
  simp only [Findings.all_cons, Findings.all_nil]
  exact .and (.when (.one (by simp))) (.and (.when (.one (by simp)))
    (.and (.when (.one (by simp))) .none))

/-- What is found on a widget besides its type. -/
theorem reports_remarks : Findings.Reports
    (Findings.all [checkAlternative w, checkLabel w, checkBinding hasLoader w])
    [.accessibilityWarning, .missingLoaderForBinding] := by
  simp only [Findings.all_cons, Findings.all_nil]
  exact .and (reports_checkAlternative.mono (by simp)) (.and (reports_checkLabel.mono (by simp))
    (.and (reports_checkBinding.mono (by simp)) .none))

end Validate
end ViewCompiler
