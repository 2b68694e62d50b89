import ViewCompiler.Proofs.Resolve.Totality
import ViewCompiler.Proofs.Validate.Nodes

/-! Validation never fails on well-formed trees: every node has a place to point to, and every value
that a check looks into has the form that it should have. -/
namespace ViewCompiler

namespace Findings

def Succeeds (f : Findings) : Prop := ∃ ds, f = .ok ds

variable {α : Type} {f g : Findings} {h : Head}

namespace Succeeds

theorem none : Findings.none.Succeeds := ⟨[], rfl⟩

theorem one {severity : Severity} {code : Code} {message : String} (placed : h.Placed) :
    (Findings.one severity h code message).Succeeds := by
  obtain ⟨place, placed⟩ := placed
  exact ⟨_, one_eq_ok.mpr ⟨place, placed, rfl⟩⟩

theorem when {condition : Bool} (succeeds : f.Succeeds) : (Findings.when condition f).Succeeds := by
  cases condition with
  | true => exact succeeds
  | false => exact none

theorem and (first : f.Succeeds) (second : g.Succeeds) : (f.and g).Succeeds := by
  obtain ⟨ds, one⟩ := first
  obtain ⟨es, other⟩ := second
  exact ⟨_, and_eq_ok.mpr ⟨ds, es, one, other, rfl⟩⟩

theorem bind {x : Except Fault α} {checks : α → Findings} {a : α} (known : x = .ok a)
    (succeeds : (checks a).Succeeds) : Findings.Succeeds (x >>= checks) := by
  rw [known]
  exact succeeds

theorem all {as : List α} {checks : α → Findings} (each : ∀ a ∈ as, (checks a).Succeeds) :
    (Findings.all (as.map checks)).Succeeds := by
  induction as with
  | nil => exact none
  | cons a as ih =>
    exact (each a (by simp)).and (ih fun b member => each b (by simp [member]))

end Succeeds
end Findings

namespace Validate

variable {registry : Registry} {hasLoader : Bool} {w : Widget} {n : Node}

section widgets

variable (sound : (Node.widget w).isSound)
include sound

theorem placed_of_isSound : w.toHead.Placed :=
  Head.placed_of_isPlaced (Node.isSound_widget.mp sound).1

theorem exists_props_of_isSound : ∃ fs, w.props = .dict fs :=
  Value.exists_of_isDict (Node.isSound_widget.mp sound).2.2.1

theorem exists_label_of_isSound : ∃ labelled, hasLabel w = .ok labelled := by
  obtain ⟨fs, props⟩ := exists_props_of_isSound sound
  exact ⟨_, by rw [hasLabel, props]; rfl⟩

theorem succeeds_checkRequired (s : Schema) : (checkRequired s w).Succeeds := by
  obtain ⟨fs, props⟩ := exists_props_of_isSound sound
  refine .all fun prop _ => ?_
  rw [lacks, props]
  exact .when (.one (placed_of_isSound sound))

theorem succeeds_checkType : (checkType registry w).Succeeds := by
  obtain ⟨-, text, -, -⟩ := Node.isSound_widget.mp sound
  obtain ⟨name, text⟩ := Value.exists_of_isStr text
  rw [checkType, Registry.get, Value.key_eq_text.mpr text]
  simp only [Except.ok_bind, pure_bind]
  cases registry.table.get? (.text name) with
  | none => exact .one (placed_of_isSound sound)
  | some s => exact succeeds_checkRequired sound s

theorem succeeds_checkAlternative : (checkAlternative w).Succeeds := by
  obtain ⟨fs, props⟩ := exists_props_of_isSound sound
  obtain ⟨described, known⟩ : ∃ described, isDescribed w = .ok described := by
    rw [isDescribed, hasLabel, props, Value.contains, Except.ok_bind]
    cases Entries.has fs "alt" <;> exact ⟨_, rfl⟩
  rw [checkAlternative_eq]
  exact .bind known (.when (.one (placed_of_isSound sound)))

theorem succeeds_checkLabel : (checkLabel w).Succeeds := by
  obtain ⟨fs, props⟩ := exists_props_of_isSound sound
  obtain ⟨labelled, known⟩ : ∃ labelled, isLabelled w = .ok labelled := by
    obtain ⟨named, label⟩ := exists_label_of_isSound sound
    rw [isLabelled, label, props, Except.ok_bind]
    cases named <;> exact ⟨_, rfl⟩
  rw [checkLabel_eq]
  exact .when (.bind known (.when (.one (placed_of_isSound sound))))

theorem succeeds_checkBinding : (checkBinding hasLoader w).Succeeds := by
  obtain ⟨-, -, -, null | proper⟩ := Node.isSound_widget.mp sound
  · rw [checkBinding, Loose.eq_null_of_isNull null]
    exact .none
  · cases known : w.source with
    | proper binding =>
      rw [checkBinding, known]
      exact .when (.one (placed_of_isSound sound))
    | stray v =>
      rw [known] at proper
      cases proper

end widgets

theorem succeeds_checkOwn (sound : n.isSound) : (checkOwn registry hasLoader n).Succeeds := by
  cases n with
  | widget w =>
    rw [checkOwn, checkWidget]
    exact (succeeds_checkType sound).and ((succeeds_checkAlternative sound).and
      ((succeeds_checkLabel sound).and ((succeeds_checkBinding sound).and .none)))
  | ref r => exact .one (Head.placed_of_isPlaced (Node.isSound_ref.mp sound).1)
  | call c => exact .one (Head.placed_of_isPlaced (Node.isSound_call.mp sound).1)
  | page | sect | slot | cond | loop | frag | custom | stray => exact .none

theorem isSound_of_mem_preorder (formed : n.wellFormed) : ∀ m ∈ n.preorder, m.isSound := by
  intro m member
  exact (Node.wellFormed_iff.mp (Node.wellFormed_of_mem_preorder formed member)).1

/-- A well-formed tree is checked. -/
theorem succeeds_checkNode (formed : n.wellFormed) : (checkNode registry hasLoader n).Succeeds := by
  have sound := isSound_of_mem_preorder formed
  rw [checkNode_eq_all_preorder fun m inside =>
    checkable_of_isRegular (Node.isRegular_of_isSound (sound m inside))]
  exact .all fun m inside => succeeds_checkOwn (sound m inside)

end Validate

/-- A page with a place and well-formed children is validated. -/
theorem validate_total (registry : Registry) {p : Page} {ns : List Node}
    (placed : p.toHead.Placed) (formed : ∀ n ∈ ns, n.wellFormed) :
    ∃ ds, validate registry (.page p (.proper ns)) = .ok ds := by
  rw [validate, Validate.checkChildren_eq (Loose.passable_proper ns)]
  have own : (Validate.checkPage p (.proper ns)).Succeeds :=
    .and (.when (.one placed)) (.and (.when (.one placed)) (.and (.when (.one placed)) .none))
  exact own.and (.all fun n member => Validate.succeeds_checkNode (formed n member))

end ViewCompiler
