import ViewCompiler.Proofs.Diagnostic
import ViewCompiler.Proofs.Node.Pending
import ViewCompiler.Proofs.Validate.Nodes

/-! What a check decides: none of its findings fails a build exactly if some condition holds.
Conditions are put together as checks are, and warnings decide nothing. -/
namespace ViewCompiler

def Harmless (ds : List Diagnostic) : Prop := ∀ d ∈ ds, d.isOf .error = false

namespace Harmless

variable {α : Type} {ds es : List Diagnostic}

@[simp] theorem nil : Harmless [] := fun _ absurd => by cases absurd

@[simp] theorem append : Harmless (ds ++ es) ↔ Harmless ds ∧ Harmless es := List.forall_mem_append

theorem flatMap {as : List α} {f : α → List Diagnostic} :
    Harmless (as.flatMap f) ↔ ∀ a ∈ as, Harmless (f a) := List.forall_mem_flatMap

theorem singleton {severity : Severity} {code : Code} {message : String} {place : Location} :
    Harmless [Diagnostic.make severity code message place] ↔ severity ≠ .error := by
  simp only [Harmless, List.forall_mem_singleton]
  rw [← Bool.not_eq_true, Diagnostic.isOf_make]

end Harmless

namespace Findings

/-- Where the check has an outcome, it has no error exactly if the condition holds. -/
def Decides (f : Findings) (P : Prop) : Prop := ∀ ds, f = .ok ds → (Harmless ds ↔ P)

variable {α : Type} {f g : Findings} {P Q : Prop} {h : Head} {code : Code} {message : String}

namespace Decides

theorem congr (decides : f.Decides P) (same : P ↔ Q) : f.Decides Q :=
  fun ds found => (decides ds found).trans same

theorem none : Findings.none.Decides True := by
  rintro _ ⟨⟩
  exact iff_true_intro .nil

theorem error : (Findings.one .error h code message).Decides False := by
  intro ds found
  obtain ⟨place, -, rfl⟩ := one_eq_ok.mp found
  simp [Harmless.singleton]

/-- What is no error decides nothing. -/
theorem remark {severity : Severity} (mild : severity ≠ .error) :
    (Findings.one severity h code message).Decides True := by
  intro ds found
  obtain ⟨place, -, rfl⟩ := one_eq_ok.mp found
  simp [Harmless.singleton, mild]

theorem when {condition : Bool} (decides : f.Decides P) :
    (Findings.when condition f).Decides (condition → P) := by
  intro ds found
  rcases when_eq_ok.mp found with ⟨rfl, found⟩ | ⟨rfl, rfl⟩
  · simpa using decides ds found
  · simp

theorem whenTrue {condition : Bool} (decides : f.Decides True) :
    (Findings.when condition f).Decides True :=
  decides.when.congr (by simp)

theorem and (first : f.Decides P) (second : g.Decides Q) : (f.and g).Decides (P ∧ Q) := by
  intro ds found
  obtain ⟨ds, es, one, other, rfl⟩ := and_eq_ok.mp found
  rw [Harmless.append, first ds one, second es other]

theorem bind {x : Except Fault α} {checks : α → Findings}
    (each : ∀ a, x = .ok a → (checks a).Decides P) : Findings.Decides (x >>= checks) P := by
  intro ds found
  obtain ⟨a, known, found⟩ := Except.bind_eq_ok.mp found
  exact each a known ds found

theorem all {as : List α} {checks : α → Findings} {P : α → Prop}
    (each : ∀ a ∈ as, (checks a).Decides (P a)) :
    (Findings.all (as.map checks)).Decides (∀ a ∈ as, P a) := by
  induction as with
  | nil => exact none.congr (by simp)
  | cons a as ih =>
    have rest := ih fun b member => each b (by simp [member])
    exact ((each a (by simp)).and rest).congr List.forall_mem_cons.symm

end Decides
end Findings

/-- The type of the widget is registered and its required props are set; bound data counts as the
source. -/
def Registry.Accepts (registry : Registry) (w : Widget) : Prop :=
  ∃ s, registry.get w.type = .ok (some s) ∧ ∀ prop ∈ s.requiredProps,
    w.props.contains prop = .ok true ∨ (prop = "source" ∧ w.source.isNull = false)

namespace Validate

variable {registry : Registry} {hasLoader : Bool} {w : Widget}

/-- What stands in a valid tree: no reference, no call, and no widget but those that are
accepted. -/
def Fits (registry : Registry) (n : Node) : Prop :=
  n.isPending = false ∧ ∀ w, n = .widget w → registry.Accepts w

theorem lacks_eq_ok {prop : String} {lacking : Bool} (looked : lacks w prop = .ok lacking) :
    lacking = false ↔
      w.props.contains prop = .ok true ∨ (prop = "source" ∧ w.source.isNull = false) := by
  obtain ⟨present, found, known⟩ := Except.bind_eq_ok.mp looked
  obtain rfl := Except.pure_eq_ok.mp known
  cases present <;> simp [found]

theorem decides_checkRequired (s : Schema) : (checkRequired s w).Decides (∀ prop ∈ s.requiredProps,
    w.props.contains prop = .ok true ∨ (prop = "source" ∧ w.source.isNull = false)) := by
  refine .all fun prop _ => .bind fun lacking looked => ?_
  refine (Findings.Decides.when .error).congr ?_
  rw [← lacks_eq_ok looked]
  simp

theorem decides_checkType : (checkType registry w).Decides (registry.Accepts w) := by
  refine .bind fun s? found => ?_
  cases s? with
  | none => exact Findings.Decides.error.congr (by simp [Registry.Accepts, found])
  | some s => exact (decides_checkRequired s).congr (by simp [Registry.Accepts, found])

theorem decides_checkAlternative : (checkAlternative w).Decides True := by
  rw [checkAlternative_eq]
  exact .bind fun described _ => .whenTrue (.remark (by decide))

theorem decides_checkLabel : (checkLabel w).Decides True := by
  rw [checkLabel_eq]
  exact .whenTrue (.bind fun labelled _ => .whenTrue (.remark (by decide)))

theorem decides_checkBinding : (checkBinding hasLoader w).Decides True := by
  unfold checkBinding
  split
  · exact .none
  · refine .whenTrue ?_
    split
    · exact .remark (by decide)
    · rintro _ ⟨⟩

theorem decides_checkWidget : (checkWidget registry hasLoader w).Decides (registry.Accepts w) := by
  rw [checkWidget]
  simp only [Findings.all_cons, Findings.all_nil]
  refine (decides_checkType.and (decides_checkAlternative.and (decides_checkLabel.and
    (decides_checkBinding.and .none)))).congr ?_
  simp

theorem decides_checkOwn (n : Node) :
    (checkOwn registry hasLoader n).Decides (Fits registry n) := by
  cases n with
  | widget w => exact decides_checkWidget.congr (by simp [Fits, Node.isPending])
  | ref | call => exact Findings.Decides.error.congr (by simp [Fits])
  | page | sect | slot | cond | loop | frag | custom | stray =>
    exact Findings.Decides.none.congr (by simp [Fits, Node.isPending])

/-- A tree is without errors exactly if every node of it fits. -/
theorem decides_checkChildren (children : Children) :
    (checkChildren registry hasLoader children).Decides
      (∀ n ∈ children.nodes.flatMap Node.preorder, Fits registry n) := by
  intro ds found
  exact Findings.Decides.all (fun n _ => decides_checkOwn n) ds (all_of_checkChildren found)

theorem decides_checkPage (p : Page) (sections : Children) :
    (checkPage p sections).Decides (p.name.truthy ∧ p.route.truthy) := by
  rw [checkPage]
  simp only [Findings.all_cons, Findings.all_nil]
  refine ((Findings.Decides.when .error).and ((Findings.Decides.when .error).and
    ((Findings.Decides.whenTrue (.remark (by decide))).and .none))).congr ?_
  simp

end Validate

/-- A page is valid exactly if it has a name and a route and every node of its tree fits. -/
theorem decides_validate {registry : Registry} (p : Page) (sections : Children) :
    (validate registry (.page p sections)).Decides (p.name.truthy ∧ p.route.truthy ∧
      ∀ n ∈ (Node.page p sections).preorder, Validate.Fits registry n) := by
  have own := Validate.decides_checkPage p sections
  refine (own.and (Validate.decides_checkChildren sections)).congr ?_
  have root : Validate.Fits registry (.page p sections) := ⟨rfl, fun w absurd => by cases absurd⟩
  rw [Node.preorder_eq, List.forall_mem_cons, and_assoc, and_iff_right root]
  rfl

end ViewCompiler
