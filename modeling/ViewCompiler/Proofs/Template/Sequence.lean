import ViewCompiler.Node.Same
import ViewCompiler.Proofs.Template.Placeholders

/-! Templates filled twice. Filling with some arguments and then with others is filling with both at
once, the first over the second, as long as the first bring no placeholder with them that the second
fill. A walk over a whole template follows its widgets in this, down to the faults. -/
namespace ViewCompiler

section walk

open Node

variable {f g h : Node → Except Fault Node}

/-- What holds of a walk over widgets holds of a walk over trees. -/
theorem continues_walkWidgets
    (own : ∀ w, Continues (walkWidgets g) (walkWidgets f (.widget w)) (walkWidgets h (.widget w)))
    (n : Node) : Continues (walkWidgets g) (walkWidgets f n) (walkWidgets h n) := by
  induction n using Node.induction with
  | _ n ih =>
  cases n with
  | widget w => exact own w
  | ref | call | slot => exact .ok rfl
  | page | custom | stray => exact .error
  | sect s children | frag s children =>
    refine (continues_children ih).map fun next => ?_
    rw [walkWidgets, walkChild, next]
    rfl
  | loop l template =>
    refine (ih template (List.mem_singleton.mpr rfl)).map fun {m _} next => ?_
    have next : walkChild (.only .widget g) m = .ok _ := next
    rw [walkWidgets, walkChild, next]
    rfl
  | cond c body otherwise =>
    refine (continues_children fun m member => ih m (List.mem_append_left _ member)).both
      (continues_otherwise fun m member => ih m (List.mem_append_right _ member))
      fun next last => ?_
    rw [walkWidgets, walkChild, next, Except.ok_bind, last]
    rfl

end walk

section filling

variable {first second : Fields}

/-- No argument of the first is a placeholder that the second have an argument for. -/
def Apart (first second : Fields) : Prop :=
  ∀ v ∈ Entries.values first, ∀ name, v = .str ("$" ++ name) → name ∉ Entries.keys second

theorem apart_iff : Apart first second ↔ ∀ v ∈ Entries.values first, ∀ name ∈ placeholder? v,
    name ∉ Entries.keys second := by
  simp only [Apart, Option.mem_def, placeholder?_eq_some]

instance : Decidable (Apart first second) := decidable_of_iff _ apart_iff.symm

theorem fill_fill (distinct : (Entries.keys first).Nodup) (apart : Apart first second) (v : Value) :
    fill second (fill first v) = fill (Entries.merge second first) v := by
  obtain ⟨name, rfl, known⟩ | ⟨free, stays⟩ := fill_cases first v
  · have given : fill first (.str ("$" ++ name)) ∈ Entries.values first :=
      List.mem_map_of_mem (Entries.mem_of_get? known)
    rw [fill_of_free fun other same => Entries.get?_eq_none (apart _ given other same)]
    rw [fill_placeholder (Entries.merge second first), Entries.get?_merge distinct, known]
    rfl
  · rw [stays]
    cases asked : placeholder? v with
    | none => rw [fill, fill, asked]
    | some name =>
      obtain rfl := placeholder?_eq_some.mp asked
      rw [fill_placeholder, fill_placeholder, Entries.get?_merge distinct, free name rfl]
      rfl

theorem fillProps_fillProps (distinct : (Entries.keys first).Nodup) (apart : Apart first second)
    (props : Fields) :
    fillProps second (fillProps first props) = fillProps (Entries.merge second first) props := by
  simp only [fillProps, List.map_map, Function.comp_def, fill_fill distinct apart]

namespace Widget

/-- A widget that has no props to fill, or a plain value for a binding, is refused both times. -/
theorem continues_fill (distinct : (Entries.keys first).Nodup) (apart : Apart first second)
    (w : Widget) :
    Continues (·.fill second) (w.fill first) (w.fill (Entries.merge second first)) := by
  cases mapping : w.props with
  | dict props =>
    cases source : w.source with
    | proper binding =>
      rw [fill_of_bound mapping source, fill_of_bound mapping source]
      refine .ok ?_
      rw [fill_rebind, fillProps_fillProps distinct apart, fill_fill distinct apart]
    | stray v =>
      cases v with
      | null =>
        rw [fill_of_unbound mapping source, fill_of_unbound mapping source]
        have again : Widget.fill second { w with props := .dict (fillProps first props) } = _ :=
          fill_of_unbound rfl source
        rw [fillProps_fillProps distinct apart] at again
        exact .ok again
      | bool | int | float | str | list | dict =>
        rw [Widget.fill, Widget.fill, mapping, source]
        exact .error
  | null | bool | int | float | str | list =>
    rw [Widget.fill, Widget.fill, mapping]
    exact .error

end Widget

namespace Node

/-- Filling twice is filling once, with the first arguments written over the second, and fails when that
does; filling again with arguments that bring no placeholder of their own changes nothing; and a
template of fillable nodes is filled by whatever arguments. -/
theorem substitute_substitute (distinct : (Entries.keys first).Nodup) (template : Node) :
    (∀ second, Apart first second → (template.substitute first >>= (·.substitute second)) =
      template.substitute (Entries.merge second first)) ∧
    (Apart first first →
      (template.substitute first >>= (·.substitute first)) = template.substitute first) ∧
    (template.All (·.isFillable) → ∀ args, ∃ filled, template.substitute args = .ok filled) := by
  have sequence (second : Fields) (apart : Apart first second) :
      (template.substitute first >>= (·.substitute second)) =
        template.substitute (Entries.merge second first) := by
    refine (continues_walkWidgets (fun w => ?_) template).bind_eq
    refine (Widget.continues_fill distinct apart w).map fun next => ?_
    exact Except.map_eq_ok.mpr ⟨_, next, rfl⟩
  refine ⟨sequence, fun apart => ?_, fun fillable args => exists_substitute args fillable⟩
  rw [sequence first apart, Entries.merge_self distinct]

def listingTemplate : Node := .sect { name := .str "$title" } (.proper [
  .widget {
    type := .str "table"
    source := .proper { path := .str "$rows", entityType := .str "Row" }
    props := .dict [("source", .str "$title"), ("title", .str "$title")] },
  .cond { condition := .str "many" } (.proper [
    .widget {
      type := .str "total"
      source := .proper { path := .str "$path", fieldType := .str "number" }
      props := .dict [("label", .str "$label"), ("hint", .str "$hint")] }]) .null])

/-- Rows that are no path, and a title that is a placeholder for which there is no argument. -/
def listingRows : Fields := [("rows", .list [.str "$title"]), ("title", .str "$hint")]

def listingPaths : Fields := [("rows", .str "rows"), ("path", .str "sum"), ("label", .str "Total")]

def listing : Node := .sect { name := .str "$title" } (.proper [
  .widget {
    type := .str "table"
    props := .dict [("source", .list [.str "$title"]), ("title", .str "$hint")] },
  .cond { condition := .str "many" } (.proper [
    .widget {
      type := .str "total"
      source := .proper { path := .str "sum", fieldType := .str "number" }
      props := .dict [("label", .str "Total"), ("hint", .str "$hint")] }]) .null])

theorem substitute_substitute_listing :
    (Entries.keys listingRows).Nodup ∧ Apart listingRows listingPaths ∧ Apart listingRows listingRows ∧
    listingTemplate.All (·.isFillable) ∧ ∃ filled, filled.same listing ∧
      (listingTemplate.substitute listingRows >>= (·.substitute listingPaths)) = .ok filled ∧
      (filled.substitute listingRows >>= (·.substitute listingRows)) =
        filled.substitute listingRows := by
  have distinct : (Entries.keys listingRows).Nodup := by decide
  have apart : Apart listingRows listingPaths := by decide +kernel
  have closed : Apart listingRows listingRows := by decide +kernel
  have fillable : listingTemplate.All (·.isFillable) :=
    List.all_eq_true.mp (by decide : listingTemplate.preorder.all (·.isFillable) = true)
  refine ⟨distinct, apart, closed, fillable, ?_⟩
  obtain ⟨sequence, -, total⟩ := substitute_substitute distinct listingTemplate
  obtain ⟨filled, done⟩ := total fillable (Entries.merge listingPaths listingRows)
  refine ⟨filled, ?_, (sequence listingPaths apart).trans done,
    (substitute_substitute distinct filled).2.1 closed⟩
  have known : (listingTemplate.substitute (Entries.merge listingPaths listingRows)).toOption.map
      (·.same listing) = some true := by
    decide +kernel
  rw [done] at known
  exact Option.some.inj known

end Node

end filling

end ViewCompiler
