import ViewCompiler.Proofs.Entries
import ViewCompiler.Proofs.Node.WellFormed

/-! Placeholders filled in. A value that is a dollar sign and a name gives way to the argument of that
name, in the props of a widget and in the path of its binding. Which arguments there are has no say in
whether a widget or a tree can be filled, and a well-formed tree stays well-formed. -/
namespace ViewCompiler

variable {args props : Fields} {v : Value} {name : String} {w filled : Widget} {binding : Binding}

theorem placeholder?_eq_some : placeholder? v = some name ↔ v = .str ("$" ++ name) := by
  cases v with
  | str s =>
    rw [placeholder?, Value.str.injEq, ← String.toList_inj, String.toList_append]
    split
    · next cs split =>
      rw [split, Option.some.injEq, ← String.toList_inj, String.toList_ofList]
      exact (List.cons_inj_right '$').symm
    · next other =>
      constructor
      · intro asked
        cases asked
      · intro same
        exact absurd same (other _)
  | null | bool | int | float | list | dict => simp [placeholder?]

theorem fill_placeholder (args : Fields) (name : String) :
    fill args (.str ("$" ++ name)) = (args.get? name).getD (.str ("$" ++ name)) := by
  rw [fill, placeholder?_eq_some.mpr rfl]

theorem fill_of_free (free : ∀ name, v = .str ("$" ++ name) → args.get? name = none) :
    fill args v = v := by
  cases asked : placeholder? v with
  | none => rw [fill, asked]
  | some name =>
    obtain rfl := placeholder?_eq_some.mp asked
    rw [fill_placeholder, free name rfl]
    rfl

/-- A value is filled with an argument, or it stays. -/
theorem fill_cases (args : Fields) (v : Value) :
    (∃ name, v = .str ("$" ++ name) ∧ args.get? name = some (fill args v)) ∨
      ((∀ name, v = .str ("$" ++ name) → args.get? name = none) ∧ fill args v = v) := by
  by_cases free : ∀ name, v = .str ("$" ++ name) → args.get? name = none
  · exact .inr ⟨free, fill_of_free free⟩
  · push Not at free
    obtain ⟨name, rfl, given⟩ := free
    obtain ⟨u, known⟩ := Option.ne_none_iff_exists'.mp given
    exact .inl ⟨name, rfl, by rw [fill_placeholder, known]; rfl⟩

/-- Only a text is a placeholder. -/
theorem fill_of_not_isStr (args : Fields) (other : ¬ v.isStr) : fill args v = v :=
  fill_of_free fun name same => by
    rw [same] at other
    exact absurd rfl other

theorem get?_fillProps (args props : Fields) (key : String) :
    Entries.get? (fillProps args props) key = (Entries.get? props key).map (fill args) :=
  Entries.get?_mapValues (fun _ => fill args) props key

theorem put_fillProps (args props : Fields) (key : String) (v : Value) :
    Entries.put (fillProps args props) key (fill args v) =
      fillProps args (Entries.put props key v) :=
  Entries.put_mapValues (fun _ => fill args) props key v

namespace Widget

/-- The widget with what came in the place of its path: a text is the path of its binding, and all else
the source among its props. -/
def rebind (w : Widget) (binding : Binding) (props : Fields) : Value → Widget
  | .str path =>
    { w with source := .proper { binding with path := .str path }, props := .dict props }
  | v => { w with source := .null, props := .dict (Entries.put props "source" v) }

theorem rebind_of_not_isStr (other : ¬ v.isStr) : w.rebind binding props v =
    { w with source := .null, props := .dict (Entries.put props "source" v) } := by
  cases v with
  | str => exact absurd rfl other
  | null | bool | int | float | list | dict => rfl

theorem fill_of_unbound (mapping : w.props = .dict props) (source : w.source = .null) :
    w.fill args = .ok { w with props := .dict (fillProps args props) } := by
  rw [Widget.fill, mapping, source]
  rfl

theorem fill_of_bound (mapping : w.props = .dict props) (source : w.source = .proper binding) :
    w.fill args =
      .ok (w.rebind binding (fillProps args props) (ViewCompiler.fill args binding.path)) := by
  rw [Widget.fill, mapping, source]
  simp only [Value.fields, Except.ok_bind]
  cases ViewCompiler.fill args binding.path <;> rfl

/-- What came in the place of a path is filled where it went: a text as the path of a binding again, all
else as the source among the props. -/
theorem fill_rebind (w : Widget) (binding : Binding) (args props : Fields) (v : Value) :
    (w.rebind binding props v).fill args =
      .ok (w.rebind binding (fillProps args props) (ViewCompiler.fill args v)) := by
  by_cases text : v.isStr
  · obtain ⟨path, rfl⟩ := Value.exists_of_isStr text
    rw [rebind, fill_of_bound rfl rfl]
    cases ViewCompiler.fill args (.str path) <;> rfl
  · rw [fill_of_not_isStr args text, rebind_of_not_isStr text, rebind_of_not_isStr text,
      fill_of_unbound rfl rfl, ← put_fillProps, fill_of_not_isStr args text]

/-- A widget can be filled if its props are a dictionary, and it has a binding or none. -/
theorem fill_eq_ok : w.fill args = .ok filled ↔ ∃ props, w.props = .dict props ∧
    ((w.source = .null ∧ filled = { w with props := .dict (fillProps args props) }) ∨
      ∃ binding, w.source = .proper binding ∧
        filled = w.rebind binding (fillProps args props) (ViewCompiler.fill args binding.path)) := by
  constructor
  · intro done
    cases mapping : w.props with
    | dict props =>
      refine ⟨props, rfl, ?_⟩
      cases source : w.source with
      | proper binding =>
        rw [fill_of_bound mapping source, Except.ok.injEq] at done
        exact .inr ⟨binding, rfl, done.symm⟩
      | stray v =>
        cases v with
        | null =>
          rw [fill_of_unbound mapping source, source, Except.ok.injEq] at done
          exact .inl ⟨rfl, done.symm⟩
        | bool | int | float | str | list | dict =>
          rw [Widget.fill, mapping, source] at done
          cases done
    | null | bool | int | float | str | list =>
      rw [Widget.fill, mapping] at done
      cases done
  · rintro ⟨props, mapping, ⟨source, rfl⟩ | ⟨binding, source, rfl⟩⟩
    · exact fill_of_unbound mapping source
    · exact fill_of_bound mapping source

end Widget

namespace Node

/-- A regular node; if it is a widget, its props are a dictionary, and it has a binding or none. -/
def isFillable : Node → Bool
  | .widget w => w.props.isDict && (w.source.isNull || w.source.isProper)
  | n => n.isRegular

theorem passable_of_isFillable {n : Node} (fillable : n.isFillable) : n.Passable := by
  cases n with
  | widget w => trivial
  | page | sect | ref | call | slot | cond | loop | frag | custom | stray =>
    exact passable_of_isRegular fillable

theorem exists_fill (args : Fields) (fillable : (Node.widget w).isFillable) :
    ∃ filled, w.fill args = .ok filled := by
  simp only [isFillable, Bool.and_eq_true, Bool.or_eq_true] at fillable
  obtain ⟨mapping, form⟩ := fillable
  obtain ⟨props, mapping⟩ := Value.exists_of_isDict mapping
  rcases form with null | proper
  · exact ⟨_, Widget.fill_of_unbound mapping (Loose.eq_null_of_isNull null)⟩
  · obtain ⟨binding, source⟩ := exists_of_isProper proper
    exact ⟨_, Widget.fill_of_bound mapping source⟩

/-- A tree of fillable nodes can be filled with whatever arguments. -/
theorem exists_substitute {template : Node} (args : Fields)
    (fillable : template.All (·.isFillable)) : ∃ filled, template.substitute args = .ok filled := by
  induction template using induction with
  | _ n ih =>
  obtain ⟨own, parts⟩ := all_iff.mp fillable
  by_cases container : n.isContainer
  · obtain ⟨ms, pairs⟩ := exists_forall₂ fun m member => ih m member (parts m member)
    exact ⟨n.withSubtrees ms, (walkWidgets_container_eq_ok container).mpr
      ⟨passable_of_isFillable own, ms, Except.mapM_eq_ok.mpr pairs, rfl⟩⟩
  · cases n with
    | ref | call | slot => exact ⟨_, rfl⟩
    | widget w =>
      obtain ⟨v, filled⟩ := exists_fill args own
      exact ⟨.widget v, Except.map_eq_ok.mpr ⟨v, filled, rfl⟩⟩
    | page | custom | stray => cases own
    | sect | frag | cond | loop => exact absurd rfl container

section sound

variable {n template filled : Node}

theorem isFillable_of_isSound (sound : n.isSound) : n.isFillable := by
  cases n with
  | widget w =>
    obtain ⟨-, -, mapping, form⟩ := isSound_widget.mp sound
    exact Bool.and_eq_true_iff.mpr ⟨mapping, Bool.or_eq_true_iff.mpr form⟩
  | page | sect | ref | call | slot | cond | loop | frag | custom | stray =>
    exact isRegular_of_isSound sound

theorem isSound_fill {w v : Widget} (filled : w.fill args = .ok v) (sound : (widget w).isSound) :
    (widget v).isSound := by
  obtain ⟨placed, named, -, form⟩ := isSound_widget.mp sound
  obtain ⟨props, -, ⟨-, rfl⟩ | ⟨binding, -, rfl⟩⟩ := Widget.fill_eq_ok.mp filled
  · exact isSound_widget.mpr ⟨placed, named, rfl, form⟩
  · by_cases text : (fill args binding.path).isStr
    · obtain ⟨path, same⟩ := Value.exists_of_isStr text
      rw [same]
      exact isSound_widget.mpr ⟨placed, named, rfl, .inr rfl⟩
    · rw [Widget.rebind_of_not_isStr text]
      exact isSound_widget.mpr ⟨placed, named, rfl, .inl rfl⟩

theorem wellFormed_of_substitute (walked : template.substitute args = .ok filled)
    (formed : template.wellFormed) : filled.wellFormed := by
  induction template using induction generalizing filled with
  | _ n ih =>
  obtain ⟨sound, parts⟩ := wellFormed_iff.mp formed
  by_cases container : n.isContainer
  · obtain ⟨-, ms, pairs, rfl⟩ := forall₂_of_walkWidgets container walked
    refine wellFormed_withSubtrees container sound pairs.length_eq.symm fun m member => ?_
    obtain ⟨t, inside, walked⟩ := exists_left_of_forall₂ pairs member
    exact ih t inside walked (parts t inside)
  · cases n with
    | ref | call | slot => cases walked; exact formed
    | widget w =>
      obtain ⟨v, filled, rfl⟩ := Except.map_eq_ok.mp walked
      exact wellFormed_iff.mpr ⟨isSound_fill filled sound, fun _ member => by cases member⟩
    | page | custom | stray => cases sound
    | sect | frag | cond | loop => exact absurd rfl container

/-- Filling a well-formed template succeeds, with a well-formed tree. -/
theorem substitute_total (args : Fields) (formed : template.wellFormed) :
    ∃ filled, template.substitute args = .ok filled ∧ filled.wellFormed := by
  have fillable : template.All (·.isFillable) := fun m inside =>
    isFillable_of_isSound (List.all_eq_true.mp formed m inside)
  obtain ⟨filled, walked⟩ := exists_substitute args fillable
  exact ⟨filled, walked, wellFormed_of_substitute walked formed⟩

end sound

end Node

end ViewCompiler
